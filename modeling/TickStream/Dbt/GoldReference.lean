import Mathlib.Algebra.BigOperators.Group.List.Basic
import Mathlib.Algebra.Order.BigOperators.Group.List
import Mathlib.Algebra.Order.Ring.Rat
import Mathlib.Tactic.Ring
import TickStream.Dbt.Gold
import TickStream.Processing.Accumulator

/-!
# Gold is the reference on silver

Both sides are described window by window.  The reference folds the events of
a bucket into one accumulator; exact addition does not depend on their order,
so the accumulator is given by the sums over the bucket's trades and tickers.
Gold computes the same sums on each side of the join.
-/

namespace TickStream

open Python Library

/-- The accumulator of the given trades and tickers. -/
def accOf (trades : List SilverTrade) (tickers : List SilverTicker) : Acc Rat :=
  { pv := (trades.map (fun trade => trade.price * trade.size)).sum
    vol := (trades.map SilverTrade.size).sum
    trades := trades.length
    spreadSum := (tickers.map SilverTicker.spread).sum
    midSum := (tickers.map SilverTicker.mid).sum
    tickers := tickers.length }

private theorem foldl_add_trades (trades : List SilverTrade) (acc : Acc Rat) :
    (trades.map SilverTrade.toEvent).foldl Acc.add acc =
      { acc with
        pv := acc.pv +
          (trades.map (fun trade => trade.price * trade.size)).sum
        vol := acc.vol + (trades.map SilverTrade.size).sum
        trades := acc.trades + trades.length } := by
  induction trades generalizing acc with
  | nil => simp
  | cons trade rest induction =>
      rw [List.map_cons, List.foldl_cons, induction]
      simp only [Acc.add, SilverTrade.toEvent, List.map_cons, List.sum_cons,
        List.length_cons, Acc.mk.injEq, and_true]
      refine ⟨?_, ?_, ?_⟩
      · ring
      · ring
      · omega

private theorem foldl_add_tickers (tickers : List SilverTicker)
    (acc : Acc Rat) :
    (tickers.map SilverTicker.toEvent).foldl Acc.add acc =
      { acc with
        spreadSum := acc.spreadSum + (tickers.map SilverTicker.spread).sum
        midSum := acc.midSum + (tickers.map SilverTicker.mid).sum
        tickers := acc.tickers + tickers.length } := by
  induction tickers generalizing acc with
  | nil => simp
  | cons ticker rest induction =>
      rw [List.map_cons, List.foldl_cons, induction]
      simp only [Acc.add, SilverTicker.toEvent, SilverTicker.spread,
        SilverTicker.mid, List.map_cons, List.sum_cons, List.length_cons,
        Acc.mk.injEq, true_and]
      refine ⟨?_, ?_, ?_⟩
      · ring
      · push_cast
        ring
      · omega

theorem foldl_add_silver {events : List (MarketEvent Rat)}
    {trades : List SilverTrade} {tickers : List SilverTicker}
    (same : events.Perm (trades.map SilverTrade.toEvent ++
      tickers.map SilverTicker.toEvent)) :
    events.foldl Acc.add Acc.empty = accOf trades tickers := by
  rw [same.foldl_eq, List.foldl_append, foldl_add_trades, foldl_add_tickers]
  simp [Acc.empty, accOf]

theorem windowStart_eq_ediv (tsCol : Instant) (seconds : Nat) :
    windowStart tsCol seconds =
      tsCol / (seconds * microsPerSecond) * (seconds * microsPerSecond) := by
  have floored : ⌊(tsCol : Rat) / microsPerSecond / seconds⌋ =
      tsCol / (seconds * microsPerSecond) := by
    have divisor : (microsPerSecond : Rat) * (seconds : Rat) =
        ((seconds * 1000000 : Nat) : Rat) := by
      simp only [microsPerSecond]
      push_cast
      exact mul_comm _ _
    have wholeDivisor : (seconds : Int) * microsPerSecond =
        ((seconds * 1000000 : Nat) : Int) := by
      rw [Nat.cast_mul]
      rfl
    rw [div_div, divisor, wholeDivisor]
    exact Rat.floor_intCast_div_natCast tsCol (seconds * 1000000)
  rw [windowStart, floored, mul_assoc]

/-- The two implementations of the window start agree from the epoch on. -/
theorem windowStart_eq {tsCol : Instant} (afterEpoch : 0 ≤ tsCol)
    (seconds : Nat) :
    windowStart tsCol seconds = (windowBounds tsCol seconds).1 := by
  rw [windowStart_eq_ediv, windowBounds_fst_eq afterEpoch]

/-- Events of one minute share their window at every window size. -/
theorem windowStart_of_minute {first second : Instant}
    (sameMinute : windowStart first 60 = windowStart second 60)
    {size : String × Nat} (member : size ∈ windowSizes) :
    windowStart first size.2 = windowStart second size.2 := by
  have nested : ∀ left right : Int,
      left / 60000000 * 60000000 = right / 60000000 * 60000000 →
        left / 300000000 * 300000000 = right / 300000000 * 300000000 := by
    omega
  simp only [windowSizes, List.mem_cons, List.not_mem_nil, or_false] at member
  rcases member with rfl | rfl
  · exact sameMinute
  · rw [windowStart_eq_ediv, windowStart_eq_ediv] at sameMinute ⊢
    exact nested first second sameMinute

section Window

variable (trades : List SilverTrade) (tickers : List SilverTicker)
  (size : String × Nat) (grain : Grain)

/-- The silver trades and tickers of a window. -/
def tradesIn : List SilverTrade :=
  inWindow SilverTrade.symbol SilverTrade.tsEvent trades size grain

def tickersIn : List SilverTicker :=
  inWindow SilverTicker.symbol SilverTicker.tsEvent tickers size grain

/-- The metrics of one window, from its trades and tickers. -/
def metricsOf : WindowMetrics Rat :=
  windowRow size.2 size.1 ((grain.1, grain.2.2),
    accOf (tradesIn trades size grain) (tickersIn tickers size grain))

end Window

section Reference

variable {events : List (MarketEvent Rat)} {trades : List SilverTrade}
  {tickers : List SilverTicker}

private theorem itemsAt_perm_silver
    (same : events.Perm (trades.map SilverTrade.toEvent ++
      tickers.map SilverTicker.toEvent))
    (tradesAfterEpoch : ∀ trade ∈ trades, 0 ≤ trade.tsEvent)
    (tickersAfterEpoch : ∀ ticker ∈ tickers, 0 ≤ ticker.tsEvent)
    (size : String × Nat) (selected : String × Instant) :
    (itemsAt (bucket size.2) events selected).Perm
      ((tradesIn trades size (selected.1, size.1, selected.2)).map
          SilverTrade.toEvent ++
        (tickersIn tickers size (selected.1, size.1, selected.2)).map
          SilverTicker.toEvent) := by
  have tradesSame : (trades.map SilverTrade.toEvent).filter
        (fun event => bucket size.2 event = selected) =
      (tradesIn trades size (selected.1, size.1, selected.2)).map
        SilverTrade.toEvent := by
    rw [List.filter_map]
    congr 1
    apply List.filter_congr
    intro trade member
    have start := windowStart_eq (tradesAfterEpoch trade member) size.2
    apply decide_eq_decide.mpr
    simp [bucket, grainOf, SilverTrade.toEvent, start, Prod.ext_iff]
  have tickersSame : (tickers.map SilverTicker.toEvent).filter
        (fun event => bucket size.2 event = selected) =
      (tickersIn tickers size (selected.1, size.1, selected.2)).map
        SilverTicker.toEvent := by
    rw [List.filter_map]
    congr 1
    apply List.filter_congr
    intro ticker member
    have start := windowStart_eq (tickersAfterEpoch ticker member) size.2
    apply decide_eq_decide.mpr
    simp [bucket, grainOf, SilverTicker.toEvent, start, Prod.ext_iff]
  have split := itemsAt_perm (bucket size.2) same selected
  simp only [itemsAt] at split ⊢
  rwa [List.filter_append, tradesSame, tickersSame] at split

/-- The reference has a row for every window that holds a silver row. -/
private theorem mem_computeWindows_silver
    (same : events.Perm (trades.map SilverTrade.toEvent ++
      tickers.map SilverTicker.toEvent))
    (tradesAfterEpoch : ∀ trade ∈ trades, 0 ≤ trade.tsEvent)
    (tickersAfterEpoch : ∀ ticker ∈ tickers, 0 ≤ ticker.tsEvent)
    (size : String × Nat) (metrics : WindowMetrics Rat) :
    metrics ∈ computeWindows events size.2 size.1 ↔
      ∃ grain : Grain, grain.2.1 = size.1 ∧
        (tradesIn trades size grain ≠ [] ∨
          tickersIn tickers size grain ≠ []) ∧
        metrics = metricsOf trades tickers size grain := by
  have perm := itemsAt_perm_silver same tradesAfterEpoch tickersAfterEpoch size
  have occupied : ∀ selected : String × Instant,
      (∃ event ∈ events, bucket size.2 event = selected) ↔
        tradesIn trades size (selected.1, size.1, selected.2) ≠ [] ∨
          tickersIn tickers size (selected.1, size.1, selected.2) ≠ [] := by
    intro selected
    have empty : itemsAt (bucket size.2) events selected = [] ↔
        tradesIn trades size (selected.1, size.1, selected.2) = [] ∧
          tickersIn tickers size (selected.1, size.1, selected.2) = [] := by
      rw [← List.length_eq_zero_iff, (perm selected).length_eq]
      simp
    rw [← not_and_or, ← empty, List.eq_nil_iff_forall_not_mem]
    simp [mem_itemsAt]
  rw [(computeWindows_perm _ _ _).mem_iff, List.mem_map]
  constructor
  · intro inDict
    rcases inDict with ⟨⟨selected, acc⟩, member, row⟩
    obtain ⟨present, folded⟩ := (mem_foldKeyed _ _ _).mp member
    rw [foldl_add_silver (perm selected)] at folded
    refine ⟨(selected.1, size.1, selected.2), rfl,
      (occupied selected).mp present, ?_⟩
    rw [← row, folded]
    rfl
  · intro inGrain
    rcases inGrain with ⟨⟨symbol, label, start⟩, sameLabel, present, row⟩
    dsimp only at sameLabel
    subst sameLabel
    refine ⟨((symbol, start), _),
      (mem_foldKeyed _ _ _).mpr ⟨(occupied (symbol, start)).mpr present, rfl⟩,
      ?_⟩
    rw [foldl_add_silver (perm (symbol, start)), row]
    rfl

end Reference

section Join

variable {F : Type} {trade : Grain → List SilverTrade → TradeWindow F}
  {ticker : Grain → List SilverTicker → TickerWindow F}

/-- What the join holds for a window with the given trades and tickers. -/
def joinedBy (trade : Grain → List SilverTrade → TradeWindow F)
    (ticker : Grain → List SilverTicker → TickerWindow F) (grain : Grain)
    (trades : List SilverTrade) (tickers : List SilverTicker) :
    Joined (TradeWindow F) (TickerWindow F) :=
  match trades, tickers with
  | trades, [] => .leftOnly (trade grain trades)
  | [], tickers => .rightOnly (ticker grain tickers)
  | trades, tickers => .both (trade grain trades) (ticker grain tickers)

abbrev joinedOf : Grain → List SilverTrade → List SilverTicker →
    Joined TradeWindow TickerWindow :=
  joinedBy tradeWindow tickerWindow

theorem joinedBy_leftOnly (grain : Grain) (trades : List SilverTrade) :
    joinedBy trade ticker grain trades [] =
      .leftOnly (trade grain trades) := by
  cases trades <;> rfl

theorem joinedBy_rightOnly {tickers : List SilverTicker}
    (nonempty : tickers ≠ []) (grain : Grain) :
    joinedBy trade ticker grain [] tickers =
      .rightOnly (ticker grain tickers) := by
  cases tickers with
  | nil => exact absurd rfl nonempty
  | cons first rest => rfl

theorem joinedBy_both {trades : List SilverTrade}
    {tickers : List SilverTicker} (someTrades : trades ≠ [])
    (someTickers : tickers ≠ []) (grain : Grain) :
    joinedBy trade ticker grain trades tickers =
      .both (trade grain trades) (ticker grain tickers) := by
  cases trades with
  | nil => exact absurd rfl someTrades
  | cons firstTrade restTrades =>
      cases tickers with
      | nil => exact absurd rfl someTickers
      | cons firstTicker restTickers => rfl

/-- A window with trades has its left side, one without has none. -/
theorem joinedBy_left? {trades : List SilverTrade} (someTrades : trades ≠ [])
    (grain : Grain) (tickers : List SilverTicker) :
    (joinedBy trade ticker grain trades tickers).left? =
      some (trade grain trades) := by
  by_cases noTickers : tickers = []
  · rw [noTickers, joinedBy_leftOnly]
    rfl
  · rw [joinedBy_both someTrades noTickers]
    rfl

theorem joinedBy_left?_nil {tickers : List SilverTicker}
    (someTickers : tickers ≠ []) (grain : Grain) :
    (joinedBy trade ticker grain [] tickers).left? = none := by
  rw [joinedBy_rightOnly someTickers]
  rfl

theorem joinedBy_right? {tickers : List SilverTicker}
    (someTickers : tickers ≠ []) (grain : Grain)
    (trades : List SilverTrade) :
    (joinedBy trade ticker grain trades tickers).right? =
      some (ticker grain tickers) := by
  by_cases noTrades : trades = []
  · rw [noTrades, joinedBy_rightOnly someTickers]
    rfl
  · rw [joinedBy_both noTrades someTickers]
    rfl

theorem joinedBy_right?_nil (grain : Grain) (trades : List SilverTrade) :
    (joinedBy trade ticker grain trades []).right? = none := by
  rw [joinedBy_leftOnly]
  rfl

theorem joinedBy_key (keeps : KeepsGrain trade ticker) (grain : Grain)
    (trades : List SilverTrade) (tickers : List SilverTicker) :
    (joinedBy trade ticker grain trades tickers).key TradeWindow.grain
      TickerWindow.grain = grain := by
  simp only [joinedBy]
  split
  · exact keeps.trade _ _
  · exact keeps.ticker _ _
  · exact keeps.trade _ _

variable {trades : List SilverTrade} {tickers : List SilverTicker}

theorem tradesIn_grain {size : String × Nat} {grain : Grain}
    (nonempty : tradesIn trades size grain ≠ []) : grain.2.1 = size.1 :=
  grain_label nonempty

theorem tickersIn_grain {size : String × Nat} {grain : Grain}
    (nonempty : tickersIn tickers size grain ≠ []) : grain.2.1 = size.1 :=
  grain_label nonempty

/-- A grain names the size of its windows on both sides of the join. -/
theorem size_of_grain {size other : String × Nat} {grain : Grain}
    (sizeMember : size ∈ windowSizes) (otherMember : other ∈ windowSizes)
    (someTrades : tradesIn trades size grain ≠ [])
    (someTickers : tickersIn tickers other grain ≠ []) : size = other := by
  apply size_of_label sizeMember otherMember
  rw [← tradesIn_grain someTrades, tickersIn_grain someTickers]

/-- Gold has a row for every window that holds a silver row. -/
theorem mem_joinAggregates [Zero F] (keeps : KeepsGrain trade ticker)
    {row : GoldRow F} :
    row ∈ joinAggregates trade ticker trades tickers ↔
      ∃ size ∈ windowSizes, ∃ grain,
        (tradesIn trades size grain ≠ [] ∨
          tickersIn tickers size grain ≠ []) ∧
        row = goldRow (joinedBy trade ticker grain
          (tradesIn trades size grain) (tickersIn tickers size grain)) := by
  simp only [joinAggregates, List.mem_map, mem_fullOuterJoin,
    mem_groupWindows]
  constructor
  · intro inJoin
    rcases inJoin with ⟨joined,
      ⟨_, ⟨size, sizeMember, grain, someTrades, rfl⟩, _,
        ⟨other, otherMember, otherGrain, someTickers, rfl⟩, sameGrain, rfl⟩ |
      ⟨_, ⟨size, sizeMember, grain, someTrades, rfl⟩, unmatched, rfl⟩ |
      ⟨_, ⟨size, sizeMember, grain, someTickers, rfl⟩, unmatched, rfl⟩, rfl⟩
    · rw [keeps.trade, keeps.ticker] at sameGrain
      subst sameGrain
      have sameSize : size = other :=
        size_of_grain sizeMember otherMember someTrades someTickers
      subst sameSize
      exact ⟨size, sizeMember, grain, Or.inl someTrades,
        congrArg goldRow (joinedBy_both someTrades someTickers grain).symm⟩
    · have noTickers : tickersIn tickers size grain = [] := by
        by_contra someTickers
        exact unmatched _ ⟨size, sizeMember, grain, someTickers, rfl⟩
          (by rw [keeps.trade, keeps.ticker])
      refine ⟨size, sizeMember, grain, Or.inl someTrades, ?_⟩
      rw [noTickers, joinedBy_leftOnly]
      rfl
    · have noTrades : tradesIn trades size grain = [] := by
        by_contra someTrades
        exact unmatched _ ⟨size, sizeMember, grain, someTrades, rfl⟩
          (by rw [keeps.trade, keeps.ticker])
      refine ⟨size, sizeMember, grain, Or.inr someTickers, ?_⟩
      rw [noTrades]
      exact congrArg goldRow (joinedBy_rightOnly someTickers grain).symm
  · intro inGrain
    rcases inGrain with ⟨size, sizeMember, grain, occupied, rfl⟩
    refine ⟨_, ?_, rfl⟩
    by_cases noTickers : tickersIn tickers size grain = []
    · have someTrades : tradesIn trades size grain ≠ [] :=
        occupied.resolve_right (fun someTickers => someTickers noTickers)
      rw [noTickers, joinedBy_leftOnly]
      refine Or.inr (Or.inl
        ⟨_, ⟨size, sizeMember, grain, someTrades, rfl⟩, ?_, rfl⟩)
      intro _ tickerMember sameGrain
      rcases tickerMember with
        ⟨other, otherMember, otherGrain, someTickers, rfl⟩
      rw [keeps.trade, keeps.ticker] at sameGrain
      subst sameGrain
      have sameSize : size = other :=
        size_of_grain sizeMember otherMember someTrades someTickers
      subst sameSize
      exact someTickers noTickers
    · by_cases noTrades : tradesIn trades size grain = []
      · rw [noTrades, joinedBy_rightOnly noTickers]
        refine Or.inr (Or.inr
          ⟨_, ⟨size, sizeMember, grain, noTickers, rfl⟩, ?_, rfl⟩)
        intro _ tradeMember sameGrain
        rcases tradeMember with
          ⟨other, otherMember, otherGrain, someTrades, rfl⟩
        rw [keeps.trade, keeps.ticker] at sameGrain
        subst sameGrain
        have sameSize : other = size :=
          size_of_grain otherMember sizeMember someTrades noTickers
        subst sameSize
        exact someTrades noTrades
      · rw [joinedBy_both noTrades noTickers]
        exact Or.inl ⟨_, ⟨size, sizeMember, grain, noTrades, rfl⟩, _,
          ⟨size, sizeMember, grain, noTickers, rfl⟩,
          by rw [keeps.trade, keeps.ticker], rfl⟩

theorem mem_joinWindows {row : GoldRow} :
    row ∈ joinWindows trades tickers ↔
      ∃ size ∈ windowSizes, ∃ grain,
        (tradesIn trades size grain ≠ [] ∨
          tickersIn tickers size grain ≠ []) ∧
        row = goldRow (joinedOf grain (tradesIn trades size grain)
          (tickersIn tickers size grain)) :=
  mem_joinAggregates windows_keepGrain

end Join

theorem volume_nonneg (trades : List SilverTrade) :
    0 ≤ (trades.map SilverTrade.size).sum := by
  apply List.sum_nonneg
  intro size member
  obtain ⟨trade, _, same⟩ := List.mem_map.mp member
  rw [← same]
  exact trade.sizeNonnegative

@[simp] theorem tradeWindow_grain (grain : Grain) (trades : List SilverTrade) :
    (tradeWindow grain trades).grain = grain := rfl

@[simp] theorem tradeWindow_count (grain : Grain) (trades : List SilverTrade) :
    (tradeWindow grain trades).tradeCount = trades.length := rfl

@[simp] theorem tickerWindow_grain (grain : Grain)
    (tickers : List SilverTicker) :
    (tickerWindow grain tickers).grain = grain := rfl

@[simp] theorem tickerWindow_count (grain : Grain)
    (tickers : List SilverTicker) :
    (tickerWindow grain tickers).tickerCount = tickers.length := rfl

/-- The SQL quotient is null exactly when the denominator is zero. -/
private theorem nullDiv_nullIf (numerator : Rat) {denominator : Rat}
    (nonneg : 0 ≤ denominator) :
    nullDiv (some numerator) (nullIf (some denominator) 0) =
      if 0 < denominator then some (numerator / denominator) else none := by
  by_cases zero : denominator = 0
  · subst zero
    simp [nullIf, nullDiv]
  · have positive : 0 < denominator := lt_of_le_of_ne nonneg (Ne.symm zero)
    simp [nullIf, Option.filter, nullDiv, zero, positive]

theorem tradeWindow_vwap (grain : Grain) (trades : List SilverTrade) :
    (tradeWindow grain trades).vwap =
      if 0 < (trades.map SilverTrade.size).sum then
        some ((trades.map (fun trade => trade.price * trade.size)).sum /
          (trades.map SilverTrade.size).sum)
      else none := by
  cases trades with
  | nil => rfl
  | cons trade rest =>
      simp only [tradeWindow]
      rw [sqlSum_of_ne_nil (by simp), sqlSum_of_ne_nil (by simp)]
      exact nullDiv_nullIf _ (volume_nonneg (trade :: rest))

theorem tradeWindow_volume (grain : Grain) (trades : List SilverTrade) :
    (tradeWindow grain trades).tradeVolume.getD 0 =
      (trades.map SilverTrade.size).sum := by
  cases trades with
  | nil => rfl
  | cons trade rest =>
      have summed : (tradeWindow grain (trade :: rest)).tradeVolume =
          some ((trade :: rest).map SilverTrade.size).sum :=
        sqlSum_of_ne_nil (List.cons_ne_nil _ _)
      rw [summed, Option.getD_some]

theorem sqlAvg_eq {α : Type} (column : α → Rat) (rows : List α) :
    sqlAvg (rows.map column) =
      if 0 < rows.length then
        some ((rows.map column).sum / (rows.length : Rat))
      else none := by
  cases rows with
  | nil => rfl
  | cons row rest => simp [sqlAvg]

theorem tickerWindow_spread (grain : Grain) (tickers : List SilverTicker) :
    (tickerWindow grain tickers).avgSpread =
      if 0 < tickers.length then
        some ((tickers.map SilverTicker.spread).sum / (tickers.length : Rat))
      else none :=
  sqlAvg_eq _ _

theorem tickerWindow_mid (grain : Grain) (tickers : List SilverTicker) :
    (tickerWindow grain tickers).avgMid =
      if 0 < tickers.length then
        some ((tickers.map SilverTicker.mid).sum / (tickers.length : Rat))
      else none :=
  sqlAvg_eq _ _

/-- The metrics gold computes for a window with the given trades and
tickers: those of the reference, with the end taken from the label. -/
def goldMetrics (grain : Grain) (trades : List SilverTrade)
    (tickers : List SilverTicker) : WindowMetrics Rat :=
  { windowRow (windowSpan grain.2.1) grain.2.1
      ((grain.1, grain.2.2), accOf trades tickers) with
    windowEnd := grain.2.2 + windowSpan grain.2.1 * microsPerSecond }

theorem goldMetrics_key (grain : Grain) (trades : List SilverTrade)
    (tickers : List SilverTicker) :
    (goldMetrics grain trades tickers).key = grain := rfl

/-- The quotient of a window only depends on its trades. -/
theorem goldMetrics_vwap (grain : Grain) (trades : List SilverTrade)
    (tickers : List SilverTicker) (size : String × Nat)
    (selected : String × Instant) :
    (goldMetrics grain trades tickers).vwap =
      (windowRow size.2 size.1 (selected, accOf trades [])).vwap := by
  by_cases volume : 0 < (trades.map SilverTrade.size).sum
  · simp [goldMetrics, windowRow, accOf, volume]
  · simp [goldMetrics, windowRow, accOf, volume]

theorem goldRow_metrics (grain : Grain) (trades : List SilverTrade)
    (tickers : List SilverTicker) :
    (goldRow (joinedOf grain trades tickers)).toWindowMetrics =
      goldMetrics grain trades tickers := by
  by_cases noTickers : tickers = []
  · subst noTickers
    rw [joinedOf, joinedBy_leftOnly]
    simp [goldRow, goldMetrics, windowRow, accOf, Joined.left?, Joined.right?,
      Joined.key, tradeWindow_vwap, tradeWindow_volume]
  · have counted : 0 < tickers.length := List.length_pos_of_ne_nil noTickers
    by_cases noTrades : trades = []
    · subst noTrades
      rw [joinedOf, joinedBy_rightOnly noTickers]
      simp [goldRow, goldMetrics, windowRow, accOf, Joined.left?, Joined.right?,
        Joined.key, tickerWindow_spread, tickerWindow_mid, counted]
    · rw [joinedOf, joinedBy_both noTrades noTickers]
      simp [goldRow, goldMetrics, windowRow, accOf, Joined.left?, Joined.right?,
        Joined.key, tradeWindow_vwap, tradeWindow_volume, tickerWindow_spread,
        tickerWindow_mid, counted]
      rfl

private theorem joinedOf_key (grain : Grain) (trades : List SilverTrade)
    (tickers : List SilverTicker) :
    (joinedOf grain trades tickers).key TradeWindow.grain
      TickerWindow.grain = grain :=
  joinedBy_key windows_keepGrain grain trades tickers

/-- The row of a window: its metrics and its printed grain. -/
theorem goldRow_eq (grain : Grain) (trades : List SilverTrade)
    (tickers : List SilverTicker) :
    goldRow (joinedOf grain trades tickers) =
      { goldMetrics grain trades tickers with windowKey := windowKey grain } := by
  have metrics := goldRow_metrics grain trades tickers
  have key : (goldRow (joinedOf grain trades tickers)).windowKey =
      windowKey grain :=
    congrArg windowKey (joinedOf_key grain trades tickers)
  rw [← metrics, ← key]

/-- The output row of a window has the metrics of the reference. -/
theorem goldRow_joinedOf (grain : Grain) (trades : List SilverTrade)
    (tickers : List SilverTicker) {size : String × Nat}
    (sizeMember : size ∈ windowSizes) (label : grain.2.1 = size.1)
    (stop : (windowBounds grain.2.2 size.2).2 =
      grain.2.2 + size.2 * microsPerSecond) :
    (goldRow (joinedOf grain trades tickers)).toWindowMetrics =
      windowRow size.2 size.1
        ((grain.1, grain.2.2), accOf trades tickers) := by
  rw [goldRow_metrics]
  simp only [goldMetrics]
  rw [label, windowSpan_eq sizeMember, ← stop]
  rfl

/-- The end of a window that holds a silver row. -/
theorem windowBounds_of_occupied {trades : List SilverTrade}
    {tickers : List SilverTicker}
    (tradesAfterEpoch : ∀ trade ∈ trades, 0 ≤ trade.tsEvent)
    (tickersAfterEpoch : ∀ ticker ∈ tickers, 0 ≤ ticker.tsEvent)
    {size : String × Nat} {grain : Grain}
    (occupied : tradesIn trades size grain ≠ [] ∨
      tickersIn tickers size grain ≠ []) :
    (windowBounds grain.2.2 size.2).2 =
      grain.2.2 + size.2 * microsPerSecond := by
  have bounds : ∀ tsEvent : Instant, 0 ≤ tsEvent →
      (windowBounds (windowStart tsEvent size.2) size.2).2 =
        windowStart tsEvent size.2 + size.2 * microsPerSecond := by
    intro tsEvent afterEpoch
    rw [windowStart_eq afterEpoch, windowBounds_start, windowBounds_snd_eq]
  rcases occupied with someTrades | someTickers
  · obtain ⟨trade, present⟩ := List.exists_mem_of_ne_nil _ someTrades
    obtain ⟨member, sameGrain⟩ := mem_inWindow.mp present
    rw [← sameGrain]
    exact bounds trade.tsEvent (tradesAfterEpoch trade member)
  · obtain ⟨ticker, present⟩ := List.exists_mem_of_ne_nil _ someTickers
    obtain ⟨member, sameGrain⟩ := mem_inWindow.mp present
    rw [← sameGrain]
    exact bounds ticker.tsEvent (tickersAfterEpoch ticker member)

/-- The reference metrics for every window size. -/
def computeAllWindows (events : List (MarketEvent Rat)) :
    List (WindowMetrics Rat) :=
  windowSizes.flatMap (fun size => computeWindows events size.2 size.1)

private theorem computeAllWindows_keys_nodup (events : List (MarketEvent Rat)) :
    ((computeAllWindows events).map WindowMetrics.key).Nodup := by
  apply windowSizes_keys_nodup WindowMetrics.key (fun key => key.2.1)
  · intro size
    exact computeWindows_keys_nodup _ _ _
  · intro size row member
    exact computeWindows_windowSize member

/-- Every gold row is the row of an occupied window. -/
theorem joinWindows_metrics {trades : List SilverTrade}
    {tickers : List SilverTicker} {row : GoldRow}
    (member : row ∈ joinWindows trades tickers) :
    ∃ size ∈ windowSizes, ∃ grain,
      (tradesIn trades size grain ≠ [] ∨ tickersIn tickers size grain ≠ []) ∧
      row.toWindowMetrics = goldMetrics grain (tradesIn trades size grain)
        (tickersIn tickers size grain) := by
  obtain ⟨size, sizeMember, grain, occupied, same⟩ :=
    mem_joinWindows.mp member
  refine ⟨size, sizeMember, grain, occupied, ?_⟩
  rw [same, goldRow_metrics]

/-- A gold row is null in `vwap` exactly when its window has no volume. -/
private theorem gold_vwap_null_iff {trades : List SilverTrade}
    {tickers : List SilverTicker} {row : GoldRow}
    (member : row ∈ joinWindows trades tickers) :
    row.vwap = none ↔ row.tradeVolume = 0 := by
  obtain ⟨size, _, grain, _, metrics⟩ := joinWindows_metrics member
  have nonneg := volume_nonneg (tradesIn trades size grain)
  rw [metrics]
  constructor
  · intro null
    by_contra volume
    have positive : 0 < (accOf (tradesIn trades size grain)
        (tickersIn tickers size grain)).vol :=
      lt_of_le_of_ne nonneg (Ne.symm volume)
    simp [goldMetrics, windowRow, positive] at null
  · intro empty
    have noVolume : (accOf (tradesIn trades size grain)
        (tickersIn tickers size grain)).vol = 0 := empty
    simp [goldMetrics, windowRow, noVolume]

/-- The gold mart holds one row for every window of the reference on silver,
with the same metrics, and no other row. -/
theorem gold_matches_reference (bronze : List BronzeRow)
    (afterEpoch : ∀ row ∈ bronze, 0 ≤ row.tsEvent)
    (events : List (MarketEvent Rat))
    (silver : events.Perm (silverEvents bronze)) :
    ((goldWindowMetrics bronze).map GoldRow.toWindowMetrics).Perm
      (computeAllWindows events) ∧
    ((goldWindowMetrics bronze).map (fun row => row.key)).Nodup ∧
    (∀ row ∈ goldWindowMetrics bronze,
      row.vwap = none ↔ row.tradeVolume = 0) := by
  have tradesAfterEpoch : ∀ trade ∈ silverTrades bronze, 0 ≤ trade.tsEvent :=
    fun _ member => silverTrades_afterEpoch afterEpoch member
  have tickersAfterEpoch : ∀ ticker ∈ silverTicker bronze,
      0 ≤ ticker.tsEvent :=
    fun _ member => silverTicker_afterEpoch afterEpoch member
  have distinct := joinWindows_keys_nodup (silverTrades bronze)
    (silverTicker bronze)
  refine ⟨?_, distinct, fun _ member => gold_vwap_null_iff member⟩
  have goldDistinct : ((goldWindowMetrics bronze).map
      GoldRow.toWindowMetrics).Nodup := by
    apply List.Nodup.of_map WindowMetrics.key
    rw [List.map_map]
    exact distinct
  have referenceDistinct : (computeAllWindows events).Nodup :=
    List.Nodup.of_map WindowMetrics.key (computeAllWindows_keys_nodup events)
  rw [List.perm_ext_iff_of_nodup goldDistinct referenceDistinct]
  intro metrics
  simp only [goldWindowMetrics, computeAllWindows, List.mem_map,
    mem_joinWindows, List.mem_flatMap,
    mem_computeWindows_silver silver tradesAfterEpoch tickersAfterEpoch]
  constructor
  · intro inGold
    rcases inGold with
      ⟨row, ⟨size, sizeMember, grain, occupied, sameRow⟩, sameMetrics⟩
    have label : grain.2.1 = size.1 :=
      occupied.elim tradesIn_grain tickersIn_grain
    have stop := windowBounds_of_occupied tradesAfterEpoch tickersAfterEpoch
      occupied
    refine ⟨size, sizeMember, grain, label, occupied, ?_⟩
    rw [← sameMetrics, sameRow]
    exact goldRow_joinedOf grain _ _ sizeMember label stop
  · intro inGrain
    rcases inGrain with ⟨size, sizeMember, grain, label, occupied, sameMetrics⟩
    have stop := windowBounds_of_occupied tradesAfterEpoch tickersAfterEpoch
      occupied
    refine ⟨_, ⟨size, sizeMember, grain, occupied, rfl⟩, ?_⟩
    rw [sameMetrics]
    exact goldRow_joinedOf grain _ _ sizeMember label stop

/-- A window with trades and tickers, and a repeated trade in a later one. -/
theorem gold_matches_reference_sample :
    ((goldWindowMetrics
      [sampleTrade "a" 10 100 2, sampleTicker 20 1 2,
        sampleTrade "a" 70 100 2]).map GoldRow.toWindowMetrics).Perm
      (computeAllWindows (silverEvents
        [sampleTrade "a" 10 100 2, sampleTicker 20 1 2,
          sampleTrade "a" 70 100 2])) ∧
    (goldWindowMetrics
      [sampleTrade "a" 10 100 2, sampleTicker 20 1 2,
        sampleTrade "a" 70 100 2]).length = 2 := by
  refine ⟨(gold_matches_reference _ (by decide) _ (List.Perm.refl _)).1, ?_⟩
  decide +kernel

end TickStream
