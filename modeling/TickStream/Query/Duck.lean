import Mathlib.Data.List.ReduceOption
import Mathlib.Data.String.Basic
import TickStream.Dbt.Epoch
import TickStream.Lake.Iceberg
import TickStream.Library.OrderedQuery
import TickStream.Library.WeightedMean
import TickStream.Quality.GoldInvariants

/-!
# The queries over gold

DuckDB scans the files of the gold table in no particular order.  Strings are
ordered by their characters; `avg` and `sum` skip nulls.
-/

namespace TickStream

open Python Library

/-- `avg(..)` of a column with nulls. -/
def sqlAvgNullable (column : List (Option Rat)) : Option Rat :=
  sqlAvg column.reduceOption

/-- A row of `VWAP_MOVING_AVG_SQL`. -/
structure MovingAverageRow where
  symbol : String
  windowStart : Instant
  vwap : Option Rat
  vwapMa3 : Option Rat
  tradeVolume : Rat
  tradeCount : Nat
deriving DecidableEq

/-- The `where` clause. -/
def isTradedMinute (row : GoldRow) : Bool :=
  isMinute row && 0 < row.tradeCount

/-- `order by symbol, window_start`. -/
def symbolAndStart (row : GoldRow) : String ×ₗ Instant :=
  toLex (row.symbol, row.windowStart)

def movingAverageRow (row : GoldRow) (vwaps : List (Option Rat)) :
    MovingAverageRow :=
  { symbol := row.symbol
    windowStart := row.windowStart
    vwap := row.vwap
    vwapMa3 := sqlAvgNullable vwaps
    tradeVolume := row.tradeVolume
    tradeCount := row.tradeCount }

def vwapMovingAverage (gold : List GoldRow) : List MovingAverageRow :=
  let selected := gold.filter isTradedMinute
  (orderBy symbolAndStart selected).map (fun row =>
    movingAverageRow row
      ((trailingFrame (fun row => row.symbol) (fun row => row.windowStart) 2
        selected row).map (fun row => row.vwap)))

/-- Number of traded minutes of a symbol in a span of time. -/
def tradedBetween (gold : List GoldRow) (symbol : String)
    (after upTo : Instant) : Nat :=
  gold.countP (fun row => isTradedMinute row && row.symbol = symbol &&
    after < row.windowStart && row.windowStart ≤ upTo)

/-- The traded minutes of a symbol with at most two more recent ones. -/
def latestThree (gold : List GoldRow) (symbol : String) (upTo : Instant) :
    List GoldRow :=
  gold.filter (fun row => isTradedMinute row && row.symbol = symbol &&
    row.windowStart ≤ upTo &&
    tradedBetween gold symbol row.windowStart upTo ≤ 2)

section Minutes

variable {rows : List GoldRow}

/-- Among 1-minute windows the symbol and the start are unique. -/
theorem minutes_nodup (keys : (rows.map (fun row => row.key)).Nodup)
    (minutes : ∀ row ∈ rows, isMinute row) :
    (rows.map (fun row => (row.symbol, row.windowStart))).Nodup := by
  apply List.Nodup.of_map
    (fun pair => ((pair.1, "1m", pair.2) : String × String × Instant))
  rw [List.map_map]
  convert keys using 1
  apply List.map_congr_left
  intro row member
  have label : row.windowSize = "1m" := of_decide_eq_true (minutes row member)
  simp only [Function.comp_apply, WindowMetrics.key, label]

theorem tradedMinutes_nodup (keys : (rows.map (fun row => row.key)).Nodup) :
    ((rows.filter isTradedMinute).map
      (fun row => (row.symbol, row.windowStart))).Nodup := by
  apply minutes_nodup (keys.sublist (List.filter_sublist.map _))
  intro row member
  have traded := (List.mem_filter.mp member).2
  simp only [isTradedMinute, Bool.and_eq_true] at traded
  exact traded.1

theorem symbolAndStart_nodup
    (distinct : (rows.map (fun row => (row.symbol, row.windowStart))).Nodup) :
    (rows.map symbolAndStart).Nodup := by
  have lexed := distinct.map toLex.injective
  rw [List.map_map] at lexed
  exact lexed

theorem GoldOf.keys_nodup {bronze : List BronzeRow} {gold : List GoldRow}
    (built : GoldOf bronze gold) (scanned : rows.Perm gold) :
    (rows.map (fun row => row.key)).Nodup := by
  obtain ⟨silver, _, rfl⟩ := built
  exact (scanned.map _).nodup_iff.mpr (joinWindows_keys_nodup _ _)

end Minutes

section Frame

variable {rows gold : List GoldRow}

theorem sqlAvgNullable_perm {column other : List (Option Rat)}
    (same : column.Perm other) :
    sqlAvgNullable column = sqlAvgNullable other :=
  sqlAvg_perm (same.filterMap id)

/-- The average is null when every value is. -/
theorem sqlAvgNullable_eq_none {column : List (Option Rat)} :
    sqlAvgNullable column = none ↔ ∀ value ∈ column, value = none := by
  simp only [sqlAvgNullable, sqlAvg, ite_eq_left_iff, reduceCtorEq, imp_false,
    not_not]
  rw [List.reduceOption, List.filterMap_eq_nil_iff]
  rfl

/-- The frame of a row holds the latest three traded minutes. -/
private theorem frame_perm_latestThree
    (keys : (rows.map (fun row => row.key)).Nodup) (scanned : rows.Perm gold)
    (row : GoldRow) :
    (trailingFrame (fun row => row.symbol) (fun row => row.windowStart) 2
      (rows.filter isTradedMinute) row).Perm
        (latestThree gold row.symbol row.windowStart) := by
  refine (trailingFrame_perm 2 (tradedMinutes_nodup keys) row).trans ?_
  have upTo : partitionUpTo (fun row : GoldRow => row.symbol)
      (fun row => row.windowStart) (rows.filter isTradedMinute) row =
        rows.filter (fun other => isTradedMinute other &&
          other.symbol = row.symbol && other.windowStart ≤ row.windowStart) := by
    simp only [partitionUpTo, itemsAt, List.filter_filter]
    apply List.filter_congr
    intro other _
    cases isTradedMinute other <;> simp [Bool.and_comm]
  have between : ∀ after : Instant,
      (partitionUpTo (fun row : GoldRow => row.symbol)
        (fun row => row.windowStart) (rows.filter isTradedMinute) row).countP
          (fun other => after < other.windowStart) =
        tradedBetween gold row.symbol after row.windowStart := by
    intro after
    rw [tradedBetween, ← scanned.countP_eq, upTo, List.countP_filter]
    apply List.countP_congr
    intro other _
    simp only [Bool.and_eq_true, decide_eq_true_eq]
    tauto
  simp only [between]
  rw [upTo, List.filter_filter]
  have merged : rows.filter (fun other =>
      decide (tradedBetween gold row.symbol other.windowStart
        row.windowStart ≤ 2) &&
      (isTradedMinute other && decide (other.symbol = row.symbol) &&
        decide (other.windowStart ≤ row.windowStart))) =
      latestThree rows row.symbol row.windowStart := by
    simp only [latestThree, tradedBetween, scanned.countP_eq]
    apply List.filter_congr
    intro other _
    exact Bool.and_comm _ _
  rw [merged, latestThree, latestThree]
  simp only [tradedBetween, scanned.countP_eq]
  exact scanned.filter _

/-- The rows of the query: one for every traded minute, with the mean over the
latest three. -/
theorem mem_vwapMovingAverage
    (keys : (rows.map (fun row => row.key)).Nodup) (scanned : rows.Perm gold)
    {out : MovingAverageRow} :
    out ∈ vwapMovingAverage rows ↔
      ∃ row ∈ gold, isTradedMinute row ∧
        out = movingAverageRow row ((latestThree gold row.symbol
          row.windowStart).map (fun row => row.vwap)) := by
  have average : ∀ row : GoldRow,
      movingAverageRow row ((trailingFrame (fun row => row.symbol)
        (fun row => row.windowStart) 2 (rows.filter isTradedMinute)
          row).map (fun row => row.vwap)) =
      movingAverageRow row ((latestThree gold row.symbol
        row.windowStart).map (fun row => row.vwap)) := by
    intro row
    have same := (frame_perm_latestThree keys scanned row).map
      (fun row => row.vwap)
    simp only [movingAverageRow, sqlAvgNullable_perm same]
  simp only [vwapMovingAverage, average, List.mem_map, mem_orderBy,
    List.mem_filter, scanned.mem_iff, and_assoc]
  constructor
  · intro produced
    rcases produced with ⟨row, member, traded, same⟩
    exact ⟨row, member, traded, same.symm⟩
  · intro produced
    rcases produced with ⟨row, member, traded, same⟩
    exact ⟨row, member, traded, same.symm⟩

private theorem vwapMovingAverage_pairwise
    (keys : (rows.map (fun row => row.key)).Nodup) :
    (vwapMovingAverage rows).Pairwise (fun left right =>
      toLex (left.symbol, left.windowStart) <
        toLex (right.symbol, right.windowStart)) := by
  simp only [vwapMovingAverage]
  rw [List.pairwise_map]
  exact orderBy_pairwise (symbolAndStart_nodup (tradedMinutes_nodup keys))

end Frame

section Prices

variable {trades : List SilverTrade} {tickers : List SilverTicker}
  {low high : Rat}

theorem sqlAvgNullable_mem {column : List (Option Rat)} {average : Rat}
    (within : ∀ value, some value ∈ column → low ≤ value ∧ value ≤ high)
    (present : sqlAvgNullable column = some average) :
    low ≤ average ∧ average ≤ high := by
  simp only [sqlAvgNullable, sqlAvg] at present
  split at present
  · cases present
  · rename_i nonempty
    cases present
    have range := mean_mem_range nonempty (fun value member =>
      within (id value) (List.reduceOption_mem_iff.mp member))
    rwa [List.map_id] at range

/-- A window starts before a boundary of windows exactly when its rows are
before it. -/
theorem windowStart_lt_iff {seconds : Nat} (positive : 0 < seconds)
    {cut : Instant} (whole : (seconds : Int) * microsPerSecond ∣ cut)
    (tsCol : Instant) : windowStart tsCol seconds < cut ↔ tsCol < cut := by
  have step : (0 : Int) < seconds * microsPerSecond :=
    mul_pos (Int.natCast_pos.mpr positive) (by decide)
  obtain ⟨windows, rfl⟩ := whole
  rw [windowStart_eq_ediv, mul_comm _ windows, mul_lt_mul_iff_of_pos_right step,
    Int.ediv_lt_iff_lt_mul step]

private theorem windowStart_lt_add (tsCol : Instant) {seconds : Nat}
    (positive : 0 < seconds) :
    tsCol < windowStart tsCol seconds + seconds * microsPerSecond := by
  have step : (0 : Int) < seconds * microsPerSecond :=
    mul_pos (Int.natCast_pos.mpr positive) (by decide)
  rw [← windowStart_lt_iff positive]
  · exact Int.lt_add_of_pos_right _ step
  · rw [windowStart_eq_ediv]
    exact dvd_add (dvd_mul_left _ _) (dvd_refl _)

private theorem goldMetrics_vwap_mem {grain : Grain} {vwap : Rat}
    (within : ∀ trade ∈ trades, low ≤ trade.price ∧ trade.price ≤ high)
    (present : (goldMetrics grain trades tickers).vwap = some vwap) :
    low ≤ vwap ∧ vwap ≤ high := by
  by_cases positive : 0 < (trades.map SilverTrade.size).sum
  · simp only [goldMetrics, windowRow, accOf, positive, if_true] at present
    cases present
    have nonneg : ∀ trade ∈ trades, 0 ≤ trade.size :=
      fun trade _ => trade.sizeNonnegative
    exact ⟨le_weightedMean nonneg positive.ne'
        (fun trade member _ => (within trade member).1),
      weightedMean_le nonneg positive.ne'
        (fun trade member _ => (within trade member).2)⟩
  · simp only [goldMetrics, windowRow, accOf, positive, if_false] at present
    cases present

/-- The quotient of a gold row lies among the prices of its window. -/
private theorem joinWindows_vwap_mem {row : GoldRow} {vwap : Rat}
    (member : row ∈ joinWindows trades tickers)
    (within : ∀ trade ∈ trades, trade.symbol = row.symbol →
      trade.tsEvent < row.windowStart + windowSpan row.windowSize *
        microsPerSecond → low ≤ trade.price ∧ trade.price ≤ high)
    (present : row.vwap = some vwap) : low ≤ vwap ∧ vwap ≤ high := by
  obtain ⟨size, sizeMember, grain, occupied, metrics⟩ :=
    joinWindows_metrics member
  rw [metrics] at within present
  have label : grain.2.1 = size.1 :=
    occupied.elim tradesIn_grain tickersIn_grain
  refine goldMetrics_vwap_mem ?_ present
  intro trade inside
  obtain ⟨tradeMember, sameGrain⟩ := mem_inWindow.mp inside
  have symbol : trade.symbol = grain.1 := congrArg Prod.fst sameGrain
  have start : windowStart trade.tsEvent size.2 = grain.2.2 :=
    congrArg (fun grain => grain.2.2) sameGrain
  refine within trade tradeMember symbol ?_
  have span : windowSpan grain.2.1 = size.2 := by
    rw [label, windowSpan_eq sizeMember]
  have positive : ∀ size ∈ windowSizes, 0 < size.2 := by decide
  have before := windowStart_lt_add trade.tsEvent (positive size sizeMember)
  rw [start] at before
  simpa only [goldMetrics, windowRow, span] using before

end Prices

/-- Over any scan of the gold of some bronze, the query has one row for every
minute with trades, in the order of the symbols and the times.  Its average is
the mean over the latest three such minutes, and it lies among the prices of the
valid trades up to the end of its minute. -/
theorem vwap_moving_average {bronze : List BronzeRow}
    {gold rows : List GoldRow} (built : GoldOf bronze gold)
    (scanned : rows.Perm gold) :
    (vwapMovingAverage rows).Pairwise (fun left right =>
      toLex (left.symbol, left.windowStart) <
        toLex (right.symbol, right.windowStart)) ∧
    (∀ out, out ∈ vwapMovingAverage rows ↔
      ∃ row ∈ gold, isTradedMinute row ∧
        out = movingAverageRow row ((latestThree gold row.symbol
          row.windowStart).map (fun row => row.vwap))) ∧
    ∀ out ∈ vwapMovingAverage rows, ∀ average, out.vwapMa3 = some average →
      ∀ low high, (∀ trade ∈ validTrades bronze, trade.symbol = out.symbol →
        trade.tsEvent < out.windowStart + 60 * microsPerSecond →
          low ≤ trade.price ∧ trade.price ≤ high) →
        low ≤ average ∧ average ≤ high := by
  have keys := built.keys_nodup scanned
  refine ⟨vwapMovingAverage_pairwise keys,
    fun _ => mem_vwapMovingAverage keys scanned, ?_⟩
  intro out produced average present low high within
  obtain ⟨row, _, _, rfl⟩ := (mem_vwapMovingAverage keys scanned).mp produced
  refine sqlAvgNullable_mem ?_ present
  intro vwap inColumn
  obtain ⟨earlier, latest, hasVwap⟩ := List.mem_map.mp inColumn
  simp only [latestThree, isTradedMinute, isMinute, List.mem_filter,
    Bool.and_eq_true, decide_eq_true_eq] at latest
  obtain ⟨member, ⟨⟨⟨label, _⟩, symbol⟩, upTo⟩, _⟩ := latest
  obtain ⟨silver, kept, rfl⟩ := built
  refine joinWindows_vwap_mem member ?_ hasVwap
  intro trade tradeMember sameSymbol before
  refine within trade (kept.subset trade tradeMember)
    (sameSymbol.trans symbol) ?_
  have minute : windowSpan earlier.windowSize = 60 := by
    rw [label]
    rfl
  rw [minute] at before
  have later : earlier.windowStart + 60 * microsPerSecond ≤
      row.windowStart + 60 * microsPerSecond := Int.add_le_add_right upTo _
  exact lt_of_lt_of_le before later

/-- Four minutes with a trade each, out of order. -/
def fourMinutes : List BronzeRow :=
  [sampleTrade "4" 185 40 1, sampleTrade "1" 5 10 1, sampleTrade "2" 65 20 1,
    sampleTrade "3" 125 30 1]

theorem vwap_moving_average_sample :
    (vwapMovingAverage (goldWindowMetrics fourMinutes).reverse).map
        MovingAverageRow.vwapMa3 = [some 10, some 15, some 20, some 30] ∧
      (vwapMovingAverage (goldWindowMetrics fourMinutes).reverse).Pairwise
        (fun left right => toLex (left.symbol, left.windowStart) <
          toLex (right.symbol, right.windowStart)) :=
  ⟨by decide +kernel,
    (vwap_moving_average (goldOf_goldWindowMetrics fourMinutes)
      (List.reverse_perm _)).1⟩

/-- The bronze rows of events before a time. -/
def bronzeBefore (cut : Instant) (bronze : List BronzeRow) : List BronzeRow :=
  bronze.filter (fun row => row.tsEvent < cut)

section Before

variable {bronze : List BronzeRow} {cut : Instant}

private theorem validTrades_before :
    validTrades (bronzeBefore cut bronze) =
      (validTrades bronze).filter (fun trade => trade.tsEvent < cut) := by
  apply filterMap_filter_of_agree
  intro row trade valid
  obtain ⟨_, _, _, _, _, _, _, time, _⟩ := SilverTrade.ofBronze?_eq_some valid
  rw [time]

private theorem silverTicker_before :
    silverTicker (bronzeBefore cut bronze) =
      (silverTicker bronze).filter (fun ticker => ticker.tsEvent < cut) := by
  apply filterMap_filter_of_agree
  intro row ticker valid
  obtain ⟨_, _, _, _, _, time, _⟩ := SilverTicker.ofBronze?_eq_some valid
  rw [time]

/-- Deduplication keeps the earliest copy of a trade, so later rows do not
change what it keeps. -/
theorem SilverOf.before {silver : List SilverTrade}
    (kept : SilverOf bronze silver) :
    SilverOf (bronzeBefore cut bronze)
      (silver.filter (fun trade => trade.tsEvent < cut)) := by
  simp only [SilverOf]
  rw [validTrades_before]
  refine KeepsFirst.filter _ _ kept ?_
  intro first row _ precedes before
  have earlier : first.tsEvent ≤ row.tsEvent := by
    rcases Prod.Lex.toLex_le_toLex.mp precedes with less | same
    · exact less.le
    · exact same.1.le
  exact decide_eq_true (lt_of_le_of_lt earlier (of_decide_eq_true before))

variable {α : Type} {symbol : α → String} {tsCol : α → Instant}
  {rows : List α}

/-- A minute that starts before a whole minute has all its rows before it. -/
theorem inWindow_before (whole : 60 * microsPerSecond ∣ cut) {grain : Grain}
    (starts : grain.2.2 < cut) :
    inWindow symbol tsCol (rows.filter (fun row => tsCol row < cut))
        ("1m", 60) grain =
      inWindow symbol tsCol rows ("1m", 60) grain := by
  simp only [inWindow, itemsAt, List.filter_filter]
  apply List.filter_congr
  intro row _
  by_cases inside : grainOf symbol tsCol ("1m", 60) row = grain
  · have start : windowStart (tsCol row) 60 = grain.2.2 :=
      congrArg (fun grain => grain.2.2) inside
    rw [← start] at starts
    have before := (windowStart_lt_iff (by decide) whole _).mp starts
    simp [inside, before]
  · simp [inside]

theorem starts_before (whole : 60 * microsPerSecond ∣ cut) {grain : Grain}
    (occupied : inWindow symbol tsCol
      (rows.filter (fun row => tsCol row < cut)) ("1m", 60) grain ≠ []) :
    grain.2.2 < cut := by
  obtain ⟨row, inside⟩ := List.exists_mem_of_ne_nil _ occupied
  obtain ⟨member, same⟩ := mem_inWindow.mp inside
  have before : tsCol row < cut :=
    of_decide_eq_true (List.mem_filter.mp member).2
  rw [← same]
  exact (windowStart_lt_iff (by decide) whole _).mpr before

end Before

section Gold

variable {trades : List SilverTrade} {tickers : List SilverTicker}
  {cut : Instant}

/-- The minutes of gold, from their trades and tickers. -/
theorem mem_minutes {row : GoldRow} :
    row ∈ (joinWindows trades tickers).filter isMinute ↔
      ∃ grain : Grain, grain.2.1 = "1m" ∧
        (tradesIn trades ("1m", 60) grain ≠ [] ∨
          tickersIn tickers ("1m", 60) grain ≠ []) ∧
        row = goldRow (joinedOf grain (tradesIn trades ("1m", 60) grain)
          (tickersIn tickers ("1m", 60) grain)) := by
  have named : ∀ (grain : Grain) (inside : List SilverTrade)
      (quotes : List SilverTicker),
      isMinute (goldRow (joinedOf grain inside quotes)) =
        decide (grain.2.1 = "1m") := by
    intro grain inside quotes
    rw [goldRow_eq]
    rfl
  rw [List.mem_filter, mem_joinWindows]
  constructor
  · intro minute
    rcases minute with ⟨⟨size, sizeMember, grain, occupied, rfl⟩, label⟩
    rw [named, decide_eq_true_eq] at label
    have labels : grain.2.1 = size.1 :=
      occupied.elim tradesIn_grain tickersIn_grain
    have minute : size = ("1m", 60) :=
      size_of_label sizeMember (by decide) (labels.symm.trans label)
    subst minute
    exact ⟨grain, label, occupied, rfl⟩
  · intro minute
    rcases minute with ⟨grain, label, occupied, rfl⟩
    refine ⟨⟨("1m", 60), by decide, grain, occupied, rfl⟩, ?_⟩
    rw [named, decide_eq_true_eq]
    exact label

/-- The minutes before a whole minute are the minutes of the rows before it. -/
private theorem minutes_before_perm (whole : 60 * microsPerSecond ∣ cut) :
    (((joinWindows trades tickers).filter isMinute).filter
        (fun row => row.windowStart < cut)).Perm
      ((joinWindows (trades.filter (fun trade => trade.tsEvent < cut))
        (tickers.filter (fun ticker => ticker.tsEvent < cut))).filter
          isMinute) := by
  have nodup : ∀ (trades : List SilverTrade) (tickers : List SilverTicker),
      (joinWindows trades tickers).Nodup := by
    intro trades tickers
    exact List.Nodup.of_map _ (joinWindows_keys_nodup trades tickers)
  rw [List.perm_ext_iff_of_nodup (((nodup _ _).filter _).filter _)
    ((nodup _ _).filter _)]
  intro row
  have started : ∀ (grain : Grain) (inside : List SilverTrade)
      (quotes : List SilverTicker),
      (goldRow (joinedOf grain inside quotes)).windowStart = grain.2.2 := by
    intro grain inside quotes
    rw [goldRow_eq]
    rfl
  rw [List.mem_filter, mem_minutes, mem_minutes, decide_eq_true_eq]
  constructor
  · intro minute
    rcases minute with ⟨⟨grain, label, occupied, rfl⟩, starts⟩
    rw [started] at starts
    have sameTrades : tradesIn (trades.filter
        (fun trade => trade.tsEvent < cut)) ("1m", 60) grain =
          tradesIn trades ("1m", 60) grain := inWindow_before whole starts
    have sameTickers : tickersIn (tickers.filter
        (fun ticker => ticker.tsEvent < cut)) ("1m", 60) grain =
          tickersIn tickers ("1m", 60) grain := inWindow_before whole starts
    refine ⟨grain, label, ?_, ?_⟩
    · rw [sameTrades, sameTickers]
      exact occupied
    · rw [sameTrades, sameTickers]
  · intro minute
    rcases minute with ⟨grain, label, occupied, rfl⟩
    have starts : grain.2.2 < cut :=
      occupied.elim (starts_before whole) (starts_before whole)
    have sameTrades : tradesIn (trades.filter
        (fun trade => trade.tsEvent < cut)) ("1m", 60) grain =
          tradesIn trades ("1m", 60) grain := inWindow_before whole starts
    have sameTickers : tickersIn (tickers.filter
        (fun ticker => ticker.tsEvent < cut)) ("1m", 60) grain =
          tickersIn tickers ("1m", 60) grain := inWindow_before whole starts
    rw [sameTrades, sameTickers] at occupied ⊢
    exact ⟨⟨grain, label, occupied, rfl⟩, by rwa [started]⟩

end Gold

section Causal

variable {rows rowsBefore : List GoldRow} {cut : Instant}

private theorem vwapMovingAverage_before
    (keys : (rows.map (fun row => row.key)).Nodup)
    (same : ((rows.filter isMinute).filter
      (fun row => row.windowStart < cut)).Perm (rowsBefore.filter isMinute)) :
    (vwapMovingAverage rows).filter (fun out => out.windowStart < cut) =
      vwapMovingAverage rowsBefore := by
  have distinct := tradedMinutes_nodup keys
  have tradedPart : ∀ table : List GoldRow, table.filter isTradedMinute =
      (table.filter isMinute).filter (fun row => 0 < row.tradeCount) := by
    intro table
    rw [List.filter_filter]
    apply List.filter_congr
    intro row _
    exact Bool.and_comm _ _
  have selected : ((rows.filter isTradedMinute).filter
      (fun row => row.windowStart < cut)).Perm
        (rowsBefore.filter isTradedMinute) := by
    rw [tradedPart, tradedPart, List.filter_filter, List.filter_congr
      (fun _ _ => Bool.and_comm _ _), ← List.filter_filter]
    exact same.filter _
  have ordered := orderBy_filter (symbolAndStart_nodup distinct)
    (fun row => row.windowStart < cut)
  have selectedDistinct :
      (((rows.filter isTradedMinute).filter
        (fun row => row.windowStart < cut)).map symbolAndStart).Nodup :=
    (symbolAndStart_nodup distinct).sublist (List.filter_sublist.map _)
  simp only [vwapMovingAverage]
  rw [List.filter_map, ← orderBy_eq_of_perm selectedDistinct selected,
    ← ordered]
  apply List.map_congr_left
  intro row member
  have before : row.windowStart < cut := by
    simpa [movingAverageRow] using (List.mem_filter.mp member).2
  have upTo : ∀ table : List GoldRow,
      table.filter (fun other => other.windowStart ≤ row.windowStart) =
        (table.filter (fun other => other.windowStart < cut)).filter
          (fun other => other.windowStart ≤ row.windowStart) := by
    intro table
    rw [List.filter_filter]
    apply List.filter_congr
    intro other _
    by_cases below : other.windowStart ≤ row.windowStart
    · simp [below, lt_of_le_of_lt below before]
    · simp [below]
  have allBefore : (rowsBefore.filter isTradedMinute).filter
      (fun other => other.windowStart < cut) =
        rowsBefore.filter isTradedMinute := by
    apply List.filter_eq_self.mpr
    intro other otherMember
    exact (List.mem_filter.mp (selected.mem_iff.mpr otherMember)).2
  have frames : trailingFrame (fun row => row.symbol)
      (fun row => row.windowStart) 2 (rows.filter isTradedMinute) row =
      trailingFrame (fun row => row.symbol) (fun row => row.windowStart) 2
        (rowsBefore.filter isTradedMinute) row := by
    refine trailingFrame_eq_of_agree 2 distinct ?_ (le_refl row.windowStart)
    rw [upTo, upTo (rowsBefore.filter isTradedMinute), allBefore]
    exact selected.filter _
  rw [frames]

end Causal

/-- The query over the whole gold, cut at a whole minute, is the query over the
gold of the bronze rows before the cut: later events change no earlier
average.  Until the year 2242 the doubles of the macro put no event behind the
cut. -/
theorem moving_average_causal {bronze : List BronzeRow} {cut : Instant}
    (early : ∀ row ∈ bronze, row.tsEvent.natAbs < 2 ^ 33 * 10 ^ 6)
    (whole : 60 * microsPerSecond ∣ cut) {gold rows : List GoldRow}
    (built : Double.GoldOf bronze gold) (scanned : rows.Perm gold)
    {goldBefore rowsBefore : List GoldRow}
    (builtBefore : Double.GoldOf (bronzeBefore cut bronze) goldBefore)
    (scannedBefore : rowsBefore.Perm goldBefore) :
    (vwapMovingAverage rows).filter (fun out => out.windowStart < cut) =
      vwapMovingAverage rowsBefore := by
  have read : ∀ row ∈ bronze, epochReading row.tsEvent = row.tsEvent :=
    fun row member => epochReading_eq_self (early row member)
  have readBefore : ∀ row ∈ bronzeBefore cut bronze,
      epochReading row.tsEvent = row.tsEvent :=
    fun row member => read row (List.mem_of_mem_filter member)
  have exactBefore := (goldOf_double readBefore).mp builtBefore
  have exact := (goldOf_double read).mp built
  have keys := exact.keys_nodup scanned
  apply vwapMovingAverage_before keys
  obtain ⟨silver, kept, rfl⟩ := exact
  have rebuilt : GoldOf (bronzeBefore cut bronze)
      (joinWindows (silver.filter (fun trade => trade.tsEvent < cut))
        ((silverTicker bronze).filter (fun ticker => ticker.tsEvent < cut))) :=
    ⟨_, kept.before, by rw [silverTicker_before]⟩
  have sameBefore := goldOf_perm (List.Perm.refl _) rebuilt exactBefore
  exact ((scanned.filter _).filter _).trans
    ((minutes_before_perm whole).trans
      ((sameBefore.trans scannedBefore.symm).filter _))

theorem moving_average_causal_sample :
    (vwapMovingAverage (Double.goldWindowMetrics fourMinutes)).filter
        (fun out => out.windowStart < 120 * microsPerSecond) =
      vwapMovingAverage (Double.goldWindowMetrics
        (bronzeBefore (120 * microsPerSecond) fourMinutes)).reverse :=
  moving_average_causal (by decide) (by decide)
    ⟨_, silverOf_silverTrades _, rfl⟩ (List.Perm.refl _)
    ⟨_, silverOf_silverTrades _, rfl⟩ (List.reverse_perm _)

end TickStream
