import TickStream.Dbt.GoldReference
import TickStream.Quality.Sla

/-!
# The windows of the completeness baseline

The baseline counts the windows of the rows silver's filters keep; gold is
built after repeated trades are removed.  Both are described by the set of
their windows, and gold's is contained in the baseline's.
-/

namespace TickStream

open Python Library

theorem silverValid_trade {row : BronzeRow} (kind : row.eventType = .trade) :
    silverValid row = true ↔ ∃ trade, SilverTrade.ofBronze? row = some trade := by
  simp only [silverValid, SilverTrade.ofBronze?]
  rw [kind]
  cases row.price with
  | none => simp
  | some price =>
      cases row.size with
      | none => simp
      | some size =>
          cases row.tradeId with
          | none => simp
          | some tradeId =>
              by_cases positive : 0 < price
              · by_cases nonneg : 0 ≤ size
                · simp [positive, nonneg]
                · simp [positive, nonneg]
              · simp [positive]

theorem silverValid_ticker {row : BronzeRow} (kind : row.eventType = .ticker) :
    silverValid row = true ↔
      ∃ ticker, SilverTicker.ofBronze? row = some ticker := by
  simp only [silverValid, SilverTicker.ofBronze?]
  rw [kind]
  cases row.bestBid with
  | none => simp
  | some bid =>
      cases row.bestAsk with
      | none => simp
      | some ask =>
          by_cases uncrossed : bid ≤ ask
          · simp [uncrossed]
          · simp [uncrossed]

theorem bucketSeconds_eq {tsEvent : Instant} (afterEpoch : 0 ≤ tsEvent)
    (secs : Nat) :
    bucketSeconds tsEvent secs * microsPerSecond = windowStart tsEvent secs := by
  rw [windowStart_eq afterEpoch]
  rfl

/-- The windows the baseline counts. -/
def expectedKeys (bronze : List BronzeRow) : List Grain :=
  windowSizes.flatMap (fun size =>
    (distinctBuckets bronze size.2).map
      (fun pair => (pair.1, size.1, pair.2 * microsPerSecond)))

theorem expectedWindows_eq (bronze : List BronzeRow) (symbol : String) :
    ((expectedWindowsBySymbol bronze).get? symbol).getD 0 =
      (expectedKeys bronze).countP (fun grain => grain.1 = symbol) := by
  have counted : ∀ pairs : List (String × Int), ∀ start : Nat,
      pairs.foldl (fun count _ => count + 1) start = start + pairs.length := by
    intro pairs
    induction pairs with
    | nil => simp
    | cons pair rest induction =>
        intro start
        rw [List.foldl_cons, induction, List.length_cons]
        omega
  simp only [expectedWindowsBySymbol, expectedKeys]
  rw [getD_foldKeyed, counted, Nat.zero_add, itemsAt,
    ← List.countP_eq_length_filter, List.countP_flatMap, List.countP_flatMap]
  congr 1
  apply List.map_congr_left
  intro size _
  simp only [Function.comp_apply, List.countP_map]
  rfl

theorem expectedKeys_nodup (bronze : List BronzeRow) :
    (expectedKeys bronze).Nodup := by
  rw [← List.map_id (expectedKeys bronze)]
  apply windowSizes_keys_nodup id (fun grain => grain.2.1)
  · intro size
    rw [List.map_id]
    apply List.Nodup.map
    · intro left right same
      simp only [Prod.mk.injEq, true_and] at same
      exact Prod.ext same.1
        (Int.eq_of_mul_eq_mul_right microsPerSecond_ne_zero same.2)
    · exact List.nodup_dedup _
  · intro size grain member
    obtain ⟨pair, _, same⟩ := List.mem_map.mp member
    rw [← same]
    rfl

theorem mem_expectedKeys {bronze : List BronzeRow}
    (afterEpoch : ∀ row ∈ bronze, 0 ≤ row.tsEvent) {grain : Grain} :
    grain ∈ expectedKeys bronze ↔
      ∃ size ∈ windowSizes, ∃ row ∈ bronze, silverValid row = true ∧
        grain = (row.symbol, size.1, windowStart row.tsEvent size.2) := by
  simp only [expectedKeys, distinctBuckets, List.mem_flatMap, List.mem_map,
    List.mem_dedup, List.mem_filter]
  constructor
  · intro counted
    rcases counted with ⟨size, sizeMember, _, ⟨row, ⟨member, valid⟩, rfl⟩, rfl⟩
    refine ⟨size, sizeMember, row, member, valid, ?_⟩
    rw [bucketSeconds_eq (afterEpoch row member)]
  · intro valid
    rcases valid with ⟨size, sizeMember, row, member, valid, rfl⟩
    refine ⟨size, sizeMember, _, ⟨row, ⟨member, valid⟩, rfl⟩, ?_⟩
    rw [bucketSeconds_eq (afterEpoch row member)]

theorem mem_goldKeys {trades : List SilverTrade}
    {tickers : List SilverTicker} {grain : Grain} :
    grain ∈ (joinWindows trades tickers).map (fun row => row.key) ↔
      ∃ size ∈ windowSizes,
        (∃ trade ∈ trades, grainOf SilverTrade.symbol SilverTrade.tsEvent
          size trade = grain) ∨
        (∃ ticker ∈ tickers, grainOf SilverTicker.symbol SilverTicker.tsEvent
          size ticker = grain) := by
  have occupied : ∀ size grain,
      (tradesIn trades size grain ≠ [] ∨ tickersIn tickers size grain ≠ []) ↔
        (∃ trade ∈ trades, grainOf SilverTrade.symbol SilverTrade.tsEvent
          size trade = grain) ∨
        (∃ ticker ∈ tickers, grainOf SilverTicker.symbol SilverTicker.tsEvent
          size ticker = grain) := by
    intro size grain
    simp only [tradesIn, tickersIn, ne_eq, List.eq_nil_iff_forall_not_mem,
      mem_inWindow, not_forall, not_not]
  simp only [List.mem_map, ← occupied]
  constructor
  · intro inSilver
    rcases inSilver with ⟨row, member, rfl⟩
    obtain ⟨size, sizeMember, grain, present, metrics⟩ :=
      joinWindows_metrics member
    refine ⟨size, sizeMember, ?_⟩
    rw [metrics]
    exact present
  · intro occupied
    rcases occupied with ⟨size, sizeMember, present⟩
    refine ⟨_, mem_joinWindows.mpr ⟨size, sizeMember, grain, present, rfl⟩, ?_⟩
    rw [goldRow_metrics]
    rfl

theorem producedWindows_eq (gold : List GoldRow) (symbol : String) :
    producedWindows gold symbol =
      (gold.map (fun row => row.key)).countP
        (fun grain => grain.1 = symbol) := by
  simp only [producedWindows]
  rw [List.countP_map]
  rfl

/-- Two duplicate-free lists of windows, one inside the other, have the same
number of windows for every symbol exactly when they have the same windows. -/
private theorem countP_symbols_iff {inner outer : List Grain}
    (innerDistinct : inner.Nodup)
    (outerDistinct : outer.Nodup) (inside : inner ⊆ outer) :
    (∀ symbol, outer.countP (fun grain => grain.1 = symbol) =
      inner.countP (fun grain => grain.1 = symbol)) ↔ outer ⊆ inner := by
  constructor
  · intro counts grain member
    have sub : (inner.filter (fun other => other.1 = grain.1)).Subperm
        (outer.filter (fun other => other.1 = grain.1)) :=
      List.subperm_of_subset (innerDistinct.filter _) (by
        intro other otherMember
        obtain ⟨otherInner, sameSymbol⟩ := List.mem_filter.mp otherMember
        exact List.mem_filter.mpr ⟨inside otherInner, sameSymbol⟩)
    have lengths : (outer.filter (fun other => other.1 = grain.1)).length ≤
        (inner.filter (fun other => other.1 = grain.1)).length := by
      rw [← List.countP_eq_length_filter, ← List.countP_eq_length_filter,
        counts grain.1]
    have same := sub.perm_of_length_le lengths
    have present := same.mem_iff.mpr
      (List.mem_filter.mpr ⟨member, by simp⟩)
    exact (List.mem_filter.mp present).1
  · intro outside symbol
    have same : outer.Perm inner :=
      (List.perm_ext_iff_of_nodup outerDistinct innerDistinct).mpr
        (fun grain => ⟨fun member => outside member,
          fun member => inside member⟩)
    exact same.countP_eq _

/-- Every trade the baseline counts shares its minute with a silver row of its
symbol. -/
def EveryValidTradeCovered (bronze : List BronzeRow) : Prop :=
  ∀ trade ∈ validTrades bronze,
    (∃ kept ∈ silverTrades bronze, kept.symbol = trade.symbol ∧
      windowStart kept.tsEvent 60 = windowStart trade.tsEvent 60) ∨
    (∃ ticker ∈ silverTicker bronze, ticker.symbol = trade.symbol ∧
      windowStart ticker.tsEvent 60 = windowStart trade.tsEvent 60)

section Baseline

variable {bronze : List BronzeRow}
  (afterEpoch : ∀ row ∈ bronze, 0 ≤ row.tsEvent)

include afterEpoch

/-- Gold has no window the baseline does not count. -/
private theorem goldKeys_subset :
    (goldWindowMetrics bronze).map (fun row => row.key) ⊆
      expectedKeys bronze := by
  intro grain member
  obtain ⟨size, sizeMember, present⟩ := mem_goldKeys.mp member
  rw [mem_expectedKeys afterEpoch]
  rcases present with ⟨trade, tradeMember, rfl⟩ | ⟨ticker, tickerMember, rfl⟩
  · obtain ⟨row, rowMember, kept⟩ :=
      mem_validTrades.mp (silverTrades_subset tradeMember)
    obtain ⟨kind, _, symbol, _, _, _, _, time, _⟩ :=
      SilverTrade.ofBronze?_eq_some kept
    refine ⟨size, sizeMember, row, rowMember,
      (silverValid_trade kind).mpr ⟨trade, kept⟩, ?_⟩
    rw [symbol, time]
    rfl
  · obtain ⟨row, rowMember, kept⟩ := mem_silverTicker.mp tickerMember
    obtain ⟨kind, _, symbol, _, _, time, _⟩ :=
      SilverTicker.ofBronze?_eq_some kept
    refine ⟨size, sizeMember, row, rowMember,
      (silverValid_ticker kind).mpr ⟨ticker, kept⟩, ?_⟩
    rw [symbol, time]
    rfl

/-- The baseline has no other window exactly when its trades are covered. -/
private theorem expectedKeys_subset_iff :
    expectedKeys bronze ⊆
        (goldWindowMetrics bronze).map (fun row => row.key) ↔
      EveryValidTradeCovered bronze := by
  constructor
  · intro inside trade member
    obtain ⟨row, rowMember, kept⟩ := mem_validTrades.mp member
    obtain ⟨kind, _, symbol, _, _, _, _, time, _⟩ :=
      SilverTrade.ofBronze?_eq_some kept
    have expected : (trade.symbol, "1m", windowStart trade.tsEvent 60) ∈
        expectedKeys bronze := by
      rw [mem_expectedKeys afterEpoch]
      refine ⟨("1m", 60), by decide, row, rowMember,
        (silverValid_trade kind).mpr ⟨trade, kept⟩, ?_⟩
      rw [symbol, time]
    obtain ⟨size, sizeMember, present⟩ := mem_goldKeys.mp (inside expected)
    have minute : ∀ symbol tsEvent,
        ((symbol, size.1, windowStart tsEvent size.2) : Grain) =
            (trade.symbol, "1m", windowStart trade.tsEvent 60) →
          symbol = trade.symbol ∧
            windowStart tsEvent 60 = windowStart trade.tsEvent 60 := by
      intro symbol tsEvent same
      simp only [Prod.mk.injEq] at same
      have sameSize : size = ("1m", 60) :=
        size_of_label sizeMember (by decide) same.2.1
      subst sameSize
      exact ⟨same.1, same.2.2⟩
    rcases present with ⟨other, otherMember, same⟩ |
      ⟨ticker, tickerMember, same⟩
    · exact Or.inl ⟨other, otherMember, minute _ _ same⟩
    · exact Or.inr ⟨ticker, tickerMember, minute _ _ same⟩
  · intro covered grain member
    rw [mem_expectedKeys afterEpoch] at member
    obtain ⟨size, sizeMember, row, rowMember, valid, same⟩ := member
    rw [same]
    refine mem_goldKeys.mpr ⟨size, sizeMember, ?_⟩
    cases kind : row.eventType with
    | trade =>
        obtain ⟨trade, kept⟩ := (silverValid_trade kind).mp valid
        obtain ⟨_, _, symbol, _, _, _, _, time, _⟩ :=
          SilverTrade.ofBronze?_eq_some kept
        rcases covered trade (mem_validTrades.mpr ⟨row, rowMember, kept⟩) with
          ⟨other, otherMember, sameSymbol, sameMinute⟩ |
          ⟨ticker, tickerMember, sameSymbol, sameMinute⟩
        · refine Or.inl ⟨other, otherMember, ?_⟩
          simp only [grainOf]
          rw [sameSymbol, windowStart_of_minute sameMinute sizeMember, symbol,
            time]
        · refine Or.inr ⟨ticker, tickerMember, ?_⟩
          simp only [grainOf]
          rw [sameSymbol, windowStart_of_minute sameMinute sizeMember, symbol,
            time]
    | ticker =>
        obtain ⟨ticker, kept⟩ := (silverValid_ticker kind).mp valid
        obtain ⟨_, _, symbol, _, _, time, _⟩ :=
          SilverTicker.ofBronze?_eq_some kept
        refine Or.inr ⟨ticker, mem_silverTicker.mpr ⟨row, rowMember, kept⟩, ?_⟩
        simp only [grainOf]
        rw [symbol, time]

end Baseline

private theorem roundCents_hundred : roundCents 100 = 100 := by decide +kernel

/-- Counts that agree are reported as complete. -/
theorem completeness_hundred {bronze : List BronzeRow} {gold : List GoldRow}
    (counts : ∀ symbol,
      ((expectedWindowsBySymbol bronze).get? symbol).getD 0 =
        producedWindows gold symbol) :
    ∀ entry ∈ completenessBySymbol bronze gold, entry.2 = 100 := by
  intro entry member
  simp only [completenessBySymbol] at member
  obtain ⟨⟨symbol, expected⟩, bound, rfl⟩ := List.mem_map.mp member
  have positive : 0 < expected := by
    refine foldKeyed_value _ _ _ ?_ ?_ bound
    · intro _ _
      exact Nat.succ_pos _
    · intro _ _ _ _
      exact Nat.succ_pos _
  have lookup := (Dict.get?_eq_some_iff _).mpr bound
  have produced : producedWindows gold symbol = expected := by
    rw [← counts symbol, lookup, Option.getD_some]
  have nonzero : (expected : Rat) ≠ 0 := by
    exact_mod_cast Nat.pos_iff_ne_zero.mp positive
  change roundCents (100 * producedWindows gold symbol / expected) = 100
  rw [produced, mul_div_assoc, div_self nonzero, mul_one, roundCents_hundred]

/-- In exact time the baseline matches gold for every symbol exactly when every
trade it counts is covered by a silver row. -/
theorem expectedWindows_match_iff {bronze : List BronzeRow}
    (afterEpoch : ∀ row ∈ bronze, 0 ≤ row.tsEvent) :
    (∀ symbol, ((expectedWindowsBySymbol bronze).get? symbol).getD 0 =
        producedWindows (goldWindowMetrics bronze) symbol) ↔
      EveryValidTradeCovered bronze := by
  simp only [expectedWindows_eq, producedWindows_eq, goldWindowMetrics]
  rw [countP_symbols_iff (joinWindows_keys_nodup _ _)
    (expectedKeys_nodup bronze) (goldKeys_subset afterEpoch)]
  exact expectedKeys_subset_iff afterEpoch

end TickStream
