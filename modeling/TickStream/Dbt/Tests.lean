import TickStream.Dbt.Gold

/-!
# The dbt tests

Every test returns the rows that offend it; `dbt build` fails unless all of
them return nothing.  A comparison with a null does not offend.  The test that
silver has no trade twice is left out: the dedup keeps one row of each.
-/

namespace TickStream

open Python Library

/-- The values that occur more than once. -/
def notUnique {α : Type} [DecidableEq α] (values : List α) : List α :=
  values.filter (fun value => 1 < values.count value)

theorem notUnique_eq_nil_iff {α : Type} [DecidableEq α] {values : List α} :
    notUnique values = [] ↔ values.Nodup := by
  rw [List.nodup_iff_count_le_one]
  simp only [notUnique]
  rw [List.filter_eq_nil_iff]
  constructor
  · intro once value
    by_cases member : value ∈ values
    · simpa using once value member
    · rw [List.count_eq_zero.mpr member]
      exact Nat.zero_le 1
  · intro once value _
    simpa using once value

def assertGoldEventCount {F : Type} (gold : List (GoldRow F)) :
    List (GoldRow F) :=
  gold.filter (fun row => row.eventCount ≠ row.tradeCount + row.tickerCount)

def assertGoldSpreadNonNegative (gold : List GoldRow) : List GoldRow :=
  gold.filter (fun row =>
    0 < row.tickerCount && row.avgSpread.any (fun spread => spread < 0))

def assertGoldVwapPositive (gold : List GoldRow) : List GoldRow :=
  gold.filter (fun row =>
    0 < row.tradeCount && row.vwap.all (fun vwap => vwap ≤ 0))

/-- The span a window size demands, in seconds. -/
def demandedSpan (windowSize : String) : Option Int :=
  if windowSize = "1m" then some 60
  else if windowSize = "5m" then some 300
  else none

def assertGoldWindowSpan {F : Type} (gold : List (GoldRow F)) :
    List (GoldRow F) :=
  gold.filter (fun row =>
    (demandedSpan row.windowSize).any (fun span =>
      row.windowEnd - row.windowStart ≠ span * microsPerSecond))

/-- Whether a gold row disagrees with the trade metrics recomputed for its
window. -/
def disagrees (row : GoldRow) (window : TradeWindow) : Bool :=
  row.tradeCount ≠ window.tradeCount ||
    window.tradeVolume.any (fun volume =>
      1 / 10 ^ 9 < |row.tradeVolume - volume|) ||
    1 / 10 ^ 6 < |row.vwap.getD 0 - window.vwap.getD 0|

def assertGoldTradeMetricsRecompute (trades : List SilverTrade)
    (gold : List GoldRow) : List GoldRow :=
  gold.filter (fun row =>
    (tradeWindows trades).any (fun window =>
      row.key = window.grain && disagrees row window))

/-- The window sizes `accepted_values` rejects. -/
def unacceptedWindowSizes {F : Type} (gold : List (GoldRow F)) :
    List String :=
  (gold.map (fun row => row.windowSize)).filter
    (fun windowSize => windowSize ∉ ["1m", "5m"])

/-- Every test on the gold table returns nothing.  The `not_null` tests hold
by the row type. -/
structure GoldTestsPass (bronze : List BronzeRow) : Prop where
  windowKeyUnique :
    notUnique ((goldWindowMetrics bronze).map GoldRow.windowKey) = []
  windowSizes : unacceptedWindowSizes (goldWindowMetrics bronze) = []
  eventCount : assertGoldEventCount (goldWindowMetrics bronze) = []
  spreadNonNegative : assertGoldSpreadNonNegative (goldWindowMetrics bronze) = []
  vwapPositive : assertGoldVwapPositive (goldWindowMetrics bronze) = []
  windowSpan : assertGoldWindowSpan (goldWindowMetrics bronze) = []
  recompute : assertGoldTradeMetricsRecompute (silverTrades bronze)
    (goldWindowMetrics bronze) = []

instance (bronze : List BronzeRow) : Decidable (GoldTestsPass bronze) :=
  decidable_of_iff
    (notUnique ((goldWindowMetrics bronze).map GoldRow.windowKey) = [] ∧
      unacceptedWindowSizes (goldWindowMetrics bronze) = [] ∧
      assertGoldEventCount (goldWindowMetrics bronze) = [] ∧
      assertGoldSpreadNonNegative (goldWindowMetrics bronze) = [] ∧
      assertGoldVwapPositive (goldWindowMetrics bronze) = [] ∧
      assertGoldWindowSpan (goldWindowMetrics bronze) = [] ∧
      assertGoldTradeMetricsRecompute (silverTrades bronze)
        (goldWindowMetrics bronze) = [])
    ⟨fun ⟨unique, sizes, count, spread, vwap, span, recompute⟩ =>
        ⟨unique, sizes, count, spread, vwap, span, recompute⟩,
      fun pass => ⟨pass.windowKeyUnique, pass.windowSizes, pass.eventCount,
        pass.spreadNonNegative, pass.vwapPositive, pass.windowSpan,
        pass.recompute⟩⟩

end TickStream
