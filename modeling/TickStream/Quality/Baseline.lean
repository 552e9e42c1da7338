import Mathlib.Data.Set.Card
import TickStream.Bucketing
import TickStream.Quality.Completeness

/-!
# When the completeness baseline matches gold

The baseline buckets with the doubles of pandas, gold with those of DuckDB.
Both are the exact buckets of readings, which differ from the event times, and
from each other, from the year 2242 on only.
-/

namespace TickStream

open Python Library

namespace Double

/-- The distinct (symbol, bucket) pairs of the valid rows. -/
def distinctBuckets (bronze : List BronzeRow) (secs : Nat) :
    Result (List (String × Int)) := do
  let pairs ← (bronze.filter silverValid).mapM (fun row => do
    let bucket ← bucketSeconds row.tsEvent secs
    return (row.symbol, bucket))
  return pairs.dedup

/-- `_expected_windows_by_symbol`. -/
def expectedWindowsBySymbol (bronze : List BronzeRow) :
    Result (Dict String Nat) := do
  let buckets ← windowSizes.mapM (fun size => distinctBuckets bronze size.2)
  return foldKeyed Prod.fst (fun count _ => count + 1) 0 buckets.flatten

/-- `completeness_by_symbol` of `measure_sla`. -/
def completenessBySymbol (bronze : List BronzeRow) (gold : List GoldRow) :
    Result (List (String × Rat)) := do
  let expected ← expectedWindowsBySymbol bronze
  return expected.entries.map (fun entry =>
    (entry.1,
      roundCents (100 * producedWindows gold entry.1 / (entry.2 : Rat))))

end Double

/-- A row at the instant the baseline reads. -/
def baselineReading (row : BronzeRow) : BronzeRow :=
  { row with tsEvent := carried (floatMicros row.tsEvent) }

/-- The baseline matches gold: for every symbol it counts the windows of gold,
and every symbol is reported complete. -/
def BaselineMatches (bronze : List BronzeRow) : Prop :=
  ∃ expected complete,
    Double.expectedWindowsBySymbol bronze = .ok expected ∧
    (∀ symbol, (expected.get? symbol).getD 0 =
      producedWindows (Double.goldWindowMetrics bronze) symbol) ∧
    Double.completenessBySymbol bronze (Double.goldWindowMetrics bronze) =
      .ok complete ∧
    ∀ entry ∈ complete, entry.2 = 100

/-- Two duplicate-free lists have as many items of a kind exactly when as many
are in the first only as in the second only. -/
private theorem countP_eq_iff_ncard {α : Type} [DecidableEq α]
    {first second : List α}
    (firstDistinct : first.Nodup) (secondDistinct : second.Nodup)
    (kind : α → Prop) [DecidablePred kind] :
    first.countP (fun item => kind item) =
        second.countP (fun item => kind item) ↔
      Set.ncard {item | kind item ∧ item ∈ first ∧ item ∉ second} =
        Set.ncard {item | kind item ∧ item ∈ second ∧ item ∉ first} := by
  have apart : ∀ left right : List α,
      {item | kind item ∧ item ∈ left ∧ item ∉ right} =
        (((left.filter kind).toFinset \ (right.filter kind).toFinset :
          Finset α) : Set α) := by
    intro left right
    ext item
    simp
    tauto
  have counts : ∀ items : List α, items.Nodup →
      items.countP (fun item => kind item) =
        (items.filter kind).toFinset.card := by
    intro items distinct
    rw [List.toFinset_card_of_nodup (distinct.filter _),
      List.countP_eq_length_filter]
  rw [apart, apart, Set.ncard_coe_finset, Set.ncard_coe_finset,
    Finset.card_sdiff_eq_card_sdiff_iff, counts first firstDistinct,
    counts second secondDistinct]

section Baseline

variable {bronze : List BronzeRow}

private theorem silverValid_reading (row : BronzeRow) :
    silverValid (baselineReading row) = silverValid row := rfl

/-- The baseline counts the windows of its readings. -/
theorem expectedWindows_double
    (inRange : ∀ row ∈ bronze, inDatetimeRange row.tsEvent = true) :
    Double.expectedWindowsBySymbol bronze =
      .ok (expectedWindowsBySymbol (bronze.map baselineReading)) := by
  have buckets : ∀ size ∈ windowSizes,
      Double.distinctBuckets bronze size.2 =
        .ok (distinctBuckets (bronze.map baselineReading) size.2) := by
    intro size _
    have pairs : (bronze.filter silverValid).mapM (fun row => do
        let bucket ← Double.bucketSeconds row.tsEvent size.2
        return (row.symbol, bucket)) =
          .ok ((bronze.filter silverValid).map (fun row =>
            (row.symbol, bucketSeconds (baselineReading row).tsEvent
              size.2))) := by
      apply mapM_ok
      intro row member
      rw [bucketSeconds_reads (inRange row (List.mem_of_mem_filter member))]
      rfl
    simp only [Double.distinctBuckets, pairs, distinctBuckets,
      List.filter_map, List.map_map]
    rfl
  simp only [Double.expectedWindowsBySymbol, mapM_ok buckets,
    expectedWindowsBySymbol, List.flatMap_def]
  rfl

/-- Some row silver's filters keep falls into the window, as the baseline reads
it. -/
def BaselineWindow (bronze : List BronzeRow) (grain : Grain) : Prop :=
  ∃ size ∈ windowSizes, ∃ row ∈ bronze, silverValid row = true ∧
    grain = (row.symbol, size.1,
      windowStart (baselineReading row).tsEvent size.2)

/-- Some row silver keeps falls into the window, as the macro reads it. -/
def SilverWindow (bronze : List BronzeRow) (grain : Grain) : Prop :=
  ∃ size ∈ windowSizes,
    (∃ trade ∈ silverTrades bronze, grain = (trade.symbol, size.1,
      windowStart (epochReading trade.tsEvent) size.2)) ∨
    ∃ ticker ∈ silverTicker bronze, grain = (ticker.symbol, size.1,
      windowStart (epochReading ticker.tsEvent) size.2)

/-- For every symbol as many windows are counted that silver does not fill as
are filled without being counted. -/
def WindowsBalance (bronze : List BronzeRow) : Prop :=
  ∀ symbol,
    Set.ncard {grain : Grain | grain.1 = symbol ∧
      BaselineWindow bronze grain ∧ ¬ SilverWindow bronze grain} =
    Set.ncard {grain : Grain | grain.1 = symbol ∧
      SilverWindow bronze grain ∧ ¬ BaselineWindow bronze grain}

private theorem baselineReading_nonneg {row : BronzeRow}
    (afterEpoch : 0 ≤ row.tsEvent)
    (inRange : inDatetimeRange row.tsEvent = true) :
    0 ≤ (baselineReading row).tsEvent := by
  have small := natAbs_lt_of_inDatetimeRange inRange
  have zero := (floatMicros_mono_second small 0).1
  rw [zero_mul] at zero
  exact (zero afterEpoch).trans (le_carried (zero afterEpoch))

private theorem mem_expectedKeys_double
    (afterEpoch : ∀ row ∈ bronze, 0 ≤ row.tsEvent)
    (inRange : ∀ row ∈ bronze, inDatetimeRange row.tsEvent = true)
    {grain : Grain} :
    grain ∈ expectedKeys (bronze.map baselineReading) ↔
      BaselineWindow bronze grain := by
  have nonneg : ∀ row ∈ bronze.map baselineReading, 0 ≤ row.tsEvent := by
    rw [List.forall_mem_map]
    exact fun row member =>
      baselineReading_nonneg (afterEpoch row member) (inRange row member)
  rw [mem_expectedKeys nonneg]
  simp only [BaselineWindow, List.mem_map, exists_exists_and_eq_and,
    silverValid_reading]
  rfl

private theorem mem_goldKeys_double {grain : Grain} :
    grain ∈ (Double.goldWindowMetrics bronze).map (fun row => row.key) ↔
      SilverWindow bronze grain := by
  rw [Double.goldWindowMetrics, mem_goldKeys]
  simp only [List.mem_map, exists_exists_and_eq_and, grainOf, SilverWindow]
  simp only [eq_comm, SilverTrade.reading, SilverTicker.reading]

/-- The counts decide; the percentages follow. -/
theorem baselineMatches_iff
    (inRange : ∀ row ∈ bronze, inDatetimeRange row.tsEvent = true) :
    BaselineMatches bronze ↔ ∀ symbol,
      ((expectedWindowsBySymbol (bronze.map baselineReading)).get?
          symbol).getD 0 =
        producedWindows (Double.goldWindowMetrics bronze) symbol := by
  have expected := expectedWindows_double inRange
  constructor
  · intro matched
    obtain ⟨_, _, counted, same, _⟩ := matched
    cases expected.symm.trans counted
    exact same
  · intro same
    refine ⟨_, _, expected, same, ?_, completeness_hundred same⟩
    rw [Double.completenessBySymbol, expected]
    rfl

/-- Until the year 2242 the doubles read what is there. -/
theorem readings_eq_self (early : ∀ row ∈ bronze, SecondsExact row.tsEvent) :
    bronze.map baselineReading = bronze ∧
      Double.goldWindowMetrics bronze = goldWindowMetrics bronze := by
  have unread : ∀ tsEvent : Instant, SecondsExact tsEvent →
      carried (floatMicros tsEvent) = tsEvent ∧
        epochReading tsEvent = tsEvent := by
    intro tsEvent exact
    have small := exact.natAbs_lt
    have whole : floatMicros tsEvent = tsEvent :=
      floatMicros_eq_self (by omega)
    rw [whole]
    exact ⟨carried_eq_self (by omega), epochReading_eq_self small⟩
  constructor
  · rw [List.map_congr_left, List.map_id]
    intro row member
    rw [baselineReading, (unread row.tsEvent (early row member)).1]
    rfl
  · exact goldWindowMetrics_double
      (fun row member => (unread row.tsEvent (early row member)).2)

/-- The SLA then measures the completeness of the exact buckets. -/
theorem completenessBySymbol_double
    (early : ∀ row ∈ bronze, SecondsExact row.tsEvent)
    (inRange : ∀ row ∈ bronze, inDatetimeRange row.tsEvent = true) :
    Double.completenessBySymbol bronze (Double.goldWindowMetrics bronze) =
      .ok (completenessBySymbol bronze (goldWindowMetrics bronze)) := by
  obtain ⟨rows, gold⟩ := readings_eq_self early
  rw [Double.completenessBySymbol, expectedWindows_double inRange, rows, gold]
  rfl

end Baseline

/-- Before 2242 the baseline matches gold for every symbol, and every symbol is
reported complete, exactly when every trade it counts is covered by a silver
row; later the windows that the doubles shift have to balance as well. -/
theorem completeness_baseline_iff (bronze : List BronzeRow)
    (afterEpoch : ∀ row ∈ bronze, 0 ≤ row.tsEvent)
    (inRange : ∀ row ∈ bronze, inDatetimeRange row.tsEvent = true) :
    (BaselineMatches bronze ↔ WindowsBalance bronze) ∧
      ((∀ row ∈ bronze, SecondsExact row.tsEvent) →
        (BaselineMatches bronze ↔ EveryValidTradeCovered bronze)) := by
  constructor
  · rw [baselineMatches_iff inRange]
    apply forall_congr'
    intro symbol
    have balance := countP_eq_iff_ncard
      (expectedKeys_nodup (bronze.map baselineReading))
      (joinWindows_keys_nodup ((silverTrades bronze).map SilverTrade.reading)
        ((silverTicker bronze).map SilverTicker.reading))
      (fun grain => grain.1 = symbol)
    rw [expectedWindows_eq, producedWindows_eq, Double.goldWindowMetrics,
      balance]
    simp only [mem_expectedKeys_double afterEpoch inRange,
      ← mem_goldKeys_double, Double.goldWindowMetrics]
  · intro early
    obtain ⟨rows, gold⟩ := readings_eq_self early
    rw [baselineMatches_iff inRange, rows, gold]
    exact expectedWindows_match_iff afterEpoch

/-- A trade and a ticker of one minute: its windows are all produced. -/
theorem completeness_baseline_sample :
    BaselineMatches [sampleTrade "a" 10 100 1, sampleTicker 20 1 2] := by
  have covered : EveryValidTradeCovered
      [sampleTrade "a" 10 100 1, sampleTicker 20 1 2] := by
    simp only [EveryValidTradeCovered]
    decide +kernel
  exact ((completeness_baseline_iff
    [sampleTrade "a" 10 100 1, sampleTicker 20 1 2]
    (by decide) (by decide)).2 (by decide)).mpr covered

/-- The copy of a trade redelivered a minute later is counted, but not kept. -/
theorem completeness_repeated_trade :
    let bronze := [sampleTrade "a" 10 100 1, sampleTrade "a" 70 100 1]
    (∃ expected, Double.expectedWindowsBySymbol bronze = .ok expected ∧
      expected.get? "BTC-USD" = some 3) ∧
    producedWindows (Double.goldWindowMetrics bronze) "BTC-USD" = 2 ∧
    Double.completenessBySymbol bronze (Double.goldWindowMetrics bronze) =
      .ok [("BTC-USD", 6667 / 100)] ∧
    ¬ BaselineMatches bronze := by
  intro bronze
  have counted : Double.expectedWindowsBySymbol bronze =
      .ok (expectedWindowsBySymbol (bronze.map baselineReading)) :=
    expectedWindows_double (by decide)
  have three : (expectedWindowsBySymbol (bronze.map baselineReading)).get?
      "BTC-USD" = some 3 := by
    decide +kernel
  have two :
      producedWindows (Double.goldWindowMetrics bronze) "BTC-USD" = 2 := by
    decide +kernel
  refine ⟨⟨_, counted, three⟩, two, ?_, ?_⟩
  · rw [Double.completenessBySymbol, counted]
    decide +kernel
  · rintro ⟨_, _, counts, same, _⟩
    cases counted.symm.trans counts
    have equal := same "BTC-USD"
    rw [three, two] at equal
    cases equal

end TickStream
