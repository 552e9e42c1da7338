import TickStream.Dbt.GoldReference
import TickStream.Processing.Refinement
import TickStream.Producer.Offers

/-!
# When streaming and batch agree

The processor folds every trade it receives; gold only has the trades that
carry an id and come first among the repeats of their id.  For a window the
processor has closed, the two agree exactly when no trade of the window is
left out.
-/

namespace TickStream

open Python Library

/-- What is known of a published trade: positive price and non-negative size,
unless a non-finite number became null. -/
structure TradeRecord (record : MarketEvent Rat) : Prop where
  kind : record.eventType = .trade
  price : ∀ value, record.price = some value → 0 < value
  size : ∀ value, record.size = some value → 0 ≤ value

/-- Folding a valid record is folding its silver trade. -/
private theorem add_ofBronze {record : MarketEvent Rat} {trade : SilverTrade}
    (kept : SilverTrade.ofBronze? record = some trade) (acc : Acc Rat) :
    acc.add record = acc.add trade.toEvent := by
  obtain ⟨kind, _, _, _, price, size, _⟩ := SilverTrade.ofBronze?_eq_some kept
  simp only [Acc.add]
  simp [kind, price, size, SilverTrade.toEvent]

/-- Records that are all valid accumulate like their silver trades. -/
private theorem foldl_add_records {records : List (MarketEvent Rat)}
    (complete : (records.filterMap SilverTrade.ofBronze?).length =
      records.length) (acc : Acc Rat) :
    records.foldl Acc.add acc =
      ((records.filterMap SilverTrade.ofBronze?).map
        SilverTrade.toEvent).foldl Acc.add acc := by
  induction records generalizing acc with
  | nil => rfl
  | cons record rest induction =>
      cases kept : SilverTrade.ofBronze? record with
      | none =>
          have shorter := List.length_filterMap_le SilverTrade.ofBronze? rest
          simp only [List.filterMap_cons, kept, List.length_cons] at complete
          omega
      | some trade =>
          simp only [List.filterMap_cons, kept, List.length_cons,
            Nat.add_right_cancel_iff] at complete
          simp only [List.foldl_cons, List.filterMap_cons, kept, List.map_cons]
          rw [induction complete, add_ofBronze kept]

theorem filterMap_length_eq_iff {records : List (MarketEvent Rat)} :
    (records.filterMap SilverTrade.ofBronze?).length = records.length ↔
      ∀ record ∈ records, ∃ trade,
        SilverTrade.ofBronze? record = some trade := by
  induction records with
  | nil => simp
  | cons record rest induction =>
      cases kept : SilverTrade.ofBronze? record with
      | none =>
          have shorter := List.length_filterMap_le SilverTrade.ofBronze? rest
          simp only [List.filterMap_cons, kept, List.length_cons]
          constructor
          · omega
          · intro all
            obtain ⟨trade, found⟩ := all record (by simp)
            rw [kept] at found
            cases found
      | some trade =>
          simp [kept, induction]

/-- The valid trades that repeat a trade's id for its symbol and sort no later
than it, the trade itself included. -/
def rivals (bronze : List BronzeRow) (trade : SilverTrade) :
    List SilverTrade :=
  (validTrades bronze).filter (fun other =>
    other.partition = trade.partition ∧ other.precedes trade)

section Survival

variable {bronze : List BronzeRow} {trade : SilverTrade}

/-- The surviving row sorts before every row of its partition. -/
theorem silverTrades_first (kept : trade ∈ silverTrades bronze)
    {other : SilverTrade} (member : other ∈ validTrades bronze)
    (same : other.partition = trade.partition) : trade.precedes other :=
  (rowNumberOne_keepsFirst _ _ (validTrades bronze)).least trade kept other
    member same

/-- A trade without a rival survives. -/
private theorem silverTrades_of_rivals (member : trade ∈ validTrades bronze)
    (alone : rivals bronze trade = [trade]) : trade ∈ silverTrades bronze := by
  obtain ⟨first, kept, same⟩ := exists_rowNumberOne SilverTrade.partition
    SilverTrade.precedes member
  have sorted := silverTrades_first kept member same.symm
  have rival : first ∈ rivals bronze trade := by
    simp only [rivals]
    rw [List.mem_filter]
    exact ⟨silverTrades_subset kept, by simpa using ⟨same, sorted⟩⟩
  rw [alone, List.mem_singleton] at rival
  rw [← rival]
  exact kept

private theorem mem_rivals_self (member : trade ∈ validTrades bronze) :
    trade ∈ rivals bronze trade := by
  simp only [rivals]
  rw [List.mem_filter]
  exact ⟨member, by simp⟩

private theorem count_validTrades_le_rivals (bronze : List BronzeRow)
    (trade : SilverTrade) :
    (validTrades bronze).count trade ≤ (rivals bronze trade).count trade := by
  simp only [rivals]
  rw [List.count_filter]
  simp

end Survival

section Window

variable {bronze : List BronzeRow}

/-- Bronze rows of one reference bucket. -/
def recordsIn (bronze : List BronzeRow) (size : String × Nat)
    (selected : String × Instant) : List BronzeRow :=
  itemsAt (bucket size.2) bronze selected

/-- The valid trades of a window are the valid ones of its records. -/
theorem validTrades_in_window
    (afterEpoch : ∀ row ∈ bronze, 0 ≤ row.tsEvent) (size : String × Nat)
    (selected : String × Instant) :
    tradesIn (validTrades bronze) size (selected.1, size.1, selected.2) =
      (recordsIn bronze size selected).filterMap SilverTrade.ofBronze? := by
  induction bronze with
  | nil => rfl
  | cons row rest induction =>
      have tail := induction
        (fun other member => afterEpoch other (by simp [member]))
      simp only [tradesIn, inWindow, recordsIn, itemsAt, validTrades] at tail ⊢
      cases kept : SilverTrade.ofBronze? row with
      | none =>
          by_cases inside : bucket size.2 row = selected
          · simp [kept, inside, tail]
          · simp [kept, inside, tail]
      | some trade =>
          obtain ⟨_, _, symbol, _, _, _, _, time, _⟩ :=
            SilverTrade.ofBronze?_eq_some kept
          have start := windowStart_eq (afterEpoch row (by simp)) size.2
          have sameWindow : grainOf SilverTrade.symbol SilverTrade.tsEvent size
              trade = (selected.1, size.1, selected.2) ↔
                bucket size.2 row = selected := by
            simp [grainOf, bucket, ← symbol, ← time, start, Prod.ext_iff]
          by_cases inside : bucket size.2 row = selected
          · simp [kept, inside, sameWindow, tail]
          · simp [kept, inside, sameWindow, tail]

/-- Gold's trades of a window are among its valid trades. -/
theorem silver_subperm_valid (bronze : List BronzeRow)
    (size : String × Nat) (grain : Grain) :
    (tradesIn (silverTrades bronze) size grain).Subperm
      (tradesIn (validTrades bronze) size grain) := by
  apply List.subperm_of_subset
  · exact (rowNumberOne_nodup _ _ _).filter _
  · intro trade member
    obtain ⟨kept, inside⟩ := mem_inWindow.mp member
    exact mem_inWindow.mpr ⟨silverTrades_subset kept, inside⟩

/-- No trade of the window is left out by the batch path. -/
def WindowKept (bronze : List BronzeRow) (size : String × Nat)
    (selected : String × Instant) : Prop :=
  ∀ record ∈ recordsIn bronze size selected, ∃ trade,
    SilverTrade.ofBronze? record = some trade ∧ rivals bronze trade = [trade]

/-- A surviving trade has no rival outside its own window. -/
private theorem rival_of_survivor {trade other : SilverTrade}
    (kept : trade ∈ silverTrades bronze) (rival : other ∈ rivals bronze trade) :
    other ∈ validTrades bronze ∧ other.partition = trade.partition ∧
      other.symbol = trade.symbol ∧ other.tsEvent = trade.tsEvent := by
  simp only [rivals] at rival
  rw [List.mem_filter, decide_eq_true_eq] at rival
  obtain ⟨member, samePartition, earlier⟩ := rival
  have later := silverTrades_first kept member samePartition
  have sameOrder : other.orderKey = trade.orderKey := le_antisymm earlier later
  have sameTime : other.tsEvent = trade.tsEvent :=
    congrArg (fun key => (ofLex key).1) sameOrder
  exact ⟨member, samePartition, congrArg Prod.fst samePartition, sameTime⟩

/-- When gold keeps every valid trade of a window, none of them has a
rival. -/
private theorem rivals_eq_singleton {size : String × Nat} {grain : Grain}
    (same : (tradesIn (silverTrades bronze) size grain).Perm
      (tradesIn (validTrades bronze) size grain))
    {trade : SilverTrade}
    (member : trade ∈ tradesIn (validTrades bronze) size grain) :
    rivals bronze trade = [trade] := by
  obtain ⟨valid, inside⟩ := mem_inWindow.mp member
  have kept : trade ∈ silverTrades bronze :=
    (mem_inWindow.mp (same.mem_iff.mpr member)).1
  have only : ∀ other ∈ rivals bronze trade, other = trade := by
    intro other rival
    obtain ⟨otherValid, samePartition, sameSymbol, sameTime⟩ :=
      rival_of_survivor kept rival
    have otherInside : grainOf SilverTrade.symbol SilverTrade.tsEvent size
        other = grain := by
      rw [← inside]
      simp only [grainOf]
      rw [sameSymbol, sameTime]
    have otherKept : other ∈ silverTrades bronze :=
      (mem_inWindow.mp (same.mem_iff.mpr
        (mem_inWindow.mpr ⟨otherValid, otherInside⟩))).1
    exact List.inj_on_of_nodup_map (rowNumberOne_keys_nodup _ _ _) otherKept
      kept samePartition
  have copies := List.eq_replicate_of_mem only
  have once : (rivals bronze trade).count trade ≤ 1 := by
    have fewer : (rivals bronze trade).count trade ≤
        (validTrades bronze).count trade :=
      (List.filter_sublist).count_le trade
    have windowed : (tradesIn (validTrades bronze) size grain).count trade =
        (validTrades bronze).count trade := by
      simp only [tradesIn, inWindow, itemsAt]
      rw [List.count_filter (by simpa using inside)]
    have distinct : (tradesIn (silverTrades bronze) size grain).Nodup :=
      (rowNumberOne_nodup _ _ _).filter _
    have silverOnce := List.nodup_iff_count_le_one.mp distinct trade
    rw [same.count_eq, windowed] at silverOnce
    omega
  have some := List.length_pos_of_mem (mem_rivals_self valid)
  rw [copies, List.count_replicate_self] at once
  have single : (rivals bronze trade).length = 1 := by omega
  rw [copies, single]
  rfl

/-- Trades without rivals are distinct. -/
private theorem validTrades_nodup {size : String × Nat} {grain : Grain}
    (alone : ∀ trade ∈ tradesIn (validTrades bronze) size grain,
      rivals bronze trade = [trade]) :
    (tradesIn (validTrades bronze) size grain).Nodup := by
  rw [List.nodup_iff_count_le_one]
  intro trade
  by_cases member : trade ∈ tradesIn (validTrades bronze) size grain
  · have windowed : (tradesIn (validTrades bronze) size grain).count trade ≤
        (validTrades bronze).count trade :=
      (List.filter_sublist).count_le trade
    have bounded := count_validTrades_le_rivals bronze trade
    rw [alone trade member, List.count_singleton_self] at bounded
    omega
  · rw [List.count_eq_zero.mpr member]
    exact Nat.zero_le 1

/-- Gold has all the trades of a window exactly when none is left out. -/
private theorem silver_length_iff (afterEpoch : ∀ row ∈ bronze, 0 ≤ row.tsEvent)
    (size : String × Nat) (selected : String × Instant) :
    (tradesIn (silverTrades bronze) size
        (selected.1, size.1, selected.2)).length =
      (recordsIn bronze size selected).length ↔
        WindowKept bronze size selected := by
  have valid := validTrades_in_window afterEpoch size selected
  have sub := silver_subperm_valid bronze size
    (selected.1, size.1, selected.2)
  have fewer := sub.length_le
  have shorter := List.length_filterMap_le SilverTrade.ofBronze?
    (recordsIn bronze size selected)
  rw [← valid] at shorter
  constructor
  · intro lengths record member
    have same := sub.perm_of_length_le (by omega)
    have complete : ((recordsIn bronze size selected).filterMap
        SilverTrade.ofBronze?).length =
          (recordsIn bronze size selected).length := by
      rw [← valid]
      omega
    obtain ⟨trade, kept⟩ := filterMap_length_eq_iff.mp complete record member
    refine ⟨trade, kept, rivals_eq_singleton same ?_⟩
    rw [valid]
    exact List.mem_filterMap.mpr ⟨record, member, kept⟩
  · intro all
    have complete : (tradesIn (validTrades bronze) size
        (selected.1, size.1, selected.2)).length =
          (recordsIn bronze size selected).length := by
      rw [valid, filterMap_length_eq_iff]
      intro record member
      obtain ⟨trade, kept, _⟩ := all record member
      exact ⟨trade, kept⟩
    have alone : ∀ trade ∈ tradesIn (validTrades bronze) size
        (selected.1, size.1, selected.2), rivals bronze trade = [trade] := by
      intro trade member
      rw [valid] at member
      obtain ⟨record, recordMember, kept⟩ := List.mem_filterMap.mp member
      obtain ⟨other, otherKept, single⟩ := all record recordMember
      rw [kept] at otherKept
      cases otherKept
      exact single
    have distinct := validTrades_nodup alone
    have back : (tradesIn (validTrades bronze) size
        (selected.1, size.1, selected.2)).Subperm
          (tradesIn (silverTrades bronze) size
            (selected.1, size.1, selected.2)) := by
      apply List.subperm_of_subset distinct
      intro trade member
      obtain ⟨tradeValid, inside⟩ := mem_inWindow.mp member
      exact mem_inWindow.mpr
        ⟨silverTrades_of_rivals tradeValid (alone trade member), inside⟩
    have most := back.length_le
    omega

end Window

/-- Every processed trade in a closed window carries a trade id, and no other
valid trade with its symbol and id sorts before it or level with it. -/
def EveryClosedTradeKept (graceSeconds : Nat)
    (records : List (MarketEvent Rat)) (bronze : List BronzeRow) : Prop :=
  ∀ size ∈ windowSizes, ∀ record ∈ processedTrades records,
    ClosedFor (processedTrades records) graceSeconds size record →
      ∃ trade, SilverTrade.ofBronze? record = some trade ∧
        rivals bronze trade = [trade]

/-- No record is late for any window size. -/
def NoneLate (graceSeconds : Nat) (records : List (MarketEvent Rat)) : Prop :=
  ∀ size ∈ windowSizes, withoutLate size.2 graceSeconds records = records

section Closed

variable {records : List (MarketEvent Rat)} {bronze : List BronzeRow}
  {graceSeconds : Nat} {size : String × Nat}

theorem NoneLate.processed (noneLate : NoneLate graceSeconds records)
    (sizeMember : size ∈ windowSizes) :
    withoutLate size.2 graceSeconds (processedTrades records) =
      processedTrades records := by
  obtain ⟨rest, split⟩ := processedTrades_initial records
  have kept := noneLate size sizeMember
  rw [← split] at kept
  exact WindowedFold.onTime_of_append _ kept

/-- A record of a closed window cannot come after the processed ones: it would
be late. -/
private theorem closed_records_processed
    (noneLate : NoneLate graceSeconds records)
    (afterEpoch : ∀ record ∈ records, 0 ≤ record.tsEvent)
    (sizeMember : size ∈ windowSizes) {record : MarketEvent Rat}
    (closed : ClosedFor (processedTrades records) graceSeconds size record) :
    (itemsAt (bucket size.2) records (bucket size.2 record)) =
      itemsAt (bucket size.2) (processedTrades records)
        (bucket size.2 record) := by
  obtain ⟨rest, split⟩ := processedTrades_initial records
  rw [← split] at afterEpoch
  have same := itemsAt_withoutLate_of_closed afterEpoch closed
  rwa [split, noneLate size sizeMember, noneLate.processed sizeMember] at same

/-- The trades a reference accumulator has counted. -/
theorem foldl_add_count {items : List (MarketEvent Rat)}
    (complete : ∀ item ∈ items, item.eventType = .trade ∧
      item.price.isSome = true ∧ item.size.isSome = true) (acc : Acc Rat) :
    (items.foldl Acc.add acc).trades = acc.trades + items.length := by
  induction items generalizing acc with
  | nil => rfl
  | cons item rest induction =>
      obtain ⟨kind, price, size⟩ := complete item (by simp)
      obtain ⟨priceValue, hasPrice⟩ := Option.isSome_iff_exists.mp price
      obtain ⟨sizeValue, hasSize⟩ := Option.isSome_iff_exists.mp size
      have counted : (acc.add item).trades = acc.trades + 1 := by
        simp [Acc.add, kind, hasPrice, hasSize]
      rw [List.foldl_cons, induction (fun other member =>
        complete other (by simp [member])), counted, List.length_cons]
      omega

end Closed

/-- Gold has a row for an emitted window, with the same trade metrics. -/
def InGold (bronze : List BronzeRow) (metrics : WindowMetrics Rat) : Prop :=
  ∃ row ∈ goldWindowMetrics bronze, row.key = metrics.key ∧
    row.vwap = metrics.vwap ∧ row.tradeVolume = metrics.tradeVolume ∧
      row.tradeCount = metrics.tradeCount

private theorem inGold_iff {bronze : List BronzeRow}
    (afterEpoch : ∀ row ∈ bronze, 0 ≤ row.tsEvent) {size : String × Nat}
    (sizeMember : size ∈ windowSizes) {selected : String × Instant}
    {items : List (MarketEvent Rat)}
    (same : items.Perm (recordsIn bronze size selected))
    (occupied : items ≠ [])
    (complete : ∀ item ∈ items, item.eventType = .trade ∧
      item.price.isSome = true ∧ item.size.isSome = true) :
    InGold bronze (windowRow size.2 size.1
        (selected, items.foldl Acc.add Acc.empty)) ↔
      WindowKept bronze size selected := by
  have counted := foldl_add_count complete Acc.empty
  have grainKey : (windowRow size.2 size.1
      (selected, items.foldl Acc.add Acc.empty)).key =
        ((selected.1, size.1, selected.2) : Grain) := rfl
  rw [← silver_length_iff afterEpoch]
  constructor
  · intro matched
    rcases matched with ⟨row, member, sameKey, _, _, sameCount⟩
    obtain ⟨other, otherMember, grain, present, metrics⟩ :=
      joinWindows_metrics member
    have sameGrain : grain = (selected.1, size.1, selected.2) := by
      rw [metrics, grainKey] at sameKey
      exact sameKey
    have label : grain.2.1 = other.1 :=
      present.elim tradesIn_grain tickersIn_grain
    have sameSize : other = size := size_of_label otherMember sizeMember
      (by rw [← label, sameGrain])
    subst sameSize
    rw [metrics, sameGrain] at sameCount
    rw [← same.length_eq]
    change (tradesIn (silverTrades bronze) other
      (selected.1, other.1, selected.2)).length =
        (items.foldl Acc.add Acc.empty).trades at sameCount
    rw [sameCount, counted]
    exact Nat.zero_add _
  · intro lengths
    have someTrades : tradesIn (silverTrades bronze) size
        (selected.1, size.1, selected.2) ≠ [] := by
      intro empty
      rw [empty, ← same.length_eq] at lengths
      exact occupied (List.length_eq_zero_iff.mp lengths.symm)
    have valid := validTrades_in_window afterEpoch size selected
    have shorter := List.length_filterMap_le SilverTrade.ofBronze?
      (recordsIn bronze size selected)
    have sub := silver_subperm_valid bronze size
      (selected.1, size.1, selected.2)
    have fewer := sub.length_le
    rw [valid] at fewer
    have trades := sub.perm_of_length_le (by rw [valid]; omega)
    have accumulated : items.foldl Acc.add Acc.empty =
        accOf (tradesIn (silverTrades bronze) size
          (selected.1, size.1, selected.2)) [] := by
      rw [same.foldl_eq, foldl_add_records (by omega), ← valid]
      apply foldl_add_silver
      simpa using (trades.symm.map SilverTrade.toEvent)
    refine ⟨_, mem_joinWindows.mpr ⟨size, sizeMember,
      (selected.1, size.1, selected.2), Or.inl someTrades, rfl⟩, ?_⟩
    rw [goldRow_metrics, grainKey, goldMetrics_key, accumulated]
    exact ⟨rfl, goldMetrics_vwap _ _ _ size selected, rfl, rfl⟩

/-- The closed windows of the reference, one for every closed bucket. -/
theorem mem_referenceWindows {processed : List (MarketEvent Rat)}
    {graceSeconds : Nat}
    (kept : ∀ size ∈ windowSizes,
      withoutLate size.2 graceSeconds processed = processed)
    {metrics : WindowMetrics Rat} :
    metrics ∈ Topic.referenceWindows graceSeconds processed ↔
      ∃ size ∈ windowSizes, ∃ record ∈ processed,
        ClosedFor processed graceSeconds size record ∧
          metrics = windowRow size.2 size.1 (bucket size.2 record,
            (itemsAt (bucket size.2) processed
              (bucket size.2 record)).foldl Acc.add Acc.empty) := by
  rw [Topic.mem_referenceWindows_iff]
  apply exists_congr
  intro size
  apply and_congr_right
  intro sizeMember
  rw [kept size sizeMember]

theorem windows_agree_iff (records : List (MarketEvent Rat))
    (trades : ∀ record ∈ records, TradeRecord record)
    (afterEpoch : ∀ record ∈ records, 0 ≤ record.tsEvent)
    (graceSeconds : Nat) (noneLate : NoneLate graceSeconds records)
    (bronze : List BronzeRow) (landed : bronze.Perm records) :
    (∀ record ∈ (tradesTopic.run graceSeconds records).emitted,
      InGold bronze record.metrics) ↔
        EveryClosedTradeKept graceSeconds records bronze := by
  have bronzeAfterEpoch : ∀ row ∈ bronze, 0 ≤ row.tsEvent :=
    fun row member => afterEpoch row (landed.mem_iff.mp member)
  have windows := (Topic.run_matchesReference tradesProjection graceSeconds
    records (fun record member => (trades record member).kind)
    afterEpoch).windows
  rw [rows_eq_processedTrades] at windows
  have emitted : (∀ record ∈ (tradesTopic.run graceSeconds records).emitted,
      InGold bronze record.metrics) ↔
        ∀ metrics ∈ Topic.referenceWindows graceSeconds
          (processedTrades records), InGold bronze metrics := by
    simp only [← windows.mem_iff, List.forall_mem_map]
  have complete : ∀ record ∈ processedTrades records,
      record.eventType = .trade ∧ record.price.isSome = true ∧
        record.size.isSome = true := by
    intro record member
    have carried := List.mem_takeWhile_imp member
    rw [Bool.and_eq_true] at carried
    exact ⟨(trades record ((processedTrades_initial records).subset
      member)).kind, carried⟩
  have inWindow : ∀ size ∈ windowSizes, ∀ record ∈ processedTrades records,
      ClosedFor (processedTrades records) graceSeconds size record →
        (itemsAt (bucket size.2) (processedTrades records)
          (bucket size.2 record)).Perm
            (recordsIn bronze size (bucket size.2 record)) := by
    intro size sizeMember record _ closed
    rw [← closed_records_processed noneLate afterEpoch sizeMember closed]
    exact itemsAt_perm _ landed.symm _
  have agrees : ∀ size ∈ windowSizes, ∀ record ∈ processedTrades records,
      ClosedFor (processedTrades records) graceSeconds size record →
        (InGold bronze (windowRow size.2 size.1 (bucket size.2 record,
          (itemsAt (bucket size.2) (processedTrades records)
            (bucket size.2 record)).foldl Acc.add Acc.empty)) ↔
          WindowKept bronze size (bucket size.2 record)) := by
    intro size sizeMember record member closed
    apply inGold_iff bronzeAfterEpoch sizeMember
      (inWindow size sizeMember record member closed)
    · exact List.ne_nil_of_mem ((mem_itemsAt _).mpr ⟨member, rfl⟩)
    · intro item itemMember
      exact complete item ((mem_itemsAt _).mp itemMember).1
  rw [emitted]
  constructor
  · intro all size sizeMember record member closed
    have metrics := all _ ((mem_referenceWindows
      (fun size => noneLate.processed)).mpr
        ⟨size, sizeMember, record, member, closed, rfl⟩)
    have kept := (agrees size sizeMember record member closed).mp metrics
    apply kept record
    exact (inWindow size sizeMember record member closed).mem_iff.mp
      ((mem_itemsAt _).mpr ⟨member, rfl⟩)
  · intro kept metrics member
    obtain ⟨size, sizeMember, record, recordMember, closed, row⟩ :=
      (mem_referenceWindows (fun size => noneLate.processed)).mp member
    rw [row, agrees size sizeMember record recordMember closed]
    intro other otherMember
    obtain ⟨otherProcessed, sameBucket⟩ := (mem_itemsAt _).mp
      ((inWindow size sizeMember record recordMember closed).mem_iff.mpr
        otherMember)
    exact kept size sizeMember other otherProcessed
      (closed.of_bucket sameBucket)

/-- A record some payload makes `normalizeSafe` publish as a trade. -/
def EmittedTrade (record : MarketEvent Rat) : Prop :=
  ∃ exchange members tsIngest symbolMap log,
    normalizeSafe exchange (.obj members) tsIngest symbolMap = .ok log ∧
      ∃ valid ∈ log.done, valid.event.eventType = .trade ∧
        record = valid.event.toJsonBytes

theorem EmittedTrade.tradeRecord {record : MarketEvent Rat}
    (emitted : EmittedTrade record) : TradeRecord record := by
  obtain ⟨_, _, _, _, log, _, valid, _, kind, rfl⟩ := emitted
  obtain ⟨price, size, _⟩ := MarketEvent.basicContract_ok_iff.mp valid.checked
  have finite : ∀ {field : Option PyFloat} {value : Rat},
      field.bind PyFloat.toJson = some value → field = some (.fin value) := by
    intro field value bound
    obtain ⟨float, has, json⟩ := Option.bind_eq_some_iff.mp bound
    rw [has, PyFloat.toJson_eq_some_iff.mp json]
  refine ⟨kind, ?_, ?_⟩
  · intro value has
    simpa [PyFloat.le] using price _ (finite has)
  · intro value has
    simpa [PyFloat.lt] using size _ (finite has)

/-- Every window the processor emits is in gold with the same trade metrics
exactly when every trade of a closed window carries an id and is the first of
its repeats. -/
theorem streaming_agrees_with_batch_iff (records : List (MarketEvent Rat))
    (emitted : ∀ record ∈ records, EmittedTrade record)
    (afterEpoch : ∀ record ∈ records, 0 ≤ record.tsEvent)
    (graceSeconds : Nat) (noneLate : NoneLate graceSeconds records)
    (bronze : List BronzeRow) (landed : bronze.Perm records) :
    (∀ record ∈ (tradesTopic.run graceSeconds records).emitted,
      InGold bronze record.metrics) ↔
        EveryClosedTradeKept graceSeconds records bronze :=
  windows_agree_iff records
    (fun record member => (emitted record member).tradeRecord) afterEpoch
    graceSeconds noneLate bronze landed

/-- Two trades without an id, 90 seconds apart. -/
def idlessTrades : List (String × Json) :=
  let trade (time : String) : Json :=
    .obj [("product_id", .str "BTC-USD"), ("price", .str "42000.5"),
      ("size", .str "0.01"), ("time", .str time), ("side", .str "BUY")]
  [("channel", .str "market_trades"),
    ("events", .arr [.obj [("type", .str "update"), ("trades",
      .arr [trade "2026-01-01T00:00:10Z", trade "2026-01-01T00:01:40Z"])]])]

/-- The records they are published as. -/
def idlessRecords : List (MarketEvent Rat) :=
  match normalizeSafe "coinbase" (.obj idlessTrades) 0 none with
  | .ok log => log.done.map (fun valid => valid.event.toJsonBytes)
  | .error _ => []

theorem idlessRecords_trades :
    ∀ record ∈ idlessRecords, record.eventType = .trade ∧
      0 ≤ record.tsEvent := by
  decide +kernel

theorem idlessRecords_emitted :
    ∀ record ∈ idlessRecords, EmittedTrade record := by
  intro record member
  have kind := (idlessRecords_trades record member).1
  simp only [idlessRecords] at member
  cases ran : normalizeSafe "coinbase" (.obj idlessTrades) 0 none with
  | error failure =>
      rw [ran] at member
      cases member
  | ok log =>
      rw [ran] at member
      obtain ⟨valid, validMember, rfl⟩ := List.mem_map.mp member
      exact ⟨"coinbase", idlessTrades, 0, none, log, ran, valid, validMember,
        kind, rfl⟩

theorem idlessRecords_noneLate : NoneLate 5 idlessRecords := by
  simp only [NoneLate]
  decide +kernel

/-- Their first window is emitted, and gold has no row at all. -/
theorem idless_window_missing :
    ¬ ∀ record ∈ (tradesTopic.run 5 idlessRecords).emitted,
      InGold idlessRecords record.metrics := by
  have emitted : 0 < (tradesTopic.run 5 idlessRecords).emitted.length := by
    decide +kernel
  have gold : goldWindowMetrics idlessRecords = [] :=
    List.isEmpty_iff.mp (by decide +kernel)
  intro all
  obtain ⟨record, member⟩ := List.exists_mem_of_length_pos emitted
  obtain ⟨row, rowMember, _⟩ := all record member
  rw [gold] at rowMember
  cases rowMember

theorem streaming_agrees_with_batch_sample :
    ¬ EveryClosedTradeKept 5 idlessRecords idlessRecords := by
  intro kept
  exact idless_window_missing ((streaming_agrees_with_batch_iff idlessRecords
    idlessRecords_emitted
    (fun record member => (idlessRecords_trades record member).2) 5
    idlessRecords_noneLate idlessRecords (List.Perm.refl _)).mpr kept)

/-- Trades without an id: none is late, yet the window the processor emits is
not in gold. -/
theorem streaming_disagrees_without_ids :
    (∀ record ∈ idlessRecords, EmittedTrade record) ∧
      NoneLate 5 idlessRecords ∧
        ¬ ∀ record ∈ (tradesTopic.run 5 idlessRecords).emitted,
          InGold idlessRecords record.metrics :=
  ⟨idlessRecords_emitted, idlessRecords_noneLate, idless_window_missing⟩

end TickStream
