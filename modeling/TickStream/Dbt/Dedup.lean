import Mathlib.Data.Int.ConditionallyCompleteOrder
import TickStream.Dbt.GoldReference

/-!
# What deduplication keeps

`row_number` numbers the rows of a partition that tie in its order as it
likes, and the rows are scanned in any order.  `SilverOf` and `GoldOf` say what
the models can hold under every such choice.  The copies of a trade that
survive agree on the columns of the order, and these are all gold reads.
-/

namespace TickStream

open Python Library

/-- What `silver_trades` can hold, whichever tied rows are numbered first. -/
def SilverOf (bronze : List BronzeRow) (silver : List SilverTrade) : Prop :=
  KeepsFirst SilverTrade.partition SilverTrade.precedes (validTrades bronze)
    silver

theorem silverOf_silverTrades (bronze : List BronzeRow) :
    SilverOf bronze (silverTrades bronze) :=
  rowNumberOne_keepsFirst _ _ _

theorem SilverOf.of_perm {scan bronze : List BronzeRow}
    (order : scan.Perm bronze) {silver : List SilverTrade}
    (kept : SilverOf scan silver) : SilverOf bronze silver :=
  KeepsFirst.of_perm _ _ kept (order.filterMap _)

/-- The columns `silver_trades` partitions and orders by. -/
def SilverTrade.ranked (trade : SilverTrade) :
    (String × String) × (Int ×ₗ Int ×ₗ Rat ×ₗ Rat) :=
  (trade.partition, trade.orderKey)

/-- Bronze datasets whose valid trades dominate each other lead to the same
silver trades, up to the columns outside partition and order. -/
theorem SilverOf.ranked_perm {first second : List BronzeRow}
    {silver other : List SilverTrade} (kept : SilverOf first silver)
    (keptOther : SilverOf second other)
    (forth : Dominates SilverTrade.partition SilverTrade.orderKey
      (validTrades first) (validTrades second))
    (back : Dominates SilverTrade.partition SilverTrade.orderKey
      (validTrades second) (validTrades first)) :
    (silver.map SilverTrade.ranked).Perm (other.map SilverTrade.ranked) :=
  KeepsFirst.ranked_perm kept keptOther forth back

/-- Of the rows that share the identity of a valid one, exactly one is kept,
and it is valid. -/
def OneRowFor {κ : Type} [DecidableEq κ] (identity : SilverTrade → κ)
    (valid silver : List SilverTrade) : Prop :=
  ∀ trade ∈ valid, ∃ row ∈ valid,
    itemsAt identity silver (identity trade) = [row]

/-- Silver holds the same rows for every scan and one row for every trade of
every exchange. -/
structure KeepsEveryTrade (bronze : List BronzeRow) : Prop where
  stable : ∀ first second : List BronzeRow, first.Perm bronze →
    second.Perm bronze → ∀ silver other, SilverOf first silver →
      SilverOf second other → ∀ trade, trade ∈ silver ↔ trade ∈ other
  oneRow : ∀ scan : List BronzeRow, scan.Perm bronze → ∀ silver,
    SilverOf scan silver →
      OneRowFor (fun trade => (trade.exchange, trade.symbol, trade.tradeId))
        (validTrades bronze) silver

/-- Two exchanges that gave the same id to a trade of the same symbol. -/
def sharedId : List BronzeRow :=
  [sampleTrade "1" 5 100 1,
    { sampleTrade "1" 70 101 2 with exchange := "binance_us" }]

theorem sharedId_loses_trade : ¬ KeepsEveryTrade sharedId := by
  intro keeps
  have lost : ∃ trade ∈ validTrades sharedId,
      itemsAt (fun kept => (kept.exchange, kept.symbol, kept.tradeId))
        (silverTrades sharedId)
          (trade.exchange, trade.symbol, trade.tradeId) = [] := by
    decide +kernel
  obtain ⟨trade, member, none⟩ := lost
  obtain ⟨row, _, one⟩ := keeps.oneRow sharedId (List.Perm.refl _)
    (silverTrades sharedId) (silverOf_silverTrades sharedId) trade member
  rw [none] at one
  cases one

theorem SilverOf.oneRowFor {bronze : List BronzeRow}
    {silver : List SilverTrade} (kept : SilverOf bronze silver) :
    OneRowFor SilverTrade.partition (validTrades bronze) silver := by
  intro trade member
  obtain ⟨row, rowMember, same⟩ := kept.covers trade member
  refine ⟨row, kept.subset row rowMember, ?_⟩
  rw [← same]
  exact itemsAt_eq_singleton SilverTrade.partition kept.distinct rowMember

/-- Silver has one row for every symbol and trade id of a valid trade, the
first of these trades, and its partition and order columns are the same for
every scan. -/
theorem silver_dedup {bronze first second : List BronzeRow}
    (scanned : first.Perm bronze) (rescanned : second.Perm bronze)
    {silver other : List SilverTrade} (kept : SilverOf first silver)
    (keptOther : SilverOf second other) :
    OneRowFor SilverTrade.partition (validTrades bronze) silver ∧
      (∀ row ∈ silver, row ∈ validTrades bronze ∧
        ∀ trade ∈ validTrades bronze, trade.partition = row.partition →
          row.precedes trade) ∧
      (silver.map SilverTrade.ranked).Perm
        (other.map SilverTrade.ranked) := by
  have keeps := kept.of_perm scanned
  have keepsOther := keptOther.of_perm rescanned
  refine ⟨keeps.oneRowFor, ?_, ?_⟩
  · intro row member
    exact ⟨keeps.subset row member, keeps.least row member⟩
  · exact keeps.ranked_perm keepsOther
      (dominates_of_subset (fun _ member => member))
      (dominates_of_subset (fun _ member => member))

/-- A trade and a copy of it that arrived later, under another side. -/
def repeatedTrade : List BronzeRow :=
  [sampleTrade "1" 5 100 1,
    { sampleTrade "1" 5 100 1 with
      side := some .buy, tsIngest := 9 * microsPerSecond }]

theorem silver_dedup_sample :
    OneRowFor SilverTrade.partition (validTrades repeatedTrade)
      (silverTrades repeatedTrade.reverse) :=
  (silver_dedup (List.reverse_perm repeatedTrade)
    (List.Perm.refl repeatedTrade) (silverOf_silverTrades _)
    (silverOf_silverTrades _)).1

/-- What `gold_window_metrics` can hold. -/
def GoldOf (bronze : List BronzeRow) (gold : List GoldRow) : Prop :=
  ∃ silver, SilverOf bronze silver ∧
    gold = joinWindows silver (silverTicker bronze)

theorem goldOf_goldWindowMetrics (bronze : List BronzeRow) :
    GoldOf bronze (goldWindowMetrics bronze) :=
  ⟨silverTrades bronze, silverOf_silverTrades bronze, rfl⟩

/-- The columns of a silver trade that gold reads. -/
def SilverTrade.measured (trade : SilverTrade) :
    String × Instant × Rat × Rat :=
  (trade.symbol, trade.tsEvent, trade.price, trade.size)

section Gold

variable {left right : List SilverTrade} {leftTickers rightTickers :
  List SilverTicker}

theorem measured_perm_of_ranked
    (same : (left.map SilverTrade.ranked).Perm
      (right.map SilverTrade.ranked)) :
    (left.map SilverTrade.measured).Perm
      (right.map SilverTrade.measured) := by
  have projected := same.map
    (fun ranked : (String × String) × (Int ×ₗ Int ×ₗ Rat ×ₗ Rat) =>
      ((ranked.1.1, (ofLex ranked.2).1,
        (ofLex (ofLex (ofLex ranked.2).2).2).1,
        (ofLex (ofLex (ofLex ranked.2).2).2).2) :
        String × Instant × Rat × Rat))
  rw [List.map_map, List.map_map] at projected
  exact projected

private theorem tradesIn_measured
    (same : (left.map SilverTrade.measured).Perm
      (right.map SilverTrade.measured))
    (size : String × Nat) (grain : Grain) :
    ((tradesIn left size grain).map SilverTrade.measured).Perm
      ((tradesIn right size grain).map SilverTrade.measured) := by
  have windowed : ∀ trades : List SilverTrade,
      (tradesIn trades size grain).map SilverTrade.measured =
        (trades.map SilverTrade.measured).filter (fun columns =>
          (columns.1, size.1, windowStart columns.2.1 size.2) = grain) := by
    intro trades
    rw [List.filter_map]
    rfl
  rw [windowed, windowed]
  exact same.filter _

/-- A window's accumulator is read off the measured columns. -/
private theorem accOf_eq_of_measured
    (same : (left.map SilverTrade.measured).Perm
      (right.map SilverTrade.measured))
    (sameTickers : leftTickers.Perm rightTickers) :
    accOf left leftTickers = accOf right rightTickers := by
  have volumes := (same.map (fun columns => columns.2.2.2)).sum_eq
  have values :=
    (same.map (fun columns => columns.2.2.1 * columns.2.2.2)).sum_eq
  have counts := same.length_eq
  simp only [List.map_map, List.length_map] at volumes values counts
  have spreads := (sameTickers.map SilverTicker.spread).sum_eq
  have mids := (sameTickers.map SilverTicker.mid).sum_eq
  have tickerCounts := sameTickers.length_eq
  simp only [accOf, Acc.mk.injEq]
  exact ⟨values, volumes, counts, spreads, mids, tickerCounts⟩

/-- Gold is determined by the measured columns of its trades and by its
tickers. -/
theorem joinWindows_perm
    (same : (left.map SilverTrade.measured).Perm
      (right.map SilverTrade.measured))
    (sameTickers : leftTickers.Perm rightTickers) :
    (joinWindows left leftTickers).Perm (joinWindows right rightTickers) := by
  have nodup : ∀ (trades : List SilverTrade) (tickers : List SilverTicker),
      (joinWindows trades tickers).Nodup := by
    intro trades tickers
    exact List.Nodup.of_map _ (joinWindows_keys_nodup trades tickers)
  rw [List.perm_ext_iff_of_nodup (nodup _ _) (nodup _ _)]
  intro row
  rw [mem_joinWindows, mem_joinWindows]
  apply exists_congr
  intro size
  apply and_congr_right
  intro _
  apply exists_congr
  intro grain
  have trades := tradesIn_measured same size grain
  have tickers : (tickersIn leftTickers size grain).Perm
      (tickersIn rightTickers size grain) := itemsAt_perm _ sameTickers grain
  have noTrades : tradesIn left size grain = [] ↔
      tradesIn right size grain = [] := by
    have lengths := trades.length_eq
    rw [List.length_map, List.length_map] at lengths
    rw [← List.length_eq_zero_iff, ← List.length_eq_zero_iff, lengths]
  have noTickers : tickersIn leftTickers size grain = [] ↔
      tickersIn rightTickers size grain = [] := by
    rw [← List.length_eq_zero_iff, ← List.length_eq_zero_iff,
      tickers.length_eq]
  have accs := accOf_eq_of_measured trades tickers
  simp only [ne_eq, noTrades, noTickers, goldRow_eq, goldMetrics, accs]

end Gold

/-- Gold depends on the rows of bronze, not on their order. -/
theorem goldOf_perm {first second : List BronzeRow}
    (same : first.Perm second) {gold other : List GoldRow}
    (built : GoldOf first gold) (builtOther : GoldOf second other) :
    gold.Perm other := by
  obtain ⟨silver, kept, rfl⟩ := built
  obtain ⟨silverOther, keptOther, rfl⟩ := builtOther
  have dominated : Dominates SilverTrade.partition SilverTrade.orderKey
      (validTrades second) (validTrades second) :=
    dominates_of_subset (fun _ member => member)
  have ranked := (kept.of_perm same).ranked_perm keptOther dominated dominated
  exact joinWindows_perm (measured_perm_of_ranked ranked)
    (same.filterMap SilverTicker.ofBronze?)

/-- A row that delivers a valid trade again, no earlier than the first time;
its other columns are free. -/
structure Redelivers (bronze : List BronzeRow) (row : BronzeRow) : Prop where
  trade : row.eventType = .trade
  repeats : ∃ original ∈ bronze, ∃ valid,
    SilverTrade.ofBronze? original = some valid ∧
      row.symbol = original.symbol ∧ row.tradeId = original.tradeId ∧
      row.tsEvent = original.tsEvent ∧ row.price = original.price ∧
      row.size = original.size ∧ original.tsIngest ≤ row.tsIngest

theorem Redelivers.ticker_none {bronze : List BronzeRow} {row : BronzeRow}
    (redelivers : Redelivers bronze row) :
    SilverTicker.ofBronze? row = none := by
  simp only [SilverTicker.ofBronze?, redelivers.trade]

/-- A redelivered trade sorts after the one it repeats. -/
theorem Redelivers.dominated {bronze : List BronzeRow} {row : BronzeRow}
    (redelivers : Redelivers bronze row) {copy : SilverTrade}
    (kept : SilverTrade.ofBronze? row = some copy) :
    ∃ first ∈ validTrades bronze, first.partition = copy.partition ∧
      first.orderKey ≤ copy.orderKey := by
  obtain ⟨original, member, first, keptFirst, sameSymbol, sameId, sameTime,
    samePrice, sameSize, later⟩ := redelivers.repeats
  obtain ⟨_, _, firstSymbol, firstId, firstPrice, firstSize, _, firstTime,
    firstIngest⟩ := SilverTrade.ofBronze?_eq_some keptFirst
  obtain ⟨_, _, copySymbol, copyId, copyPrice, copySize, _, copyTime,
    copyIngest⟩ := SilverTrade.ofBronze?_eq_some kept
  have tradeIds : first.tradeId = copy.tradeId := by
    rw [firstId, copyId] at sameId
    exact (Option.some.inj sameId).symm
  have symbols : first.symbol = copy.symbol := by
    rw [← firstSymbol, ← copySymbol, sameSymbol]
  have times : first.tsEvent = copy.tsEvent := by
    rw [← firstTime, ← copyTime, sameTime]
  have prices : first.price = copy.price := by
    rw [firstPrice, copyPrice] at samePrice
    exact (Option.some.inj samePrice).symm
  have sizes : first.size = copy.size := by
    rw [firstSize, copySize] at sameSize
    exact (Option.some.inj sameSize).symm
  have ingests : first.tsIngest ≤ copy.tsIngest := by
    rw [← firstIngest, ← copyIngest]
    exact later
  refine ⟨first, mem_validTrades.mpr ⟨original, member, keptFirst⟩, ?_, ?_⟩
  · simp only [SilverTrade.partition, symbols, tradeIds]
  · simp only [SilverTrade.orderKey, times, prices, sizes]
    rw [Prod.Lex.toLex_le_toLex]
    refine Or.inr ⟨rfl, ?_⟩
    rw [Prod.Lex.toLex_le_toLex]
    rcases ingests.lt_or_eq with before | same
    · exact Or.inl before
    · exact Or.inr ⟨same, le_refl _⟩

/-- Delivering trades again leaves gold as it was, whichever rows deduplication
keeps before and after. -/
theorem gold_redelivery_idempotent {bronze extra redelivered : List BronzeRow}
    (copies : ∀ row ∈ extra, Redelivers bronze row)
    (landed : redelivered.Perm (bronze ++ extra))
    {gold goldAfter : List GoldRow} (before : GoldOf bronze gold)
    (after : GoldOf redelivered goldAfter) : goldAfter.Perm gold := by
  obtain ⟨silver, kept, goldIs⟩ := before
  obtain ⟨silverAfter, keptAfter, goldAfterIs⟩ := after
  have keptLanded := keptAfter.of_perm landed
  have more : ∀ trade ∈ validTrades bronze,
      trade ∈ validTrades (bronze ++ extra) := by
    intro trade member
    simp only [validTrades, List.filterMap_append]
    exact List.mem_append_left _ member
  have forth : Dominates SilverTrade.partition SilverTrade.orderKey
      (validTrades bronze) (validTrades (bronze ++ extra)) := by
    intro trade member
    simp only [validTrades, List.filterMap_append] at member
    rcases List.mem_append.mp member with old | new
    · exact ⟨trade, old, rfl, le_refl _⟩
    · obtain ⟨row, rowMember, keptRow⟩ := List.mem_filterMap.mp new
      exact (copies row rowMember).dominated keptRow
  have ranked := keptLanded.ranked_perm kept (dominates_of_subset more) forth
  have noTickers : silverTicker extra = [] := by
    apply List.filterMap_eq_nil_iff.mpr
    intro row member
    exact (copies row member).ticker_none
  have tickers : (silverTicker redelivered).Perm (silverTicker bronze) := by
    have landedTickers := landed.filterMap SilverTicker.ofBronze?
    rw [List.filterMap_append] at landedTickers
    simp only [silverTicker] at noTickers ⊢
    rwa [noTickers, List.append_nil] at landedTickers
  rw [goldIs, goldAfterIs]
  exact joinWindows_perm (measured_perm_of_ranked ranked) tickers

theorem gold_redelivery_idempotent_sample :
    (goldWindowMetrics repeatedTrade).Perm
      (goldWindowMetrics [sampleTrade "1" 5 100 1]) := by
  have copies : ∀ row ∈ [{ sampleTrade "1" 5 100 1 with
      side := some .buy, tsIngest := 9 * microsPerSecond }],
      Redelivers [sampleTrade "1" 5 100 1] row := by
    intro row member
    rw [List.mem_singleton] at member
    subst member
    exact ⟨rfl, _, List.mem_singleton.mpr rfl, _, rfl, rfl, rfl, rfl, rfl,
      rfl, by decide⟩
  exact gold_redelivery_idempotent copies (List.Perm.refl repeatedTrade)
    (goldOf_goldWindowMetrics _) (goldOf_goldWindowMetrics _)

end TickStream
