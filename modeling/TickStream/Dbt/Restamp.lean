import TickStream.Dbt.Dedup

/-!
# Gold and the ingest clock

Two runs read the same rows at different times.  Gold does not show an ingest
time, but deduplication sorts copies of a trade by it.  Gold is the same for
two clocks if copies that tie on their event time agree on price and size, or
if the clocks put the rows in the same order.
-/

namespace TickStream

open Python Library

/-- An event with another ingest time. -/
def MarketEvent.stamped {F : Type} (event : MarketEvent F)
    (tsIngest : Instant) : MarketEvent F :=
  { event with tsIngest := tsIngest }

/-- Rows, each with the turn it is read in, under a clock. -/
def stampedBy (clock : Nat → Instant) (entries : List (BronzeRow × Nat)) :
    List BronzeRow :=
  entries.map (fun entry => entry.1.stamped (clock entry.2))

def SilverTrade.stamped (trade : SilverTrade) (tsIngest : Instant) :
    SilverTrade :=
  { trade with tsIngest := tsIngest }

def SilverTicker.stamped (ticker : SilverTicker) (tsIngest : Instant) :
    SilverTicker :=
  { ticker with tsIngest := tsIngest }

theorem SilverTrade.ofBronze?_stamped (row : BronzeRow) (tsIngest : Instant) :
    ofBronze? (row.stamped tsIngest) =
      (ofBronze? row).map (fun trade => trade.stamped tsIngest) := by
  obtain ⟨exchange, symbol, eventType, price, size, side, tradeId, bestBid,
    bestAsk, bestBidSize, bestAskSize, tsEvent, ingest⟩ := row
  simp only [ofBronze?, MarketEvent.stamped]
  split
  · split_ifs <;> rfl
  · rfl

theorem SilverTicker.ofBronze?_stamped (row : BronzeRow)
    (tsIngest : Instant) :
    ofBronze? (row.stamped tsIngest) =
      (ofBronze? row).map (fun ticker => ticker.stamped tsIngest) := by
  obtain ⟨exchange, symbol, eventType, price, size, side, tradeId, bestBid,
    bestAsk, bestBidSize, bestAskSize, tsEvent, ingest⟩ := row
  simp only [ofBronze?, MarketEvent.stamped]
  split
  · split_ifs <;> rfl
  · rfl

/-- Copies of a trade that tie on their event time agree on price and size, or
both clocks put them in the same order. -/
def Settles (first second : Nat → Instant)
    (entries : List (BronzeRow × Nat)) : Prop :=
  ∀ entry ∈ entries, ∀ other ∈ entries, entry.1.tradeId ≠ none →
    entry.1.symbol = other.1.symbol → entry.1.tradeId = other.1.tradeId →
    entry.1.tsEvent = other.1.tsEvent →
      (entry.1.price = other.1.price ∧ entry.1.size = other.1.size) ∨
        (first entry.2 ≤ first other.2 ↔ second entry.2 ≤ second other.2)

section Trades

variable {first second : Nat → Instant} {entries : List (BronzeRow × Nat)}

/-- The trades an entry gives under the two clocks. -/
def Twin (first second : Nat → Instant) (entries : List (BronzeRow × Nat))
    (row twin : SilverTrade) : Prop :=
  ∃ entry ∈ entries, ∃ trade, SilverTrade.ofBronze? entry.1 = some trade ∧
    row = trade.stamped (first entry.2) ∧ twin = trade.stamped (second entry.2)

theorem mem_validTrades_stampedBy {clock : Nat → Instant} {row : SilverTrade} :
    row ∈ validTrades (stampedBy clock entries) ↔
      ∃ entry ∈ entries, ∃ trade, SilverTrade.ofBronze? entry.1 = some trade ∧
        row = trade.stamped (clock entry.2) := by
  simp only [mem_validTrades, stampedBy, List.mem_map]
  constructor
  · intro member
    obtain ⟨_, ⟨entry, inside, rfl⟩, kept⟩ := member
    rw [SilverTrade.ofBronze?_stamped, Option.map_eq_some_iff] at kept
    obtain ⟨trade, kept, same⟩ := kept
    exact ⟨entry, inside, trade, kept, same.symm⟩
  · intro member
    obtain ⟨entry, inside, trade, kept, rfl⟩ := member
    refine ⟨_, ⟨entry, inside, rfl⟩, ?_⟩
    rw [SilverTrade.ofBronze?_stamped, kept, Option.map_some]

private theorem orderKey_le_iff {left right : SilverTrade} :
    left.orderKey ≤ right.orderKey ↔
      left.tsEvent < right.tsEvent ∨ left.tsEvent = right.tsEvent ∧
        (left.tsIngest < right.tsIngest ∨ left.tsIngest = right.tsIngest ∧
          (left.price < right.price ∨
            left.price = right.price ∧ left.size ≤ right.size)) := by
  simp only [SilverTrade.orderKey, Prod.Lex.toLex_le_toLex]

/-- The trade one run keeps and the trade the other keeps look the same to
gold. -/
theorem Settles.agree (settles : Settles first second entries)
    (row twin row' twin' : SilverTrade)
    (twins : Twin first second entries row twin)
    (twins' : Twin first second entries row' twin')
    (samePartition : row.partition = row'.partition)
    (kept : row.precedes row') (keptOther : twin'.precedes twin) :
    row.measured = twin'.measured := by
  obtain ⟨entry, inside, trade, valid, rfl, rfl⟩ := twins
  obtain ⟨other, otherInside, copy, copyValid, rfl, rfl⟩ := twins'
  obtain ⟨_, _, symbol, tradeId, price, size, _, tsEvent, _⟩ :=
    SilverTrade.ofBronze?_eq_some valid
  obtain ⟨_, _, copySymbol, copyId, copyPrice, copySize, _, copyEvent, _⟩ :=
    SilverTrade.ofBronze?_eq_some copyValid
  obtain ⟨sameSymbol, sameId⟩ := Prod.mk.inj samePartition
  simp only [SilverTrade.precedes, orderKey_le_iff, SilverTrade.stamped]
    at kept keptOther sameSymbol sameId
  have sameTime : trade.tsEvent = copy.tsEvent :=
    le_antisymm (kept.elim le_of_lt (fun tie => tie.1.le))
      (keptOther.elim le_of_lt (fun tie => tie.1.le))
  simp only [sameTime, lt_irrefl, true_and, false_or] at kept keptOther
  have order := settles entry inside other otherInside (by simp [tradeId])
    (by rw [symbol, copySymbol, sameSymbol]) (by rw [tradeId, copyId, sameId])
    (by rw [tsEvent, copyEvent, sameTime])
  have orderBack := settles other otherInside entry inside (by simp [copyId])
    (by rw [symbol, copySymbol, sameSymbol]) (by rw [tradeId, copyId, sameId])
    (by rw [tsEvent, copyEvent, sameTime])
  have samePrice : trade.price = copy.price ∧ trade.size = copy.size := by
    rcases order with same | order
    · rw [price, copyPrice, size, copySize] at same
      exact ⟨Option.some.inj same.1, Option.some.inj same.2⟩
    rcases orderBack with same | orderBack
    · rw [price, copyPrice, size, copySize] at same
      exact ⟨(Option.some.inj same.1).symm, (Option.some.inj same.2).symm⟩
    -- Neither clock separates the two, so the price and the size did.
    have firstLe : first entry.2 ≤ first other.2 :=
      kept.elim le_of_lt (fun tie => tie.1.le)
    have secondLe : second other.2 ≤ second entry.2 :=
      keptOther.elim le_of_lt (fun tie => tie.1.le)
    have firstSame := le_antisymm firstLe (orderBack.mpr secondLe)
    have secondSame := le_antisymm secondLe (order.mp firstLe)
    simp only [firstSame, secondSame, lt_irrefl, true_and, false_or]
      at kept keptOther
    have prices : trade.price = copy.price :=
      le_antisymm (kept.elim le_of_lt (fun tie => tie.1.le))
        (keptOther.elim le_of_lt (fun tie => tie.1.le))
    simp only [prices, lt_irrefl, true_and, false_or] at kept keptOther
    exact ⟨prices, le_antisymm kept keptOther⟩
  simp only [SilverTrade.measured, SilverTrade.stamped, sameSymbol, sameTime,
    samePrice]

/-- What gold reads of the trades two runs keep is the same. -/
private theorem measured_perm_of_settles
    (settles : Settles first second entries)
    {silver silverOther : List SilverTrade}
    (kept : SilverOf (stampedBy first entries) silver)
    (keptOther : SilverOf (stampedBy second entries) silverOther) :
    (silver.map SilverTrade.measured).Perm
      (silverOther.map SilverTrade.measured) := by
  have viewed : (silver.map (fun trade =>
      (trade.partition, trade.measured))).Perm
      (silverOther.map (fun trade => (trade.partition, trade.measured))) := by
    apply KeepsFirst.view_perm kept keptOther _ _ _ settles.agree
    · intro row member
      obtain ⟨entry, inside, trade, valid, same⟩ :=
        mem_validTrades_stampedBy.mp member
      exact ⟨trade.stamped (second entry.2),
        mem_validTrades_stampedBy.mpr ⟨entry, inside, trade, valid, rfl⟩,
        entry, inside, trade, valid, same, rfl⟩
    · intro twin member
      obtain ⟨entry, inside, trade, valid, same⟩ :=
        mem_validTrades_stampedBy.mp member
      exact ⟨trade.stamped (first entry.2),
        mem_validTrades_stampedBy.mpr ⟨entry, inside, trade, valid, rfl⟩,
        entry, inside, trade, valid, rfl, same⟩
    · intro row twin twins
      obtain ⟨entry, _, trade, _, rfl, rfl⟩ := twins
      rfl
  have projected := viewed.map Prod.snd
  rw [List.map_map, List.map_map] at projected
  exact projected

end Trades

private theorem tickersIn_stamped (tickers : List SilverTicker)
    (tsIngest : Instant)
    (size : String × Nat) (grain : Grain) :
    tickersIn (tickers.map (fun ticker => ticker.stamped tsIngest)) size
        grain =
      (tickersIn tickers size grain).map
        (fun ticker => ticker.stamped tsIngest) := by
  simp only [tickersIn, inWindow, itemsAt, List.filter_map]
  rfl

/-- Gold does not read when a ticker was ingested. -/
private theorem joinWindows_stamped (trades : List SilverTrade)
    (tickers : List SilverTicker) (tsIngest : Instant) :
    (joinWindows trades
        (tickers.map (fun ticker => ticker.stamped tsIngest))).Perm
      (joinWindows trades tickers) := by
  have nodup : ∀ tickers : List SilverTicker,
      (joinWindows trades tickers).Nodup := by
    intro tickers
    exact List.Nodup.of_map _ (joinWindows_keys_nodup trades tickers)
  rw [List.perm_ext_iff_of_nodup (nodup _) (nodup _)]
  intro row
  rw [mem_joinWindows, mem_joinWindows]
  have accs : ∀ (trades : List SilverTrade) (tickers : List SilverTicker),
      accOf trades (tickers.map (fun ticker => ticker.stamped tsIngest)) =
        accOf trades tickers := by
    intro trades tickers
    simp only [accOf, List.map_map, List.length_map]
    rfl
  simp only [goldRow_eq, goldMetrics, accs, tickersIn_stamped, ne_eq,
    List.map_eq_nil_iff]

private theorem silverTicker_stampedBy (clock : Nat → Instant)
    (entries : List (BronzeRow × Nat)) (tsIngest : Instant) :
    (silverTicker (stampedBy clock entries)).map
        (fun ticker => ticker.stamped tsIngest) =
      (silverTicker (entries.map Prod.fst)).map
        (fun ticker => ticker.stamped tsIngest) := by
  simp only [silverTicker, stampedBy, List.filterMap_map, List.map_filterMap]
  apply List.filterMap_congr
  intro entry _
  simp only [Function.comp_apply, SilverTicker.ofBronze?_stamped,
    Option.map_map]
  rfl

/-- Two clocks that settle the order of the copies lead to one gold. -/
theorem goldOf_stampedBy {first second : Nat → Instant}
    {entries : List (BronzeRow × Nat)}
    (settles : Settles first second entries) {gold other : List GoldRow}
    (built : GoldOf (stampedBy first entries) gold)
    (builtOther : GoldOf (stampedBy second entries) other) :
    gold.Perm other := by
  obtain ⟨silver, kept, rfl⟩ := built
  obtain ⟨silverOther, keptOther, rfl⟩ := builtOther
  have measured := measured_perm_of_settles settles kept keptOther
  have unstamped : ∀ clock, (joinWindows silver
      (silverTicker (stampedBy clock entries))).Perm
      (joinWindows silver ((silverTicker (entries.map Prod.fst)).map
        (fun ticker => ticker.stamped 0))) := by
    intro clock
    rw [← silverTicker_stampedBy clock entries 0]
    exact (joinWindows_stamped silver _ 0).symm
  exact (unstamped first).trans ((unstamped second).symm.trans
    (joinWindows_perm measured (List.Perm.refl _)))

end TickStream
