import Mathlib.Data.Prod.Lex
import TickStream.Library.Relational
import TickStream.Processing.Metrics

/-!
# The silver models

A bronze row is the dump of an event read back from a raw topic: its strings
and timestamps are never null and its numbers are finite.  The silver models
filter it; a comparison with a null is not true, so the rows they keep carry
the columns they were filtered on, together with what the filter established.
-/

namespace TickStream

open Python Library

abbrev BronzeRow := MarketEvent Rat

/-- A row of `silver_trades`. -/
structure SilverTrade where
  exchange : String
  symbol : String
  tradeId : String
  price : Rat
  size : Rat
  side : Option Side
  tsEvent : Instant
  tsIngest : Instant
  pricePositive : 0 < price
  sizeNonnegative : 0 ≤ size
deriving DecidableEq

namespace SilverTrade

/-- The `where` clause of `silver_trades`. -/
def ofBronze? (row : BronzeRow) : Option SilverTrade :=
  match row.eventType, row.price, row.size, row.tradeId with
  | .trade, some price, some size, some tradeId =>
      if pricePositive : 0 < price then
        if sizeNonnegative : 0 ≤ size then
          some
            { exchange := row.exchange
              symbol := row.symbol
              tradeId := tradeId
              price := price
              size := size
              side := row.side
              tsEvent := row.tsEvent
              tsIngest := row.tsIngest
              pricePositive := pricePositive
              sizeNonnegative := sizeNonnegative }
        else none
      else none
  | _, _, _, _ => none

/-- `partition by symbol, trade_id`. -/
def partition (trade : SilverTrade) : String × String :=
  (trade.symbol, trade.tradeId)

/-- `order by ts_event, ts_ingest, price, size`. -/
def orderKey (trade : SilverTrade) : Int ×ₗ Int ×ₗ Rat ×ₗ Rat :=
  toLex (trade.tsEvent,
    toLex (trade.tsIngest, toLex (trade.price, trade.size)))

def precedes (left right : SilverTrade) : Prop :=
  left.orderKey ≤ right.orderKey

instance : DecidableRel precedes := fun left right =>
  inferInstanceAs (Decidable (left.orderKey ≤ right.orderKey))

@[simp] theorem precedes_refl (trade : SilverTrade) : trade.precedes trade :=
  le_refl trade.orderKey

instance : Std.Total precedes :=
  ⟨fun left right => le_total left.orderKey right.orderKey⟩

instance : IsTrans SilverTrade precedes :=
  ⟨fun _ _ _ first second => le_trans (α := Int ×ₗ Int ×ₗ Rat ×ₗ Rat)
    first second⟩

/-- The row read back as an event. -/
def toEvent (trade : SilverTrade) : MarketEvent Rat :=
  { exchange := trade.exchange
    symbol := trade.symbol
    eventType := .trade
    price := some trade.price
    size := some trade.size
    side := trade.side
    tradeId := some trade.tradeId
    tsEvent := trade.tsEvent
    tsIngest := trade.tsIngest }

end SilverTrade

/-- The rows of the `src` step of `silver_trades`. -/
def validTrades (bronze : List BronzeRow) : List SilverTrade :=
  bronze.filterMap SilverTrade.ofBronze?

def silverTrades (bronze : List BronzeRow) : List SilverTrade :=
  rowNumberOne SilverTrade.partition SilverTrade.precedes (validTrades bronze)

/-- A row of `silver_ticker`. -/
structure SilverTicker where
  exchange : String
  symbol : String
  bestBid : Rat
  bestAsk : Rat
  bestBidSize : Option Rat
  bestAskSize : Option Rat
  tsEvent : Instant
  tsIngest : Instant
  uncrossed : bestBid ≤ bestAsk
deriving DecidableEq

namespace SilverTicker

def spread (ticker : SilverTicker) : Rat := ticker.bestAsk - ticker.bestBid

def mid (ticker : SilverTicker) : Rat :=
  (ticker.bestAsk + ticker.bestBid) / 2

/-- The `where` clause of `silver_ticker`. -/
def ofBronze? (row : BronzeRow) : Option SilverTicker :=
  match row.eventType, row.bestBid, row.bestAsk with
  | .ticker, some bid, some ask =>
      if uncrossed : bid ≤ ask then
        some
          { exchange := row.exchange
            symbol := row.symbol
            bestBid := bid
            bestAsk := ask
            bestBidSize := row.bestBidSize
            bestAskSize := row.bestAskSize
            tsEvent := row.tsEvent
            tsIngest := row.tsIngest
            uncrossed := uncrossed }
      else none
  | _, _, _ => none

def toEvent (ticker : SilverTicker) : MarketEvent Rat :=
  { exchange := ticker.exchange
    symbol := ticker.symbol
    eventType := .ticker
    bestBid := some ticker.bestBid
    bestAsk := some ticker.bestAsk
    bestBidSize := ticker.bestBidSize
    bestAskSize := ticker.bestAskSize
    tsEvent := ticker.tsEvent
    tsIngest := ticker.tsIngest }

end SilverTicker

def silverTicker (bronze : List BronzeRow) : List SilverTicker :=
  bronze.filterMap SilverTicker.ofBronze?

/-- The rows of both silver models, read back as events. -/
def silverEvents (bronze : List BronzeRow) : List (MarketEvent Rat) :=
  (silverTrades bronze).map SilverTrade.toEvent ++
    (silverTicker bronze).map SilverTicker.toEvent

theorem SilverTrade.ofBronze?_eq_some {row : BronzeRow} {trade : SilverTrade}
    (kept : SilverTrade.ofBronze? row = some trade) :
    row.eventType = .trade ∧ row.exchange = trade.exchange ∧
      row.symbol = trade.symbol ∧ row.tradeId = some trade.tradeId ∧
      row.price = some trade.price ∧ row.size = some trade.size ∧
      row.side = trade.side ∧ row.tsEvent = trade.tsEvent ∧
      row.tsIngest = trade.tsIngest := by
  simp only [SilverTrade.ofBronze?] at kept
  split at kept
  · rename_i price size tradeId eventType hasPrice hasSize hasId
    split_ifs at kept
    cases kept
    exact ⟨eventType, rfl, rfl, hasId, hasPrice, hasSize, rfl, rfl, rfl⟩
  · cases kept

theorem SilverTicker.ofBronze?_eq_some {row : BronzeRow}
    {ticker : SilverTicker}
    (kept : SilverTicker.ofBronze? row = some ticker) :
    row.eventType = .ticker ∧ row.exchange = ticker.exchange ∧
      row.symbol = ticker.symbol ∧ row.bestBid = some ticker.bestBid ∧
      row.bestAsk = some ticker.bestAsk ∧ row.tsEvent = ticker.tsEvent ∧
      row.tsIngest = ticker.tsIngest := by
  simp only [SilverTicker.ofBronze?] at kept
  split at kept
  · rename_i bid ask eventType hasBid hasAsk
    split_ifs at kept
    cases kept
    exact ⟨eventType, rfl, rfl, hasBid, hasAsk, rfl, rfl⟩
  · cases kept

theorem mem_validTrades {bronze : List BronzeRow} {trade : SilverTrade} :
    trade ∈ validTrades bronze ↔
      ∃ row ∈ bronze, SilverTrade.ofBronze? row = some trade :=
  List.mem_filterMap

theorem silverTrades_subset {bronze : List BronzeRow} {trade : SilverTrade}
    (member : trade ∈ silverTrades bronze) : trade ∈ validTrades bronze :=
  rowNumberOne_subset _ _ member

theorem mem_silverTicker {bronze : List BronzeRow} {ticker : SilverTicker} :
    ticker ∈ silverTicker bronze ↔
      ∃ row ∈ bronze, SilverTicker.ofBronze? row = some ticker :=
  List.mem_filterMap

/-- A silver trade has the event time of some bronze row. -/
theorem silverTrades_afterEpoch {bronze : List BronzeRow}
    (afterEpoch : ∀ row ∈ bronze, 0 ≤ row.tsEvent) {trade : SilverTrade}
    (member : trade ∈ silverTrades bronze) : 0 ≤ trade.tsEvent := by
  obtain ⟨row, rowMember, kept⟩ :=
    mem_validTrades.mp (silverTrades_subset member)
  obtain ⟨_, _, _, _, _, _, _, sameTime, _⟩ :=
    SilverTrade.ofBronze?_eq_some kept
  rw [← sameTime]
  exact afterEpoch row rowMember

theorem silverTicker_afterEpoch {bronze : List BronzeRow}
    (afterEpoch : ∀ row ∈ bronze, 0 ≤ row.tsEvent) {ticker : SilverTicker}
    (member : ticker ∈ silverTicker bronze) : 0 ≤ ticker.tsEvent := by
  obtain ⟨row, rowMember, kept⟩ := mem_silverTicker.mp member
  obtain ⟨_, _, _, _, _, sameTime, _⟩ :=
    SilverTicker.ofBronze?_eq_some kept
  rw [← sameTime]
  exact afterEpoch row rowMember

end TickStream
