import TickStream.Producer.Totality

/-!
# What a payload offers

A record either reads as the fields of a trade or a tick, or it yields no
event.  The events of a payload are the trades and ticks it offers that pass
the validator.
-/

namespace TickStream

open Python Library

structure TradeFields where
  symbol : String
  price : PyFloat
  size : PyFloat
  side : Option Side
  tradeId : Option String
  tsEvent : Instant

def TradeFields.event (fields : TradeFields) (exchange : String)
    (tsIngest : Instant) : MarketEvent PyFloat :=
  { exchange := exchange
    symbol := fields.symbol
    eventType := .trade
    price := some fields.price
    size := some fields.size
    side := fields.side
    tradeId := fields.tradeId
    tsEvent := fields.tsEvent
    tsIngest := tsIngest }

structure TickFields where
  symbol : String
  price : Option PyFloat
  bestBid : Option PyFloat
  bestAsk : Option PyFloat
  bestBidSize : Option PyFloat
  bestAskSize : Option PyFloat
  tsEvent : Instant

def TickFields.event (fields : TickFields) (exchange : String)
    (tsIngest : Instant) : MarketEvent PyFloat :=
  { exchange := exchange
    symbol := fields.symbol
    eventType := .ticker
    price := fields.price
    bestBid := fields.bestBid
    bestAsk := fields.bestAsk
    bestBidSize := fields.bestBidSize
    bestAskSize := fields.bestAskSize
    tsEvent := fields.tsEvent
    tsIngest := tsIngest }

structure CoinbaseTradeReads (room : Room) (symbolMap : Option SymbolMap)
    (trade : Json) (fields : TradeFields) : Prop where
  symbol : productSymbol symbolMap trade = .ok (.str fields.symbol)
  price : floatField trade "price" = .ok fields.price
  size : floatField trade "size" = .ok fields.size
  side : sideField room trade = .ok fields.side
  tradeId : idField room Json.truthy trade "trade_id" = .ok fields.tradeId
  tsEvent : timeField trade "time" = .ok fields.tsEvent

structure CoinbaseTickReads (symbolMap : Option SymbolMap) (tick : Json)
    (fields : TickFields) : Prop where
  symbol : productSymbol symbolMap tick = .ok (.str fields.symbol)
  price : optFloatField tick "price" = .ok fields.price
  bestBid : optFloatField tick "best_bid" = .ok fields.bestBid
  bestAsk : optFloatField tick "best_ask" = .ok fields.bestAsk
  bestBidSize : optFloatField tick "best_bid_quantity" = .ok fields.bestBidSize
  bestAskSize : optFloatField tick "best_ask_quantity" = .ok fields.bestAskSize

structure BinanceTradeReads (room : Room) (data : Json)
    (fields : TradeFields) : Prop where
  price : floatField data "p" = .ok fields.price
  size : floatField data "q" = .ok fields.size
  side : ∃ isBuyerMaker, data.get "m" .null = .ok isBuyerMaker ∧
    fields.side = some (if isBuyerMaker.truthy then .sell else .buy)
  tradeId : idField room (fun value => !value.isNull) data "t" =
    .ok fields.tradeId
  tsEvent : millisField data "T" = .ok fields.tsEvent

structure BinanceTickReads (data : Json) (fields : TickFields) : Prop where
  price : fields.price = none
  bestBid : optFloatField data "b" = .ok fields.bestBid
  bestAsk : optFloatField data "a" = .ok fields.bestAsk
  bestBidSize : optFloatField data "B" = .ok fields.bestBidSize
  bestAskSize : optFloatField data "A" = .ok fields.bestAskSize

section Bodies

variable {room : Room} {symbolMap : Option SymbolMap}
  {tsIngest tsEvent : Instant} {record : Json} {valid : ValidEvent}

theorem construct_eq_ok_iff {symbol : Json}
    {fields : String → MarketEvent PyFloat} :
    MarketEvent.construct symbol fields = .ok valid ↔
      ∃ name, symbol = .str name ∧ valid.event = fields name := by
  cases symbol with
  | str name =>
      simp [MarketEvent.construct, MarketEvent.validate_ok_iff]
  | _ => simp [MarketEvent.construct, raise]

theorem produced_unless_null {α : Type} {symbol : Json}
    {body : Result (Option α)} {found : α} :
    (if symbol.isNull then .ok none else body) = .ok (some found) ↔
      symbol.isNull = false ∧ body = .ok (some found) := by
  cases symbol.isNull <;> simp

theorem some_map_eq_ok_iff {α : Type} {run : Result α} {found : α} :
    some <$> run = .ok (some found) ↔ run = .ok found := by
  rw [map_eq_ok_iff]
  simp

theorem coinbaseTrade_eq_ok_iff :
    coinbaseTrade room tsIngest symbolMap record = .ok (some valid) ↔
      ∃ fields, CoinbaseTradeReads room symbolMap record fields ∧
        valid.event = fields.event "coinbase" tsIngest := by
  simp only [coinbaseTrade, bind_eq_ok_iff, produced_unless_null,
    some_map_eq_ok_iff, construct_eq_ok_iff]
  constructor
  · intro ran
    rcases ran with ⟨_, resolved, _, price, hasPrice, size, hasSize, side,
      hasSide, tradeId, hasId, tsEvent, hasTime, symbol, rfl, same⟩
    exact ⟨⟨symbol, price, size, side, tradeId, tsEvent⟩,
      ⟨resolved, hasPrice, hasSize, hasSide, hasId, hasTime⟩, same⟩
  · intro offered
    rcases offered with ⟨fields, reads, same⟩
    exact ⟨_, reads.symbol, rfl, _, reads.price, _, reads.size, _, reads.side,
      _, reads.tradeId, _, reads.tsEvent, _, rfl, same⟩

theorem coinbaseTick_eq_ok_iff :
    coinbaseTick tsIngest symbolMap tsEvent record = .ok (some valid) ↔
      ∃ fields, CoinbaseTickReads symbolMap record fields ∧
        fields.tsEvent = tsEvent ∧
          valid.event = fields.event "coinbase" tsIngest := by
  simp only [coinbaseTick, bind_eq_ok_iff, produced_unless_null,
    some_map_eq_ok_iff, construct_eq_ok_iff]
  constructor
  · intro ran
    rcases ran with ⟨_, resolved, _, price, hasPrice, bid, hasBid, ask, hasAsk,
      bidSize, hasBidSize, askSize, hasAskSize, symbol, rfl, same⟩
    exact ⟨⟨symbol, price, bid, ask, bidSize, askSize, tsEvent⟩,
      ⟨resolved, hasPrice, hasBid, hasAsk, hasBidSize, hasAskSize⟩, rfl, same⟩
  · intro offered
    rcases offered with ⟨fields, reads, rfl, same⟩
    exact ⟨_, reads.symbol, rfl, _, reads.price, _, reads.bestBid, _,
      reads.bestAsk, _, reads.bestBidSize, _, reads.bestAskSize, _, rfl, same⟩

theorem binanceTrade_eq_ok_iff {symbol : String} :
    binanceTrade room tsIngest symbol record = .ok (some valid) ↔
      ∃ fields, BinanceTradeReads room record fields ∧ fields.symbol = symbol ∧
        valid.event = fields.event "binance_us" tsIngest := by
  simp only [binanceTrade, bind_eq_ok_iff, some_map_eq_ok_iff,
    construct_eq_ok_iff]
  constructor
  · intro ran
    rcases ran with ⟨maker, hasMaker, price, hasPrice, size, hasSize, tradeId,
      hasId, tsEvent, hasTime, _, ⟨⟩, same⟩
    exact ⟨⟨symbol, price, size, _, tradeId, tsEvent⟩,
      ⟨hasPrice, hasSize, ⟨maker, hasMaker, rfl⟩, hasId, hasTime⟩, rfl, same⟩
  · intro offered
    rcases offered with ⟨fields, reads, rfl, same⟩
    obtain ⟨maker, hasMaker, side⟩ := reads.side
    refine ⟨maker, hasMaker, _, reads.price, _, reads.size, _, reads.tradeId,
      _, reads.tsEvent, _, rfl, ?_⟩
    rw [same, ← side]
    rfl

theorem binanceTick_eq_ok_iff {symbol : String} :
    binanceTick tsIngest symbol record = .ok (some valid) ↔
      ∃ fields, BinanceTickReads record fields ∧ fields.symbol = symbol ∧
        fields.tsEvent = tsIngest ∧
          valid.event = fields.event "binance_us" tsIngest := by
  simp only [binanceTick, bind_eq_ok_iff, some_map_eq_ok_iff,
    construct_eq_ok_iff]
  constructor
  · intro ran
    rcases ran with ⟨bid, hasBid, ask, hasAsk, bidSize, hasBidSize, askSize,
      hasAskSize, _, ⟨⟩, same⟩
    exact ⟨⟨symbol, none, bid, ask, bidSize, askSize, tsIngest⟩,
      ⟨rfl, hasBid, hasAsk, hasBidSize, hasAskSize⟩, rfl, rfl, same⟩
  · intro offered
    rcases offered with ⟨fields, reads, rfl, rfl, same⟩
    refine ⟨_, reads.bestBid, _, reads.bestAsk, _, reads.bestBidSize, _,
      reads.bestAskSize, _, rfl, ?_⟩
    rw [same]
    simp only [TickFields.event]
    rw [reads.price]

end Bodies

/-- The dictionary of a Binance.US message and its canonical symbol. -/
def MessageOf (symbolMap : Option SymbolMap) (payload data : Json)
    (symbol : String) : Prop :=
  payload.get "data" payload = .ok data ∧
    binanceSymbol (symbolMap.getD .empty) data = .ok (some symbol)

/-- Which of the two message kinds a dictionary is read as. -/
def ReadAsTrade (data : Json) (isTrade : Bool) : Prop :=
  ∃ kind, data.get "e" .null = .ok kind ∧ isBinanceTrade kind data = isTrade

inductive OffersTrade (room : Room) (symbolMap : Option SymbolMap)
    (payload : Json) : String → TradeFields → Prop where
  | coinbase {envelope trade : Json} {fields : TradeFields} :
      OnChannel payload "market_trades" → Listed payload "events" envelope →
      IsUpdate envelope → Listed envelope "trades" trade →
      CoinbaseTradeReads room symbolMap trade fields →
      OffersTrade room symbolMap payload "coinbase" fields
  | binance {data : Json} {fields : TradeFields} :
      MessageOf symbolMap payload data fields.symbol →
      ReadAsTrade data true → BinanceTradeReads room data fields →
      OffersTrade room symbolMap payload "binance_us" fields

inductive OffersTick (symbolMap : Option SymbolMap) (payload : Json)
    (tsIngest : Instant) : String → TickFields → Prop where
  | coinbase {envelope tick : Json} {fields : TickFields} :
      OnChannel payload "ticker" →
      envelopeTime payload = .ok fields.tsEvent →
      Listed payload "events" envelope → Listed envelope "tickers" tick →
      CoinbaseTickReads symbolMap tick fields →
      OffersTick symbolMap payload tsIngest "coinbase" fields
  | binance {data : Json} {fields : TickFields} :
      MessageOf symbolMap payload data fields.symbol →
      ReadAsTrade data false → data.hasKeys ["b", "a"] = true →
      BinanceTickReads data fields → fields.tsEvent = tsIngest →
      OffersTick symbolMap payload tsIngest "binance_us" fields

/-- An event is an offered trade or an offered tick. -/
def OffersEvent (room : Room) (exchange : String)
    (symbolMap : Option SymbolMap) (payload : Json) (tsIngest : Instant)
    (event : MarketEvent PyFloat) : Prop :=
  (∃ fields, OffersTrade room symbolMap payload exchange fields ∧
      event = fields.event exchange tsIngest) ∨
    ∃ fields, OffersTick symbolMap payload tsIngest exchange fields ∧
      event = fields.event exchange tsIngest

section Payloads

variable {room : Room} {exchange : String} {symbolMap : Option SymbolMap}
  {tsIngest : Instant} {payload : Json} {valid : ValidEvent}

theorem binanceRecord_eq_ok_iff {symbol : String} {data : Json} :
    binanceRecord room tsIngest symbol data = .ok (some valid) ↔
      (ReadAsTrade data true ∧
        binanceTrade room tsIngest symbol data = .ok (some valid)) ∨
      (ReadAsTrade data false ∧ data.hasKeys ["b", "a"] = true ∧
        binanceTick tsIngest symbol data = .ok (some valid)) := by
  simp only [binanceRecord, ReadAsTrade]
  rw [bind_eq_ok_iff]
  constructor
  · intro ran
    rcases ran with ⟨kind, got, produced⟩
    cases shaped : isBinanceTrade kind data with
    | true =>
        rw [shaped, if_pos rfl] at produced
        exact Or.inl ⟨⟨kind, got, shaped⟩, produced⟩
    | false =>
        rw [shaped, if_neg Bool.false_ne_true] at produced
        split_ifs at produced with quotes
        · exact Or.inr ⟨⟨kind, got, shaped⟩, quotes, produced⟩
        · cases produced
  · intro offered
    rcases offered with ⟨⟨kind, got, shaped⟩, produced⟩ |
      ⟨⟨kind, got, shaped⟩, quotes, produced⟩
    · exact ⟨kind, got, by rw [shaped, if_pos rfl]; exact produced⟩
    · exact ⟨kind, got, by
        rw [shaped, if_neg Bool.false_ne_true, if_pos quotes]
        exact produced⟩

private theorem visits_produced_iff :
    (∃ record, Visits room exchange symbolMap tsIngest payload record
      (.ok (some valid))) ↔
        OffersEvent room exchange symbolMap payload tsIngest valid.event := by
  constructor
  · intro visited
    rcases visited with ⟨record, visit⟩
    generalize produced : Except.ok (some valid) = body at visit
    cases visit with
    | trade coinbase channel envelope update listed =>
        obtain ⟨fields, reads, same⟩ :=
          coinbaseTrade_eq_ok_iff.mp produced.symm
        subst coinbase
        exact Or.inl ⟨fields,
          .coinbase channel envelope update listed reads, same⟩
    | badEnvelope _ _ _ => cases produced
    | tick coinbase channel time envelope listed =>
        obtain ⟨fields, reads, rfl, same⟩ :=
          coinbaseTick_eq_ok_iff.mp produced.symm
        subst coinbase
        exact Or.inr ⟨fields,
          .coinbase channel time envelope listed reads, same⟩
    | message binance got resolved =>
        subst binance
        rcases binanceRecord_eq_ok_iff.mp produced.symm with
          ⟨shaped, trade⟩ | ⟨shaped, quotes, tick⟩
        · obtain ⟨fields, reads, rfl, same⟩ :=
            binanceTrade_eq_ok_iff.mp trade
          exact Or.inl ⟨fields, .binance ⟨got, resolved⟩ shaped reads, same⟩
        · obtain ⟨fields, reads, rfl, time, same⟩ :=
            binanceTick_eq_ok_iff.mp tick
          exact Or.inr ⟨fields,
            .binance ⟨got, resolved⟩ shaped quotes reads time, same⟩
  · intro offered
    rcases offered with ⟨fields, offered, same⟩ | ⟨fields, offered, same⟩
    · cases offered with
      | @coinbase envelope trade _ channel listed update inside reads =>
          refine ⟨trade, ?_⟩
          rw [← coinbaseTrade_eq_ok_iff.mpr ⟨fields, reads, same⟩]
          exact .trade rfl channel listed update inside
      | @binance data _ message shaped reads =>
          refine ⟨data, ?_⟩
          rw [← binanceRecord_eq_ok_iff.mpr (Or.inl ⟨shaped,
            binanceTrade_eq_ok_iff.mpr ⟨fields, reads, rfl, same⟩⟩)]
          exact .message rfl message.1 message.2
    · cases offered with
      | @coinbase envelope tick _ channel time listed inside reads =>
          refine ⟨tick, ?_⟩
          rw [← coinbaseTick_eq_ok_iff.mpr ⟨fields, reads, rfl, same⟩]
          exact .tick rfl channel time listed inside
      | @binance data _ message shaped quotes reads time =>
          refine ⟨data, ?_⟩
          rw [← binanceRecord_eq_ok_iff.mpr (Or.inr ⟨shaped, quotes,
            binanceTick_eq_ok_iff.mpr ⟨fields, reads, rfl, time, same⟩⟩)]
          exact .message rfl message.1 message.2

/-- Whether a run returned an event that passes a check. -/
def returnsEvent (check : MarketEvent PyFloat → Bool) :
    Result NormalizeLog → Bool
  | .ok log => log.done.any (fun valid => check valid.event)
  | .error _ => false

theorem returnsEvent_iff {check : MarketEvent PyFloat → Bool}
    {run : Result NormalizeLog} :
    returnsEvent check run = true ↔
      ∃ log, run = .ok log ∧ ∃ valid ∈ log.done,
        check valid.event = true := by
  cases run with
  | ok log => simp [returnsEvent]
  | error failure => simp [returnsEvent]

/-- The events of a payload are the offered ones. -/
theorem mem_done_iff {members : List (String × Json)} {log : NormalizeLog}
    (ran : normalizeSafe exchange (.obj members) tsIngest symbolMap room =
      .ok log) :
    valid ∈ log.done ↔
      OffersEvent room exchange symbolMap (.obj members) tsIngest
        valid.event := by
  rw [(normalizeSafe_log ran).done, visits_produced_iff]

end Payloads

end TickStream
