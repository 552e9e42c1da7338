import TickStream.Config
import TickStream.Library.TryEach
import TickStream.Schema

/-!
# Normalization

From raw exchange messages to market events.  Payloads are decoded JSON that
nothing has checked, so every access is the Python operation with the
exception it raises on a value of the wrong type.
-/

namespace TickStream

open Python Library

/-- The exceptions a record handler catches. -/
def normalizeErrors : List ExcClass :=
  [.validationError, .valueError, .keyError, .typeError]

def caught (failure : Exc) : Bool := normalizeErrors.contains failure.cls

/-- A rejected sub-record with the reason. -/
abbrev Reject := String × Json

abbrev NormalizeLog := Log ValidEvent Reject

/-- `_FRAC.sub`: of a run of digits after a point the first six stay.  The
state is the number of digits kept from the run, if there is one. -/
def cutFraction : Option Nat → List Char → List Char
  | _, [] => []
  | some kept, char :: rest =>
      if isDecimal char then
        if kept < 6 then char :: cutFraction (some (kept + 1)) rest
        else cutFraction (some kept) rest
      else char :: cutFraction (if char = '.' then some 0 else none) rest
  | none, char :: rest =>
      char :: cutFraction (if char = '.' then some 0 else none) rest

/-- `replace("Z", "+00:00")`. -/
def expandZulu (text : List Char) : List Char :=
  text.flatMap (fun char => if char = 'Z' then "+00:00".toList else [char])

/-- The text handed to `fromisoformat`. -/
def isoText (text : String) : String :=
  String.ofList
    (cutFraction none (expandZulu (stripBy isSpace text.toList)))

def parseTs : Json → Result Instant
  | .str text => do
      let time ← fromIsoFormat (isoText text)
      time.toUtc
  | other =>
      raise .attributeError
        ("'" ++ other.typeName ++ "' object has no attribute 'strip'")

def tsFromMillis (ms : Json) : Result Instant := do
  let millis ← ms.toInt
  let double ← floatOfInt millis
  fromTimestamp (millisToSeconds double)

section Fields

variable (room : Room)

/-- Upper case, as far as it can lead to a letter of `BUY` or `SELL`. -/
def upperChar (char : Char) : Char := if char = 'ſ' then 'S' else char.toUpper

def readSide (value : Json) : Result (Option Side) := do
  let text ← value.toStr room
  return match String.ofList (text.toList.map upperChar) with
    | "BUY" => some .buy
    | "SELL" => some .sell
    | _ => none

/-- The canonical symbol; null if the symbol is not configured. -/
def resolveSymbol (raw : Json) (symbolMap : Option SymbolMap) : Result Json :=
  match symbolMap with
  | none => .ok raw
  | some symbolMap =>
      (fun found => (found.map Json.str).getD .null) <$>
        raw.lookupIn symbolMap.entries

def optFloat (value : Json) : Result (Option PyFloat) :=
  if value.isNull || value.isStr "" then .ok none
  else some <$> value.toFloat

/-- `float(record[name])`. -/
def floatField (record : Json) (name : String) : Result PyFloat := do
  let value ← record.item name
  value.toFloat

/-- `_opt_float(record.get(name))`. -/
def optFloatField (record : Json) (name : String) :
    Result (Option PyFloat) := do
  let value ← record.get name .null
  optFloat value

/-- `str(record[name])` if `present` holds of `record.get(name)`. -/
def idField (present : Json → Bool) (record : Json) (name : String) :
    Result (Option String) := do
  let value ← record.get name .null
  if present value then do
    let found ← record.item name
    some <$> found.toStr room
  else .ok none

/-- `_SIDE.get(str(trade.get("side", "")).upper())`. -/
def sideField (trade : Json) : Result (Option Side) := do
  let value ← trade.get "side" (.str "")
  readSide room value

/-- `parse_ts(record[name])`. -/
def timeField (record : Json) (name : String) : Result Instant := do
  let value ← record.item name
  parseTs value

/-- `_ts_from_millis(record[name])`. -/
def millisField (record : Json) (name : String) : Result Instant := do
  let value ← record.item name
  tsFromMillis value

end Fields

section Coinbase

variable (room : Room) (tsIngest : Instant) (symbolMap : Option SymbolMap)

/-- The canonical symbol of a product; null if it is not configured. -/
def productSymbol (record : Json) : Result Json := do
  let product ← record.item "product_id"
  resolveSymbol product symbolMap

def coinbaseTrade (trade : Json) : Result (Option ValidEvent) := do
  let symbol ← productSymbol symbolMap trade
  if symbol.isNull then .ok none
  else do
    let price ← floatField trade "price"
    let size ← floatField trade "size"
    let side ← sideField room trade
    let tradeId ← idField room Json.truthy trade "trade_id"
    let tsEvent ← timeField trade "time"
    some <$> MarketEvent.construct symbol (fun name =>
      { exchange := "coinbase"
        symbol := name
        eventType := .trade
        price := some price
        size := some size
        side := side
        tradeId := tradeId
        tsEvent := tsEvent
        tsIngest := tsIngest })

def coinbaseTick (tsEvent : Instant) (tick : Json) :
    Result (Option ValidEvent) := do
  let symbol ← productSymbol symbolMap tick
  if symbol.isNull then .ok none
  else do
    let price ← optFloatField tick "price"
    let bestBid ← optFloatField tick "best_bid"
    let bestAsk ← optFloatField tick "best_ask"
    let bestBidSize ← optFloatField tick "best_bid_quantity"
    let bestAskSize ← optFloatField tick "best_ask_quantity"
    some <$> MarketEvent.construct symbol (fun name =>
      { exchange := "coinbase"
        symbol := name
        eventType := .ticker
        price := price
        bestBid := bestBid
        bestAsk := bestAsk
        bestBidSize := bestBidSize
        bestAskSize := bestAskSize
        tsEvent := tsEvent
        tsIngest := tsIngest })

/-- `for item in record.get(name, []): visit(item)`. -/
def eachListed (name : String) (visit : Json → Result NormalizeLog)
    (record : Json) : Result NormalizeLog := do
  let listed ← record.get name (.arr [])
  let items ← listed.iterate
  forEach visit items

/-- One record under its handler. -/
def tryRecord (normalize : Json → Result (Option ValidEvent))
    (record : Json) : Result NormalizeLog :=
  attempt caught (fun failure => (failure.text, record)) (normalize record)

/-- A snapshot is a backfill of old trades and is skipped. -/
def coinbaseTrades (envelope : Json) : Result NormalizeLog := do
  let kind ← envelope.get "type" .null
  if kind.isStr "snapshot" then .ok .empty
  else
    eachListed "trades" (tryRecord (coinbaseTrade room tsIngest symbolMap))
      envelope

/-- Ticks carry no time of their own; the envelope's stands for it. -/
def envelopeTime (payload : Json) : Result Instant :=
  timeField payload "timestamp"

/-- A bad envelope timestamp rejects the whole payload. -/
def coinbaseTickers (payload : Json) : Result NormalizeLog :=
  match envelopeTime payload with
  | .ok tsEvent =>
      eachListed "events" (eachListed "tickers"
        (tryRecord (coinbaseTick tsIngest symbolMap tsEvent))) payload
  | .error failure =>
      if caught failure then
        .ok ⟨[], [("bad envelope timestamp: " ++ failure.text, payload)]⟩
      else .error failure

def normalizeCoinbase (payload : Json) : Result NormalizeLog := do
  let channel ← payload.get "channel" .null
  if channel.isStr "market_trades" then
    eachListed "events" (coinbaseTrades room tsIngest symbolMap) payload
  else if channel.isStr "ticker" then
    coinbaseTickers tsIngest symbolMap payload
  else .ok .empty

end Coinbase

def binanceTrade (room : Room) (tsIngest : Instant) (symbol : String)
    (data : Json) : Result (Option ValidEvent) := do
  let isBuyerMaker ← data.get "m" .null
  let price ← floatField data "p"
  let size ← floatField data "q"
  let tradeId ← idField room (fun value => !value.isNull) data "t"
  let tsEvent ← millisField data "T"
  some <$> MarketEvent.construct (.str symbol) (fun name =>
    { exchange := "binance_us"
      symbol := name
      eventType := .trade
      price := some price
      size := some size
      side := some (if isBuyerMaker.truthy then .sell else .buy)
      tradeId := tradeId
      tsEvent := tsEvent
      tsIngest := tsIngest })

/-- A `bookTicker` carries no event time; the ingest time stands for it. -/
def binanceTick (tsIngest : Instant) (symbol : String) (data : Json) :
    Result (Option ValidEvent) := do
  let bestBid ← optFloatField data "b"
  let bestAsk ← optFloatField data "a"
  let bestBidSize ← optFloatField data "B"
  let bestAskSize ← optFloatField data "A"
  some <$> MarketEvent.construct (.str symbol) (fun name =>
    { exchange := "binance_us"
      symbol := name
      eventType := .ticker
      bestBid := bestBid
      bestAsk := bestAsk
      bestBidSize := bestBidSize
      bestAskSize := bestAskSize
      tsEvent := tsIngest
      tsIngest := tsIngest })

def isBinanceTrade (kind data : Json) : Bool :=
  kind.isStr "trade" || data.hasKeys ["p", "q", "t", "T"]

def binanceRecord (room : Room) (tsIngest : Instant) (symbol : String)
    (data : Json) : Result (Option ValidEvent) := do
  let kind ← data.get "e" .null
  if isBinanceTrade kind data then binanceTrade room tsIngest symbol data
  else if data.hasKeys ["b", "a"] then binanceTick tsIngest symbol data
  else .ok none

/-- The canonical symbol of a message; the lookup is outside any handler. -/
def binanceSymbol (symbolMap : SymbolMap) (data : Json) :
    Result (Option String) := do
  let rawSymbol ← data.get "s" .null
  if rawSymbol.isNull then .ok none
  else rawSymbol.lookupIn symbolMap.entries

def normalizeBinanceUs (room : Room) (tsIngest : Instant)
    (symbolMap : SymbolMap) (payload : Json) : Result NormalizeLog := do
  let data ← payload.get "data" payload
  let symbol ← binanceSymbol symbolMap data
  match symbol with
  | none => .ok .empty
  | some name => tryRecord (binanceRecord room tsIngest name) data

/-- `room` is what the calls that led here leave of the recursion limit. -/
def normalizeSafe (exchange : String) (payload : Json) (tsIngest : Instant)
    (symbolMap : Option SymbolMap) (room : Room := none) :
    Result NormalizeLog :=
  if exchange = "coinbase" then
    normalizeCoinbase room tsIngest symbolMap payload
  else if exchange = "binance_us" then
    normalizeBinanceUs room tsIngest (symbolMap.getD .empty) payload
  else
    raise .valueError ("no normalizer for exchange '" ++ exchange ++ "'")

end TickStream
