import TickStream.Library.TryEach
import TickStream.Schema

/-!
# Events on the wire

An event is dumped to a dictionary by pydantic, written by `orjson`, parsed by
pydantic and validated field by field.  The two libraries' own scalars, texts
of numbers and of times, are parameters.
-/

namespace TickStream

open Python Library

def EventType.ofValue : String → Option EventType
  | "trade" => some .trade
  | "ticker" => some .ticker
  | _ => none

def Side.ofValue : String → Option Side
  | "buy" => some .buy
  | "sell" => some .sell
  | _ => none

theorem EventType.ofValue_value (eventType : EventType) :
    ofValue eventType.value = some eventType := by
  cases eventType <;> rfl

theorem Side.ofValue_value (side : Side) : ofValue side.value = some side := by
  cases side <;> rfl

/-- The libraries: `orjson.dumps`, the JSON parser of pydantic, its text of a
datetime, and its validators of floats and datetimes. -/
structure WireCodec where
  dumps : Json → Bytes
  loads : Bytes → Result Json
  isoformat : Instant → String
  validateFloat : Json → Result PyFloat
  validateDatetime : Json → Result Instant

def optional {α : Type} (write : α → Json) : Option α → Json
  | none => .null
  | some value => write value

namespace WireCodec

variable (codec : WireCodec)

/-- `model_dump(mode="json")`. -/
def modelDump (event : MarketEvent PyFloat) : List (String × Json) :=
  [("exchange", .str event.exchange),
    ("symbol", .str event.symbol),
    ("event_type", .str event.eventType.value),
    ("price", optional .float event.price),
    ("size", optional .float event.size),
    ("side", optional (fun side => .str side.value) event.side),
    ("trade_id", optional .str event.tradeId),
    ("best_bid", optional .float event.bestBid),
    ("best_ask", optional .float event.bestAsk),
    ("best_bid_size", optional .float event.bestBidSize),
    ("best_ask_size", optional .float event.bestAskSize),
    ("ts_event", .str (codec.isoformat event.tsEvent)),
    ("ts_ingest", .str (codec.isoformat event.tsIngest))]

def toJsonBytes (event : MarketEvent PyFloat) : Bytes :=
  codec.dumps (.obj (codec.modelDump event))

def fieldNames : List String :=
  ["exchange", "symbol", "event_type", "price", "size", "side", "trade_id",
    "best_bid", "best_ask", "best_bid_size", "best_ask_size", "ts_event",
    "ts_ingest"]

/-- `extra="forbid"`. -/
def forbidExtra (members : List (String × Json)) : Result Unit :=
  match members.find? (fun entry => !fieldNames.contains entry.1) with
  | none => .ok ()
  | some entry =>
      raise .validationError (entry.1 ++ ": Extra inputs are not permitted")

def requiredField {α : Type} (validate : Json → Result α)
    (members : List (String × Json)) (name : String) : Result α :=
  match Json.member? members name with
  | none => raise .validationError (name ++ ": Field required")
  | some value => validate value

def optionalField {α : Type} (validate : Json → Result α)
    (members : List (String × Json)) (name : String) : Result (Option α) :=
  match Json.member? members name with
  | none => .ok none
  | some .null => .ok none
  | some value => some <$> validate value

def validateStr : Json → Result String
  | .str text => .ok text
  | _ => raise .validationError "Input should be a valid string"

/-- An enumeration is given by its values. -/
def validateEnum {α : Type} (ofValue : String → Option α) (choices : String) :
    Json → Result α
  | .str text =>
      match ofValue text with
      | some found => .ok found
      | none => raise .validationError ("Input should be " ++ choices)
  | _ => raise .validationError ("Input should be " ++ choices)

def validateEventType : Json → Result EventType :=
  validateEnum EventType.ofValue "'trade' or 'ticker'"

def validateSide : Json → Result Side :=
  validateEnum Side.ofValue "'buy' or 'sell'"

def modelValidate (members : List (String × Json)) : Result ValidEvent := do
  let exchange ← requiredField validateStr members "exchange"
  let symbol ← requiredField validateStr members "symbol"
  let eventType ← requiredField validateEventType members "event_type"
  let price ← optionalField codec.validateFloat members "price"
  let size ← optionalField codec.validateFloat members "size"
  let side ← optionalField validateSide members "side"
  let tradeId ← optionalField validateStr members "trade_id"
  let bestBid ← optionalField codec.validateFloat members "best_bid"
  let bestAsk ← optionalField codec.validateFloat members "best_ask"
  let bestBidSize ← optionalField codec.validateFloat members "best_bid_size"
  let bestAskSize ← optionalField codec.validateFloat members "best_ask_size"
  let tsEvent ← requiredField codec.validateDatetime members "ts_event"
  let tsIngest ← requiredField codec.validateDatetime members "ts_ingest"
  forbidExtra members
  MarketEvent.validate
    { exchange := exchange
      symbol := symbol
      eventType := eventType
      price := price
      size := size
      side := side
      tradeId := tradeId
      bestBid := bestBid
      bestAsk := bestAsk
      bestBidSize := bestBidSize
      bestAskSize := bestAskSize
      tsEvent := tsEvent
      tsIngest := tsIngest }

/-- `model_validate_json`. -/
def fromJsonBytes (data : Bytes) : Result ValidEvent := do
  let value ← codec.loads data
  match value with
  | .obj members => codec.modelValidate members
  | _ =>
      raise .validationError
        "Input should be a valid dictionary or instance of MarketEvent"

/-- What is read where a value was written: NaN and the infinities become
null. -/
def written : Json → Json
  | .float (.fin value) => .float (.fin value)
  | .float _ => .null
  | other => other

/-- The dictionary a reader finds in the bytes. -/
def received (event : MarketEvent PyFloat) : List (String × Json) :=
  (codec.modelDump event).map (fun entry => (entry.1, written entry.2))

/-- The libraries write and read the scalars of an event without loss, except
for the floats that JSON does not have. -/
structure Carries (event : MarketEvent PyFloat) : Prop where
  parsed : codec.loads (codec.dumps (.obj (codec.modelDump event))) =
    .ok (.obj (codec.received event))
  floats : ∀ value, codec.validateFloat (.float (.fin value)) =
    .ok (.fin value)
  tsEvent : codec.validateDatetime (.str (codec.isoformat event.tsEvent)) =
    .ok event.tsEvent
  tsIngest : codec.validateDatetime (.str (codec.isoformat event.tsIngest)) =
    .ok event.tsIngest

section RoundTrip

variable {codec} {event : MarketEvent PyFloat}
  {members : List (String × Json)} {name : String}

private theorem member?_written :
    Json.member? (members.map (fun entry => (entry.1, written entry.2))) name =
      (Json.member? members name).map written := by
  induction members with
  | nil => rfl
  | cons entry rest induction =>
      by_cases same : entry.1 = name
      · simp [Json.member?, same]
      · simpa [Json.member?, same] using induction

theorem requiredField_eq {α : Type} {validate : Json → Result α} {value : Json}
    (found : Json.member? members name = some value) :
    requiredField validate members name = validate value := by
  simp only [requiredField, found]

theorem optionalField_float
    (floats : ∀ value, codec.validateFloat (.float (.fin value)) =
      .ok (.fin value)) {field : Option PyFloat}
    (found : Json.member? members name =
      some (written (optional .float field))) :
    optionalField codec.validateFloat members name =
      .ok ((field.bind PyFloat.toJson).map PyFloat.fin) := by
  cases field with
  | none => simp only [optionalField, found, optional, written]; rfl
  | some float =>
      cases float with
      | fin value =>
          simp only [optionalField, found, optional, written, floats]
          rfl
      | nan => simp only [optionalField, found, optional, written]; rfl
      | inf negative =>
          simp only [optionalField, found, optional, written]
          rfl

private theorem optionalField_side {field : Option Side}
    (found : Json.member? members name =
      some (written (optional (fun side => .str side.value) field))) :
    optionalField validateSide members name = .ok field := by
  cases field with
  | none => simp only [optionalField, found, optional, written]
  | some side =>
      simp only [optionalField, found, optional, written, validateSide,
        validateEnum, Side.ofValue_value]
      rfl

private theorem optionalField_str {field : Option String}
    (found : Json.member? members name =
      some (written (optional .str field))) :
    optionalField validateStr members name = .ok field := by
  cases field with
  | none => simp only [optionalField, found, optional, written]
  | some text => simp only [optionalField, found, optional, written]; rfl

private theorem member?_received {value : Json}
    (present : Json.member? (codec.modelDump event) name = some value) :
    Json.member? (codec.received event) name = some (written value) := by
  rw [received, member?_written, present]
  rfl

private theorem modelValidate_received (carries : codec.Carries event) :
    codec.modelValidate (codec.received event) =
      MarketEvent.fromJsonBytes event.toJsonBytes := by
  have known : forbidExtra (codec.received event) = .ok () := rfl
  have text : ∀ value, validateStr (written (.str value)) = .ok value :=
    fun _ => rfl
  have eventType : validateEventType (written (.str event.eventType.value)) =
      .ok event.eventType := by
    simp only [written, validateEventType, validateEnum,
      EventType.ofValue_value]
  have tsEvent : codec.validateDatetime
      (written (.str (codec.isoformat event.tsEvent))) = .ok event.tsEvent :=
    carries.tsEvent
  have tsIngest : codec.validateDatetime
      (written (.str (codec.isoformat event.tsIngest))) = .ok event.tsIngest :=
    carries.tsIngest
  have found : ∀ name value,
      Json.member? (codec.modelDump event) name = some value →
        Json.member? (codec.received event) name = some (written value) :=
    fun _ _ present => member?_received present
  simp only [modelValidate, known, text, eventType, tsEvent, tsIngest,
    requiredField_eq (found "exchange" _ rfl),
    requiredField_eq (found "symbol" _ rfl),
    requiredField_eq (found "event_type" _ rfl),
    optionalField_float carries.floats (found "price" _ rfl),
    optionalField_float carries.floats (found "size" _ rfl),
    optionalField_side (found "side" _ rfl),
    optionalField_str (found "trade_id" _ rfl),
    optionalField_float carries.floats (found "best_bid" _ rfl),
    optionalField_float carries.floats (found "best_ask" _ rfl),
    optionalField_float carries.floats (found "best_bid_size" _ rfl),
    optionalField_float carries.floats (found "best_ask_size" _ rfl),
    requiredField_eq (found "ts_event" _ rfl),
    requiredField_eq (found "ts_ingest" _ rfl)]
  rfl

/-- What is decoded from the bytes is the record the consumers are modelled
on. -/
theorem fromJsonBytes_toJsonBytes (carries : codec.Carries event) :
    codec.fromJsonBytes (codec.toJsonBytes event) =
      MarketEvent.fromJsonBytes event.toJsonBytes := by
  simp only [fromJsonBytes, toJsonBytes, carries.parsed]
  exact modelValidate_received carries

end RoundTrip

end WireCodec

/-- Every number an event carries is finite. -/
def MarketEvent.AllFinite (event : MarketEvent PyFloat) : Prop :=
  ∀ field ∈ [event.price, event.size, event.bestBid, event.bestAsk,
      event.bestBidSize, event.bestAskSize],
    ∀ float, field = some float → float.isFinite = true

private theorem bind_toJson_map_fin_eq_iff {field : Option PyFloat} :
    (field.bind PyFloat.toJson).map PyFloat.fin = field ↔
      ∀ float, field = some float → float.isFinite = true := by
  cases field with
  | none => simp
  | some float => cases float <;> simp [PyFloat.toJson, PyFloat.isFinite]

theorem MarketEvent.ofJson_toJsonBytes_iff {event : MarketEvent PyFloat} :
    event.toJsonBytes.ofJson = event ↔ event.AllFinite := by
  obtain ⟨exchange, symbol, eventType, price, size, side, tradeId, bestBid,
    bestAsk, bestBidSize, bestAskSize, tsEvent, tsIngest⟩ := event
  simp only [toJsonBytes, ofJson, AllFinite, mk.injEq, List.forall_mem_cons,
    bind_toJson_map_fin_eq_iff, true_and, and_true, List.not_mem_nil,
    false_imp_iff, implies_true]

/-- An accepted event always decodes, and to itself exactly when its numbers
are finite. -/
theorem wire_roundTrip_iff (codec : WireCodec) (event : ValidEvent)
    (carries : codec.Carries event.event) :
    (∃ decoded, codec.fromJsonBytes (codec.toJsonBytes event.event) =
        .ok decoded) ∧
      (codec.fromJsonBytes (codec.toJsonBytes event.event) = .ok event ↔
        event.event.AllFinite) := by
  obtain ⟨decoded, ran, same⟩ := MarketEvent.fromJsonBytes_toJsonBytes event
  rw [WireCodec.fromJsonBytes_toJsonBytes carries, ran]
  refine ⟨⟨decoded, rfl⟩, ?_⟩
  rw [← MarketEvent.ofJson_toJsonBytes_iff, ← same, Except.ok.injEq]
  constructor
  · intro equal
    rw [equal]
  · intro equal
    obtain ⟨event, checked⟩ := event
    obtain ⟨other, otherChecked⟩ := decoded
    cases equal
    rfl

/-- A trade of one unit at a price. -/
def tradeAt (price : PyFloat) : MarketEvent PyFloat where
  exchange := "coinbase"
  symbol := "BTC-USD"
  eventType := .trade
  price := some price
  size := some (.fin 1)
  tsEvent := 0
  tsIngest := 0

/-- Its line, given the text of the price. -/
def tradeLine (price : String) : Bytes :=
  ("\x7b\"exchange\":\"coinbase\",\"symbol\":\"BTC-USD\"," ++
    "\"event_type\":\"trade\",\"price\":" ++ price ++ ",\"size\":1.0," ++
    "\"side\":null,\"trade_id\":null,\"best_bid\":null,\"best_ask\":null," ++
    "\"best_bid_size\":null,\"best_ask_size\":null," ++
    "\"ts_event\":\"1970-01-01T00:00:00Z\"," ++
    "\"ts_ingest\":\"1970-01-01T00:00:00Z\"\x7d").toUTF8.data.toList

/-- The libraries, as far as one line needs them. -/
def lineCodec (price : Json) (text : String) : WireCodec where
  dumps _ := tradeLine text
  loads data :=
    if data = tradeLine text then
      .ok (.obj [("exchange", .str "coinbase"), ("symbol", .str "BTC-USD"),
        ("event_type", .str "trade"), ("price", price),
        ("size", .float (.fin 1)), ("side", .null), ("trade_id", .null),
        ("best_bid", .null), ("best_ask", .null), ("best_bid_size", .null),
        ("best_ask_size", .null), ("ts_event", .str "1970-01-01T00:00:00Z"),
        ("ts_ingest", .str "1970-01-01T00:00:00Z")])
    else raise .validationError "Invalid JSON"
  isoformat _ := "1970-01-01T00:00:00Z"
  validateFloat
    | .float value => .ok value
    | _ => raise .validationError "Input should be a valid number"
  validateDatetime
    | .str "1970-01-01T00:00:00Z" => .ok 0
    | _ => raise .validationError "Input should be a valid datetime"

theorem lineCodec_carries {price : PyFloat} {text : String} {found : Json}
    (same : WireCodec.written (.float price) = found) :
    (lineCodec found text).Carries (tradeAt price) where
  parsed := by
    rw [← same]
    exact if_pos rfl
  floats _ := rfl
  tsEvent := rfl
  tsIngest := rfl

theorem wire_roundTrip_sample :
    let codec := lineCodec (.float (.fin 42000)) "42000.0"
    let event : ValidEvent := ⟨tradeAt (.fin 42000), by decide +kernel⟩
    (∃ decoded, codec.fromJsonBytes (codec.toJsonBytes event.event) =
        .ok decoded) ∧
      (codec.fromJsonBytes (codec.toJsonBytes event.event) = .ok event ↔
        event.event.AllFinite) :=
  wire_roundTrip_iff (lineCodec (.float (.fin 42000)) "42000.0")
    ⟨tradeAt (.fin 42000), by decide +kernel⟩ (lineCodec_carries rfl)

/-- An infinite price is accepted and comes back as no price. -/
theorem wire_loses_infinity :
    ∃ (codec : WireCodec) (event : ValidEvent), codec.Carries event.event ∧
      codec.fromJsonBytes (codec.toJsonBytes event.event) ≠ .ok event := by
  have carries : (lineCodec .null "null").Carries (tradeAt (.inf false)) :=
    lineCodec_carries rfl
  refine ⟨_, ⟨tradeAt (.inf false), by decide +kernel⟩, carries, ?_⟩
  intro returned
  rw [WireCodec.fromJsonBytes_toJsonBytes carries] at returned
  have price := congrArg MarketEvent.price
    (MarketEvent.validate_ok_iff.mp returned)
  cases price

end TickStream
