import TickStream.Python.DateTime

/-!
# The normalized market event

`MarketEvent` is generic in its number type: the producer fills it with Python
floats, and everything that reads a record back from a raw topic sees numbers
that went through JSON, which are finite.  `ValidEvent` is what the
constructor returns, an event together with the outcome of its validator.
-/

namespace TickStream

open Python

inductive EventType where
  | trade
  | ticker
deriving DecidableEq, Repr

inductive Side where
  | buy
  | sell
deriving DecidableEq, Repr

def EventType.value : EventType → String
  | .trade => "trade"
  | .ticker => "ticker"

def Side.value : Side → String
  | .buy => "buy"
  | .sell => "sell"

structure MarketEvent (F : Type) where
  exchange : String
  symbol : String
  eventType : EventType
  price : Option F := none
  size : Option F := none
  side : Option Side := none
  tradeId : Option String := none
  bestBid : Option F := none
  bestAsk : Option F := none
  bestBidSize : Option F := none
  bestAskSize : Option F := none
  tsEvent : Instant
  tsIngest : Instant
deriving DecidableEq, Repr

namespace MarketEvent

def requirePositive (name : String) : Option PyFloat → Result Unit
  | none => .ok ()
  | some value =>
      if value.le (.fin 0) then
        raise .valueError (name ++ " must be > 0, got " ++ value.repr)
      else .ok ()

def requireNonNegative (name : String) : Option PyFloat → Result Unit
  | none => .ok ()
  | some value =>
      if value.lt (.fin 0) then
        raise .valueError (name ++ " must be >= 0, got " ++ value.repr)
      else .ok ()

def requireUncrossed : Option PyFloat → Option PyFloat → Result Unit
  | some bid, some ask =>
      if ask.lt bid then
        raise .valueError
          ("crossed book: best_ask (" ++ ask.repr ++ ") < best_bid (" ++
            bid.repr ++ ")")
      else .ok ()
  | _, _ => .ok ()

def basicContract (event : MarketEvent PyFloat) : Result Unit := do
  requirePositive "price" event.price
  requireNonNegative "size" event.size
  requireNonNegative "best_bid" event.bestBid
  requireNonNegative "best_ask" event.bestAsk
  requireNonNegative "best_bid_size" event.bestBidSize
  requireNonNegative "best_ask_size" event.bestAskSize
  requireUncrossed event.bestBid event.bestAsk

end MarketEvent

/-- An event the constructor accepted. -/
structure ValidEvent where
  event : MarketEvent PyFloat
  checked : event.basicContract = .ok ()
deriving DecidableEq

namespace MarketEvent

/-- Run the validator.  A failing validator surfaces as a `ValidationError`;
of its report only the line with the validator's message is kept. -/
def validate (event : MarketEvent PyFloat) : Result ValidEvent :=
  match checked : event.basicContract with
  | .ok () => .ok ⟨event, checked⟩
  | .error failure =>
      raise .validationError ("Value error, " ++ failure.text)

/-- The constructor call.  Of the field types only `symbol` can be wrong: it
may be any decoded value, the other arguments are built by the caller. -/
def construct (symbol : Json) (fields : String → MarketEvent PyFloat) :
    Result ValidEvent :=
  match symbol with
  | .str name => validate (fields name)
  | _ => raise .validationError "symbol: Input should be a valid string"

theorem validate_ok_iff {event : MarketEvent PyFloat} {valid : ValidEvent} :
    validate event = .ok valid ↔ valid.event = event := by
  constructor
  · intro validated
    simp only [validate] at validated
    split at validated
    · cases validated
      rfl
    · cases validated
  · intro same
    subst same
    simp only [validate]
    split
    · rfl
    · rename_i failure failed
      rw [valid.checked] at failed
      cases failed

theorem validate_eq_error {event : MarketEvent PyFloat} {failure : Exc}
    (failed : event.basicContract = .error failure) :
    validate event =
      raise .validationError ("Value error, " ++ failure.text) := by
  simp only [validate]
  split
  · rename_i checked
    rw [failed] at checked
    cases checked
  · rename_i other otherFailed
    rw [failed] at otherFailed
    cases otherFailed
    rfl

private theorem requirePositive_ok_iff {name : String}
    {field : Option PyFloat} :
    requirePositive name field = .ok () ↔
      ∀ value, field = some value → value.le (.fin 0) = false := by
  cases field with
  | none => simp [requirePositive]
  | some value =>
      by_cases small : value.le (.fin 0) = true
      · simp [requirePositive, small, raise]
      · simp [requirePositive, small]

private theorem requireNonNegative_ok_iff {name : String}
    {field : Option PyFloat} :
    requireNonNegative name field = .ok () ↔
      ∀ value, field = some value → value.lt (.fin 0) = false := by
  cases field with
  | none => simp [requireNonNegative]
  | some value =>
      by_cases small : value.lt (.fin 0) = true
      · simp [requireNonNegative, small, raise]
      · simp [requireNonNegative, small]

private theorem requireUncrossed_ok_iff {bid ask : Option PyFloat} :
    requireUncrossed bid ask = .ok () ↔
      ∀ bidValue askValue, bid = some bidValue → ask = some askValue →
        askValue.lt bidValue = false := by
  cases bid with
  | none => simp [requireUncrossed]
  | some bidValue =>
      cases ask with
      | none => simp [requireUncrossed]
      | some askValue =>
          by_cases crossed : askValue.lt bidValue = true
          · simp [requireUncrossed, crossed, raise]
          · simp [requireUncrossed, crossed]

private theorem seq_ok_iff {first second : Result Unit} :
    (first >>= fun _ => second) = .ok () ↔ first = .ok () ∧ second = .ok () := by
  cases first with
  | error failure => simp [bind, Except.bind]
  | ok value => simp [bind, Except.bind]

/-- What the validator checks, field by field. -/
theorem basicContract_ok_iff {event : MarketEvent PyFloat} :
    event.basicContract = .ok () ↔
      (∀ value, event.price = some value → value.le (.fin 0) = false) ∧
      (∀ value, event.size = some value → value.lt (.fin 0) = false) ∧
      (∀ value, event.bestBid = some value → value.lt (.fin 0) = false) ∧
      (∀ value, event.bestAsk = some value → value.lt (.fin 0) = false) ∧
      (∀ value, event.bestBidSize = some value → value.lt (.fin 0) = false) ∧
      (∀ value, event.bestAskSize = some value → value.lt (.fin 0) = false) ∧
      (∀ bid ask, event.bestBid = some bid → event.bestAsk = some ask →
        ask.lt bid = false) := by
  simp only [basicContract, seq_ok_iff, requirePositive_ok_iff,
    requireNonNegative_ok_iff, requireUncrossed_ok_iff]

end MarketEvent

namespace Python.PyFloat

/-- The number JSON carries; NaN and the infinities are written as null. -/
def toJson : PyFloat → Option Rat
  | .fin value => some value
  | _ => none

theorem toJson_eq_some_iff {float : PyFloat} {value : Rat} :
    float.toJson = some value ↔ float = .fin value := by
  cases float <;> simp [toJson]

end Python.PyFloat

namespace MarketEvent

/-- The record under a message value, as the consumers decode it. -/
def toJsonBytes (event : MarketEvent PyFloat) : MarketEvent Rat :=
  { exchange := event.exchange
    symbol := event.symbol
    eventType := event.eventType
    price := event.price.bind PyFloat.toJson
    size := event.size.bind PyFloat.toJson
    side := event.side
    tradeId := event.tradeId
    bestBid := event.bestBid.bind PyFloat.toJson
    bestAsk := event.bestAsk.bind PyFloat.toJson
    bestBidSize := event.bestBidSize.bind PyFloat.toJson
    bestAskSize := event.bestAskSize.bind PyFloat.toJson
    tsEvent := event.tsEvent
    tsIngest := event.tsIngest }

/-- The constructor arguments a decoded record supplies. -/
def ofJson (record : MarketEvent Rat) : MarketEvent PyFloat :=
  { exchange := record.exchange
    symbol := record.symbol
    eventType := record.eventType
    price := record.price.map PyFloat.fin
    size := record.size.map PyFloat.fin
    side := record.side
    tradeId := record.tradeId
    bestBid := record.bestBid.map PyFloat.fin
    bestAsk := record.bestAsk.map PyFloat.fin
    bestBidSize := record.bestBidSize.map PyFloat.fin
    bestAskSize := record.bestAskSize.map PyFloat.fin
    tsEvent := record.tsEvent
    tsIngest := record.tsIngest }

def fromJsonBytes (record : MarketEvent Rat) : Result ValidEvent :=
  validate record.ofJson

/-- The partition key of a message. -/
def key {F : Type} (event : MarketEvent F) : String := event.symbol

private theorem bind_toJson_map_fin_eq_some {field : Option PyFloat}
    {float : PyFloat} :
    (field.bind PyFloat.toJson).map PyFloat.fin = some float ↔
      field = some float ∧ float.isFinite = true := by
  cases field with
  | none => simp
  | some value => cases value <;> cases float <;> simp [PyFloat.toJson, PyFloat.isFinite]

/-- A published record decodes: dropping the non-finite numbers of an accepted
event leaves an acceptable event. -/
theorem fromJsonBytes_toJsonBytes (valid : ValidEvent) :
    ∃ decoded, fromJsonBytes valid.event.toJsonBytes = .ok decoded ∧
      decoded.event = valid.event.toJsonBytes.ofJson := by
  have checks := basicContract_ok_iff.mp valid.checked
  obtain ⟨price, size, bid, ask, bidSize, askSize, uncrossed⟩ := checks
  have checked : valid.event.toJsonBytes.ofJson.basicContract = .ok () := by
    rw [basicContract_ok_iff]
    simp only [ofJson, toJsonBytes, bind_toJson_map_fin_eq_some]
    refine ⟨?_, ?_, ?_, ?_, ?_, ?_, ?_⟩
    · intro value present
      exact price value present.1
    · intro value present
      exact size value present.1
    · intro value present
      exact bid value present.1
    · intro value present
      exact ask value present.1
    · intro value present
      exact bidSize value present.1
    · intro value present
      exact askSize value present.1
    · intro bidValue askValue bidPresent askPresent
      exact uncrossed bidValue askValue bidPresent.1 askPresent.1
  exact ⟨⟨_, checked⟩, validate_ok_iff.mpr rfl, rfl⟩

end MarketEvent

/-- An accepted event whose numbers are finite, as a raw topic carries it. -/
structure FiniteEvent where
  event : MarketEvent Rat
  checked : event.ofJson.basicContract = .ok ()
deriving DecidableEq

/-- No size is negative. -/
def SizesNonneg (events : List (MarketEvent Rat)) : Prop :=
  ∀ event ∈ events, ∀ size, event.size = some size → 0 ≤ size

theorem FiniteEvent.sizesNonneg (events : List FiniteEvent) :
    SizesNonneg (events.map FiniteEvent.event) := by
  intro event member size present
  obtain ⟨finite, _, same⟩ := List.mem_map.mp member
  subst same
  obtain ⟨_, sizes, _⟩ := MarketEvent.basicContract_ok_iff.mp finite.checked
  have notNegative := sizes (.fin size) (by simp [MarketEvent.ofJson, present])
  simpa [PyFloat.lt] using notNegative

end TickStream
