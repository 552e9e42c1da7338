import TickStream.Library.ActionRun
import TickStream.Producer.Replay

/-!
# The live producer

A script gives the connections the exchange will accept, each with the
payloads it delivers and the way it ends.  The producer publishes them,
reconnects after every end and sleeps by the schedule in between; a run whose
script is over waits for the next connection.
-/

namespace TickStream

open Python Library

/-- A message as `orjson` decodes it: its integers have 64 bits. -/
structure Payload where
  members : List (String × Json)
  decoded : membersFit members = true

/-- The payloads of a connection, and what it raises after them unless the
server closes it. -/
structure Connection where
  payloads : List Payload
  failure : Option Exc := none

inductive Action where
  | connect
  | receive (tsIngest : Instant) (payload : Payload)
  | quarantine (message : QuarantineMessage)
  | produce (message : RawMessage)
  | flush
  | sleep (delay : Rat)

inductive Exit where
  | returned (published : Nat)
  | raised (failure : Exc)
deriving DecidableEq

/-- The counters of a run.  The schedule is the generator with number
`generator`, called `calls` times so far. -/
structure ProducerState where
  received : Nat := 0
  published : Nat := 0
  producedThisConn : Nat := 0
  reconnects : Nat := 0
  generator : Nat := 0
  calls : Nat := 0

abbrev ProducerRun := Run Action ProducerState Exit

/-- The arguments of a run and what it is given from outside: the clock
reading of each payload and the delays of each generator. -/
structure Service where
  settings : Settings
  requested : Option String := none
  maxMessages : Option Int := none
  maxReconnects : Option Int := none
  clock : Nat → Instant
  schedule : Nat → Nat → Result Rat

/-- `except (websockets.WebSocketException, OSError)`. -/
def disconnects (failure : Exc) : Bool :=
  failure.cls = .webSocketException || failure.cls = .osError

namespace Service

variable (service : Service)

/-- `exchange or settings.source.exchange`. -/
def exchange : String :=
  match service.requested with
  | none => service.settings.source.exchange
  | some name => if name = "" then service.settings.source.exchange else name

def quarantineReject (state : ProducerState) (reject : Reject) : ProducerRun :=
  if dumpable reject.2 then
    .act (.quarantine ⟨service.exchange, 0, reject.1, reject.2⟩) state
  else .stop (.raised (dumpFailure reject.2)) state

def produceEvent (state : ProducerState) (valid : ValidEvent) : ProducerRun :=
  .act (.produce (rawMessage service.settings valid.event))
    { state with
      published := state.published + 1
      producedThisConn := state.producedThisConn + 1 }

/-- `max_messages and published >= max_messages`. -/
def limitReached (published : Nat) : Bool :=
  service.maxMessages.any (fun limit => limit ≠ 0 && limit ≤ (published : Int))

def publishPayload (log : NormalizeLog) (state : ProducerState) :
    ProducerRun :=
  (runEach service.quarantineReject state log.refused).andThen fun state =>
    (runEach service.produceEvent state log.done).andThen fun state =>
      if service.limitReached state.published then
        (Run.act .flush state).andThen (.stop (.returned state.published))
      else .done state

def receivePayload (symbolMap : SymbolMap) (state : ProducerState)
    (payload : Payload) : ProducerRun :=
  let tsIngest := service.clock state.received
  (Run.act (.receive tsIngest payload)
      { state with received := state.received + 1 }).andThen fun state =>
    match normalizeSafe service.exchange (.obj payload.members) tsIngest
        (some symbolMap) with
    | .ok log => service.publishPayload log state
    | .error failure => .stop (.raised failure) state

/-- The `async for` loop, and what the stream raises at its end. -/
def readStream (symbolMap : SymbolMap) (connection : Connection)
    (state : ProducerState) : ProducerRun :=
  (runEach (service.receivePayload symbolMap) state connection.payloads).andThen
    fun state =>
      match connection.failure with
      | none => .done state
      | some failure => .stop (.raised failure) state

def onException : Exit → ProducerState → ProducerRun
  | .raised failure, state =>
      if disconnects failure then .act .flush state
      else .stop (.raised failure) state
  | .returned published, state => .stop (.returned published) state

/-- A connection that has produced an event resets the schedule. -/
def resetDelays (state : ProducerState) : ProducerState :=
  if 0 < state.producedThisConn then
    { state with generator := state.generator + 1, calls := 0 }
  else state

def sleepNext (state : ProducerState) : ProducerRun :=
  match service.schedule state.generator state.calls with
  | .ok delay => .act (.sleep delay) { state with calls := state.calls + 1 }
  | .error failure => .stop (.raised failure) state

def reconnect (state : ProducerState) : ProducerRun :=
  let state := { state with reconnects := state.reconnects + 1 }
  if service.maxReconnects.any (fun limit => limit < (state.reconnects : Int))
  then .stop (.returned state.published) state
  else service.sleepNext (resetDelays state)

/-- There are two clients. -/
def buildClient (settings : Settings) (exchange : String) : Result Unit :=
  if (settings.source.exchanges.get? exchange).isNone then
    let names := (settings.source.exchanges.entries.map Prod.fst).mergeSort
    raise .valueError ("unknown exchange '" ++ exchange ++ "' (have: [" ++
      ", ".intercalate (names.map (fun name => "'" ++ name ++ "'")) ++ "])")
  else if exchange = "coinbase" || exchange = "binance_us" then .ok ()
  else
    raise .valueError
      ("no client implementation for exchange '" ++ exchange ++ "'")

def runConnection (symbolMap : SymbolMap) (state : ProducerState)
    (connection : Connection) : ProducerRun :=
  match buildClient service.settings service.exchange with
  | .error failure => .stop (.raised failure) state
  | .ok () =>
      (Run.act .connect { state with producedThisConn := 0 }).andThen
        fun state =>
          ((service.readStream symbolMap connection state).handle
            onException).andThen service.reconnect

end Service

/-- `run_producer` until the script is over. -/
def runProducer (service : Service) (script : List Connection) : ProducerRun :=
  match buildSymbolMap service.settings service.exchange with
  | .error failure => .stop (.raised failure) {}
  | .ok symbolMap =>
      (runEach (service.runConnection symbolMap) {} script).lastly .flush

namespace Action

def receipt? : Action → Option (Instant × Payload)
  | .receive tsIngest payload => some (tsIngest, payload)
  | _ => none

def produced? : Action → Option RawMessage
  | .produce message => some message
  | _ => none

def quarantined? : Action → Option QuarantineMessage
  | .quarantine message => some message
  | _ => none

def slept? : Action → Option Rat
  | .sleep delay => some delay
  | _ => none

def isConnect : Action → Bool
  | .connect => true
  | _ => false

end Action

abbrev History := List Action

namespace History

def receipts (history : History) : List (Instant × Payload) :=
  history.filterMap Action.receipt?

def produced (history : History) : List RawMessage :=
  history.filterMap Action.produced?

def quarantined (history : History) : List QuarantineMessage :=
  history.filterMap Action.quarantined?

def sleeps (history : History) : List Rat :=
  history.filterMap Action.slept?

def connections (history : History) : Nat := history.countP Action.isConnect

end History

/-- Where a run stands: whether it is connected, whether its last connection
has produced an event, how many connections have, and how many sleeps it took
since the last event. -/
structure Standing where
  connected : Bool := false
  producing : Bool := false
  productive : Nat := 0
  sleeps : Nat := 0

def Standing.next (standing : Standing) : Action → Standing
  | .connect => { standing with connected := true, producing := false }
  | .sleep _ =>
      { standing with connected := false, sleeps := standing.sleeps + 1 }
  | .produce _ =>
      { standing with
        producing := true
        productive :=
          if standing.producing then standing.productive
          else standing.productive + 1
        sleeps := 0 }
  | _ => standing

def History.standing (history : History) : Standing :=
  history.foldl Standing.next {}

end TickStream
