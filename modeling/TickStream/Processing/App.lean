import TickStream.Library.WatermarkMachine
import TickStream.Processing.Metrics

/-!
# The stream processor

Each raw topic feeds one dataframe: a derived column is computed for every
message, then every window size aggregates the messages on its own.  Windows
are tumbling, keyed by the message key and closed by the watermark of their
key.  A null operand in a derived column raises and stops the processor; what
was emitted before stays emitted.
-/

namespace TickStream

open Python Library

/-- A message of a dataframe, with its derived columns. -/
structure Row (F C : Type) where
  value : MarketEvent F
  columns : C

inductive Source where
  | trades
  | ticker
deriving DecidableEq, Repr

/-- A value of `metrics.windowed`. -/
structure WindowRecord (F : Type) where
  source : Source
  metrics : WindowMetrics F
deriving DecidableEq, Repr

/-- Event time in milliseconds, rounded toward zero.  The source goes through
doubles; `run_double` says what they make of it. -/
def extractTs {F : Type} (value : MarketEvent F) : Int :=
  value.tsEvent.tdiv 1000

def msToIso (ms : Int) : Instant := ms * 1000

/-- Windows of `secs` seconds that stay open for `graceSeconds` more. -/
def tumblingWindow {α β : Type} (key : α → String) (timestamp : α → Int)
    (secs graceSeconds : Nat) (init : β) (step : β → α → β) :
    WindowedFold α String β where
  key := key
  time := timestamp
  start := fun message => timestamp message - timestamp message % (1000 * secs)
  expiry := fun start => start + 1000 * secs + 1000 * graceSeconds
  init := init
  step := step

/-- The events that reach their window before it has expired. -/
def withoutLate {F : Type} (secs graceSeconds : Nat)
    (events : List (MarketEvent F)) : List (MarketEvent F) :=
  (tumblingWindow MarketEvent.key extractTs secs graceSeconds ()
    (fun _ _ => ())).onTime events

/-- What the processor registers for one raw topic. -/
structure Topic (F C β : Type) where
  columns : MarketEvent F → Result C
  init : β
  step : β → C → β
  finalize : (label : String) → (symbol : String) → (start stop : Int) → β →
    WindowRecord F

/-- What a topic emits, and the error that stopped it, if one did. -/
structure Outcome (F : Type) where
  emitted : List (WindowRecord F)
  stopped : Option Exc

namespace Topic

variable {F C β : Type} (topic : Topic F C β) (graceSeconds : Nat)

/-- The windowed aggregation of one window size. -/
def branch (size : String × Nat) :
    Branch (Row F C) String β (WindowRecord F) where
  fold := tumblingWindow (fun row => row.value.key)
    (fun row => extractTs row.value) size.2 graceSeconds topic.init
    (fun agg row => topic.step agg row.columns)
  finalize := fun window agg =>
    topic.finalize size.1 window.1 window.2 (window.2 + 1000 * size.2) agg

def branches : List (Branch (Row F C) String β (WindowRecord F)) :=
  windowSizes.map (topic.branch graceSeconds)

/-- Process one message: derive its columns, then hand it to every branch. -/
def receive (states : List (WindowedFold.State String β))
    (value : MarketEvent F) :
    Result (List (WindowedFold.State String β) × List (WindowRecord F)) :=
  match topic.columns value with
  | .error failure => .error failure
  | .ok columns =>
      .ok (Branch.receiveAll (topic.branches graceSeconds) states
        ⟨value, columns⟩)

def runFrom (states : List (WindowedFold.State String β)) :
    List (MarketEvent F) → Outcome F
  | [] => ⟨[], none⟩
  | value :: rest =>
      match topic.receive graceSeconds states value with
      | .error failure => ⟨[], some failure⟩
      | .ok (next, sent) =>
          let later := runFrom next rest
          ⟨sent ++ later.emitted, later.stopped⟩

/-- Process the messages of the topic in order. -/
def run (values : List (MarketEvent F)) : Outcome F :=
  topic.runFrom graceSeconds
    ((topic.branches graceSeconds).map (fun _ => WindowedFold.State.initial))
    values

/-- The messages processed before the first that has no columns. -/
def rows : List (MarketEvent F) → List (Row F C)
  | [] => []
  | value :: rest =>
      match topic.columns value with
      | .error _ => []
      | .ok columns => ⟨value, columns⟩ :: rows rest

theorem rows_columns {values : List (MarketEvent F)} {row : Row F C}
    (member : row ∈ topic.rows values) :
    topic.columns row.value = .ok row.columns := by
  induction values with
  | nil => simp [rows] at member
  | cons value rest induction =>
      simp only [rows] at member
      cases defined : topic.columns value with
      | error failure => simp [defined] at member
      | ok columns =>
          rw [defined] at member
          rcases List.mem_cons.mp member with head | tail
          · subst head
            exact defined
          · exact induction tail

theorem rows_initial (values : List (MarketEvent F)) :
    (topic.rows values).map Row.value <+: values := by
  induction values with
  | nil => simp [rows]
  | cons value rest induction =>
      simp only [rows]
      cases topic.columns value with
      | error failure => simp
      | ok columns => simpa using induction

/-- The processor stops exactly at a message without columns. -/
theorem runFrom_stopped (states : List (WindowedFold.State String β))
    (values : List (MarketEvent F)) :
    (topic.runFrom graceSeconds states values).stopped = none ↔
      (topic.rows values).map Row.value = values := by
  induction values generalizing states with
  | nil => simp [runFrom, rows]
  | cons value rest induction =>
      cases defined : topic.columns value with
      | error failure => simp [runFrom, rows, receive, defined]
      | ok columns => simp [runFrom, rows, receive, defined, induction]

private theorem runFrom_emitted (states : List (WindowedFold.State String β))
    (earlier : List (WindowRecord F)) (values : List (MarketEvent F)) :
    ((topic.rows values).foldl
      (fun outcome row =>
        let next :=
          Branch.receiveAll (topic.branches graceSeconds) outcome.1 row
        (next.1, outcome.2 ++ next.2))
      (states, earlier)).2 =
        earlier ++ (topic.runFrom graceSeconds states values).emitted := by
  induction values generalizing states earlier with
  | nil => simp [runFrom, rows]
  | cons value rest induction =>
      cases defined : topic.columns value with
      | error failure => simp [runFrom, rows, receive, defined]
      | ok columns => simp [runFrom, rows, receive, defined, induction]

/-- A topic emits what its branches emit on the processed messages. -/
theorem run_emitted_perm (values : List (MarketEvent F)) :
    (topic.run graceSeconds values).emitted.Perm
      ((topic.branches graceSeconds).flatMap
        (fun branch => branch.sent (topic.rows values))) := by
  have emitted := topic.runFrom_emitted graceSeconds
    ((topic.branches graceSeconds).map (fun _ => WindowedFold.State.initial))
    [] values
  rw [List.nil_append] at emitted
  simp only [run]
  rw [← emitted]
  exact (Branch.runAll_tracks (topic.branches graceSeconds)
    (topic.rows values)).2

end Topic

section Pipeline

variable {F : Type} [Zero F] [Add F] [Sub F] [Mul F] [Div F] [NatCast F]

/-- The class name of an operand decoded from JSON. -/
def operandName : Option F → String
  | some _ => "float"
  | none => "NoneType"

def operandError (operator : String) (left right : Option F) : String :=
  "unsupported operand type(s) for " ++ operator ++ ": '" ++
    operandName left ++ "' and '" ++ operandName right ++ "'"

structure TradeColumns (F : Type) where
  pv : F
  size : F

def tradeColumns (value : MarketEvent F) : Result (TradeColumns F) :=
  match value.price, value.size with
  | some price, some size => .ok { pv := price * size, size := size }
  | price, size => raise .typeError (operandError "*" price size)

/-- The aggregates of a trade window. -/
structure TradeAgg (F : Type) where
  pv : F
  volume : F
  count : Nat

def TradeAgg.initial : TradeAgg F := { pv := 0, volume := 0, count := 0 }

def TradeAgg.add (agg : TradeAgg F) (columns : TradeColumns F) : TradeAgg F :=
  { pv := agg.pv + columns.pv
    volume := agg.volume + columns.size
    count := agg.count + 1 }

structure TickerColumns (F : Type) where
  spread : F
  mid : F

def tickerColumns (value : MarketEvent F) : Result (TickerColumns F) :=
  match value.bestAsk, value.bestBid with
  | some ask, some bid =>
      .ok { spread := ask - bid, mid := (ask + bid) / ((2 : Nat) : F) }
  | ask, bid => raise .typeError (operandError "-" ask bid)

/-- The running state of a mean. -/
structure Mean (F : Type) where
  total : F
  count : Nat

def Mean.initial : Mean F := { total := 0, count := 0 }

def Mean.add (mean : Mean F) (value : F) : Mean F :=
  { total := mean.total + value, count := mean.count + 1 }

def Mean.value (mean : Mean F) : F := mean.total / (mean.count : F)

/-- The aggregates of a ticker window. -/
structure TickerAgg (F : Type) where
  spread : Mean F
  mid : Mean F
  count : Nat

def TickerAgg.initial : TickerAgg F :=
  { spread := Mean.initial, mid := Mean.initial, count := 0 }

def TickerAgg.add (agg : TickerAgg F) (columns : TickerColumns F) :
    TickerAgg F :=
  { spread := agg.spread.add columns.spread
    mid := agg.mid.add columns.mid
    count := agg.count + 1 }

def finalizeTickerWindow (label symbol : String) (start stop : Int)
    (agg : TickerAgg F) : WindowRecord F :=
  { source := .ticker
    metrics :=
      { symbol := symbol
        windowSize := label
        windowStart := msToIso start
        windowEnd := msToIso stop
        vwap := none
        tradeVolume := 0
        tradeCount := 0
        avgSpread := some agg.spread.value
        avgMid := some agg.mid.value
        tickerCount := agg.count
        eventCount := agg.count } }

def tickerTopic : Topic F (TickerColumns F) (TickerAgg F) where
  columns := tickerColumns
  init := TickerAgg.initial
  step := TickerAgg.add
  finalize := finalizeTickerWindow

variable [LT F] [DecidableLT F]

def finalizeTradeWindow (label symbol : String) (start stop : Int)
    (agg : TradeAgg F) : WindowRecord F :=
  { source := .trades
    metrics :=
      { symbol := symbol
        windowSize := label
        windowStart := msToIso start
        windowEnd := msToIso stop
        vwap := if 0 < agg.volume then some (agg.pv / agg.volume) else none
        tradeVolume := agg.volume
        tradeCount := agg.count
        avgSpread := none
        avgMid := none
        tickerCount := 0
        eventCount := agg.count } }

def tradesTopic : Topic F (TradeColumns F) (TradeAgg F) where
  columns := tradeColumns
  init := TradeAgg.initial
  step := TradeAgg.add
  finalize := finalizeTradeWindow

omit [Zero F] [Add F] [Sub F] [Div F] [NatCast F] [LT F] [DecidableLT F] in
theorem tradeColumns_ok_iff {value : MarketEvent F} :
    (∃ columns, tradeColumns value = .ok columns) ↔
      value.price.isSome = true ∧ value.size.isSome = true := by
  simp only [tradeColumns]
  cases value.price with
  | none => simp [raise]
  | some price =>
      cases value.size with
      | none => simp [raise]
      | some size => simp

omit [Zero F] [Mul F] [LT F] [DecidableLT F] in
theorem tickerColumns_ok_iff {value : MarketEvent F} :
    (∃ columns, tickerColumns value = .ok columns) ↔
      value.bestBid.isSome = true ∧ value.bestAsk.isSome = true := by
  simp only [tickerColumns]
  cases value.bestAsk with
  | none => simp [raise]
  | some ask =>
      cases value.bestBid with
      | none => simp [raise]
      | some bid => simp

end Pipeline

end TickStream
