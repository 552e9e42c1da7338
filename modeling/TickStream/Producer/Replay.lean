import TickStream.Producer.Publisher
import TickStream.Producer.Recording

/-!
# Replay

A fixture is published message by message, each normalized under the clock
reading of its turn.  Pacing and the symbol-map cache change nothing that is
published and are left out, as is the time stamp of a quarantine record.
-/

namespace TickStream

open Python Library

structure RawMessage where
  topic : String
  key : String
  value : MarketEvent Rat
deriving DecidableEq, Repr

structure QuarantineMessage where
  exchange : String
  seq : Int
  reason : String
  payload : Json
deriving Repr

/-- Produce a quarantine record for every reject, up to one that cannot be
written. -/
def quarantineRejects (message : RecordedMessage) :
    List Reject → List QuarantineMessage × Result Unit
  | [] => ([], .ok ())
  | (reason, sub) :: rest =>
      if dumpable sub then
        let (others, outcome) := quarantineRejects message rest
        (⟨message.exchange, message.seq, reason, sub⟩ :: others, outcome)
      else ([], .error (dumpFailure sub))

/-- What has been produced when a replay ends, and how it ended. -/
structure ReplayRun where
  messages : Nat
  quarantined : List QuarantineMessage
  raw : List RawMessage
  outcome : Result Unit

def ReplayRun.done : ReplayRun := ⟨0, [], [], .ok ()⟩

/-- Go on with `next` unless the run has raised. -/
def ReplayRun.andThen (run next : ReplayRun) : ReplayRun :=
  match run.outcome with
  | .ok () =>
      ⟨run.messages + next.messages, run.quarantined ++ next.quarantined,
        run.raw ++ next.raw, next.outcome⟩
  | .error _ => run

section Loop

variable (settings : Settings)

def rawMessage (event : MarketEvent PyFloat) : RawMessage :=
  { topic := topicForEvent settings.topics event
    key := event.key
    value := event.toJsonBytes }

def normalizeMessage (tsIngest : Instant) (message : RecordedMessage) :
    Result NormalizeLog := do
  let symbolMap ← buildSymbolMap settings message.exchange
  normalizeSafe message.exchange (.obj message.payload) tsIngest
    (some symbolMap)

/-- Publish what normalization returned: the rejects, then the events. -/
def publishLog (message : RecordedMessage) (log : Log RawMessage Reject) :
    ReplayRun :=
  let (quarantined, outcome) := quarantineRejects message log.refused
  match outcome with
  | .ok () => ⟨1, quarantined, log.done, .ok ()⟩
  | .error failure => ⟨1, quarantined, [], .error failure⟩

def replayMessage (tsIngest : Instant) (message : RecordedMessage) :
    ReplayRun :=
  match normalizeMessage settings tsIngest message with
  | .ok log =>
      publishLog message
        (log.view (fun valid => rawMessage settings valid.event))
  | .error failure => ⟨1, [], [], .error failure⟩

/-- Replay from the message number `count` on; `clock` gives the reading of
each turn. -/
def replayLoop (limit : Option Int) (clock : Nat → Instant) :
    Nat → List RecordedMessage → ReplayRun
  | _, [] => .done
  | count, message :: rest =>
      if limit.any (fun cap => cap ≤ (count : Int)) then .done
      else
        (replayMessage settings (clock count) message).andThen
          (replayLoop limit clock (count + 1) rest)

end Loop

structure ReplaySummary where
  messages : Nat
  events : Nat
  trades : Nat
  tickers : Nat
  quarantined : Nat
  bySymbol : List (String × Nat)
deriving DecidableEq, Repr

/-- The delivery counters after the final flush. -/
structure Delivery where
  remaining : Nat
  failed : Nat
  delivered : Nat

def ReplayRun.summary (run : ReplayRun) : ReplaySummary :=
  let tickers := run.raw.countP (fun message =>
    message.value.eventType = .ticker)
  let trades := run.raw.length - tickers
  { messages := run.messages
    events := trades + tickers
    trades := trades
    tickers := tickers
    quarantined := run.quarantined.length
    bySymbol := (foldKeyed (fun message : RawMessage => message.value.symbol)
      (fun count _ => count + 1) 0 run.raw).entries }

/-- `replay` on the messages of a fixture, or on a missing file. -/
def replay (settings : Settings) (limit : Option Int)
    (clock : Nat → Instant) (fixture : Option (List RecordedMessage))
    (delivery : Delivery) : Result ReplaySummary :=
  match fixture with
  | none => raise .fileNotFoundError "fixture not found"
  | some messages => do
      let run := replayLoop settings limit clock 0 messages
      run.outcome
      let summary := run.summary
      if 0 < delivery.remaining || 0 < delivery.failed then
        raise .runtimeError
          ("replay delivery incomplete: " ++ toString delivery.remaining ++
            " still queued, " ++ toString delivery.failed ++ " failed, " ++
            toString delivery.delivered ++ "/" ++ toString summary.events ++
            " delivered")
      else .ok summary

theorem ReplayRun.summary_events (run : ReplayRun) :
    run.summary.events = run.raw.length :=
  Nat.sub_add_cancel List.countP_le_length

/-- A ticker event of Binance.US, which carries no event time. -/
def MarketEvent.isBookTicker {F : Type} (event : MarketEvent F) : Bool :=
  event.exchange = "binance_us" && event.eventType = .ticker

/-- An event up to the fields a clock reading fills in. -/
def MarketEvent.withoutClock {F : Type} (event : MarketEvent F) :
    MarketEvent F :=
  { event with
    tsEvent := if event.isBookTicker then 0 else event.tsEvent
    tsIngest := 0 }

def clockless (valid : ValidEvent) : MarketEvent PyFloat :=
  valid.event.withoutClock

def RawMessage.withoutClock (message : RawMessage) : RawMessage :=
  { message with value := message.value.withoutClock }

section Normalization

variable {room : Room} {first second : Instant} {symbolMap : Option SymbolMap}

theorem clockless_validate (event : MarketEvent PyFloat) :
    clockless <$> MarketEvent.validate event =
      match event.withoutClock.basicContract with
      | .ok () => .ok event.withoutClock
      | .error failure =>
          raise .validationError ("Value error, " ++ failure.text) := by
  have same : event.withoutClock.basicContract = event.basicContract := rfl
  rw [same]
  cases checked : event.basicContract with
  | ok value =>
      have valid : MarketEvent.validate event = .ok ⟨event, checked⟩ :=
        MarketEvent.validate_ok_iff.mpr rfl
      rw [valid]
      rfl
  | error failure =>
      rw [MarketEvent.validate_eq_error checked]
      rfl

theorem clockless_construct {symbol : Json}
    {left right : String → MarketEvent PyFloat}
    (same : ∀ name, (left name).withoutClock = (right name).withoutClock) :
    Option.map clockless <$> (some <$> MarketEvent.construct symbol left) =
      Option.map clockless <$>
        (some <$> MarketEvent.construct symbol right) := by
  have events : clockless <$> MarketEvent.construct symbol left =
      clockless <$> MarketEvent.construct symbol right := by
    cases symbol with
    | str name =>
        change clockless <$> MarketEvent.validate _ =
          clockless <$> MarketEvent.validate _
        rw [clockless_validate, clockless_validate, same name]
    | _ => rfl
  have lifted := congrArg (fun run => some <$> run) events
  simpa only [Functor.map_map, Option.map_some] using lifted

private theorem clockless_coinbaseTrade (trade : Json) :
    Option.map clockless <$> coinbaseTrade room first symbolMap trade =
      Option.map clockless <$> coinbaseTrade room second symbolMap trade := by
  simp only [coinbaseTrade, map_bind]
  apply bind_congr
  intro symbol
  by_cases dropped : symbol.isNull = true
  · rw [if_pos dropped, if_pos dropped]
  rw [if_neg dropped, if_neg dropped]
  simp only [map_bind]
  apply bind_congr
  intro price
  apply bind_congr
  intro size
  apply bind_congr
  intro side
  apply bind_congr
  intro tradeId
  apply bind_congr
  intro tsEvent
  exact clockless_construct (fun name => rfl)

private theorem clockless_coinbaseTick (tsEvent : Instant) (tick : Json) :
    Option.map clockless <$> coinbaseTick first symbolMap tsEvent tick =
      Option.map clockless <$> coinbaseTick second symbolMap tsEvent tick := by
  simp only [coinbaseTick, map_bind]
  apply bind_congr
  intro symbol
  by_cases dropped : symbol.isNull = true
  · rw [if_pos dropped, if_pos dropped]
  rw [if_neg dropped, if_neg dropped]
  simp only [map_bind]
  apply bind_congr
  intro price
  apply bind_congr
  intro bestBid
  apply bind_congr
  intro bestAsk
  apply bind_congr
  intro bestBidSize
  apply bind_congr
  intro bestAskSize
  exact clockless_construct (fun name => rfl)

private theorem clockless_binanceTrade (symbol : String) (data : Json) :
    Option.map clockless <$> binanceTrade room first symbol data =
      Option.map clockless <$> binanceTrade room second symbol data := by
  simp only [binanceTrade, map_bind]
  apply bind_congr
  intro isBuyerMaker
  apply bind_congr
  intro price
  apply bind_congr
  intro size
  apply bind_congr
  intro tradeId
  apply bind_congr
  intro tsEvent
  exact clockless_construct (fun name => rfl)

/-- The one body whose event time is the clock's. -/
private theorem clockless_binanceTick (symbol : String) (data : Json) :
    Option.map clockless <$> binanceTick first symbol data =
      Option.map clockless <$> binanceTick second symbol data := by
  simp only [binanceTick, map_bind]
  apply bind_congr
  intro bestBid
  apply bind_congr
  intro bestAsk
  apply bind_congr
  intro bestBidSize
  apply bind_congr
  intro bestAskSize
  exact clockless_construct (fun name => rfl)

private theorem clockless_binanceRecord (symbol : String) (data : Json) :
    Option.map clockless <$> binanceRecord room first symbol data =
      Option.map clockless <$> binanceRecord room second symbol data := by
  simp only [binanceRecord, map_bind]
  apply bind_congr
  intro kind
  split_ifs
  · exact clockless_binanceTrade symbol data
  · exact clockless_binanceTick symbol data
  · rfl

theorem clockless_tryRecord
    {left right : Json → Result (Option ValidEvent)}
    (same : ∀ record, Option.map clockless <$> left record =
      Option.map clockless <$> right record) (record : Json) :
    Log.view clockless <$> tryRecord left record =
      Log.view clockless <$> tryRecord right record := by
  simp only [tryRecord]
  rw [view_attempt, view_attempt, same]

theorem clockless_eachListed {left right : Json → Result NormalizeLog}
    (same : ∀ item, Log.view clockless <$> left item =
      Log.view clockless <$> right item) (name : String) (record : Json) :
    Log.view clockless <$> eachListed name left record =
      Log.view clockless <$> eachListed name right record := by
  simp only [eachListed, map_bind]
  apply bind_congr
  intro listed
  apply bind_congr
  intro items
  rw [view_forEach, view_forEach]
  exact forEach_congr (fun item _ => same item)

private theorem clockless_normalizeCoinbase (payload : Json) :
    Log.view clockless <$> normalizeCoinbase room first symbolMap payload =
      Log.view clockless <$> normalizeCoinbase room second symbolMap payload := by
  simp only [normalizeCoinbase, map_bind]
  apply bind_congr
  intro channel
  split_ifs
  · apply clockless_eachListed
    intro envelope
    simp only [coinbaseTrades, map_bind]
    apply bind_congr
    intro kind
    split_ifs
    · rfl
    · exact clockless_eachListed
        (clockless_tryRecord clockless_coinbaseTrade) "trades" envelope
  · simp only [coinbaseTickers]
    cases envelopeTime payload with
    | ok tsEvent =>
        apply clockless_eachListed
        intro envelope
        exact clockless_eachListed
          (clockless_tryRecord (clockless_coinbaseTick tsEvent)) "tickers"
          envelope
    | error failure => rfl
  · rfl

private theorem clockless_normalizeBinanceUs (map : SymbolMap)
    (payload : Json) :
    Log.view clockless <$> normalizeBinanceUs room first map payload =
      Log.view clockless <$> normalizeBinanceUs room second map payload := by
  simp only [normalizeBinanceUs, map_bind]
  apply bind_congr
  intro data
  apply bind_congr
  intro symbol
  cases symbol with
  | none => rfl
  | some name =>
      exact clockless_tryRecord (clockless_binanceRecord name) data

/-- Up to the clock's own fields, normalization does not depend on the
clock. -/
private theorem clockless_normalizeSafe (exchange : String) (payload : Json) :
    Log.view clockless <$> normalizeSafe exchange payload first symbolMap
          room =
      Log.view clockless <$>
        normalizeSafe exchange payload second symbolMap room := by
  simp only [normalizeSafe]
  split_ifs
  · exact clockless_normalizeCoinbase payload
  · exact clockless_normalizeBinanceUs _ payload
  · rfl

end Normalization

section Replay

variable (settings : Settings)

/-- A run up to the fields a clock reading fills in. -/
def ReplayRun.withoutClock (run : ReplayRun) : ReplayRun :=
  { run with raw := run.raw.map RawMessage.withoutClock }

theorem ReplayRun.withoutClock_andThen (run next : ReplayRun) :
    (run.andThen next).withoutClock =
      run.withoutClock.andThen next.withoutClock := by
  obtain ⟨messages, quarantined, raw, outcome⟩ := run
  cases outcome with
  | ok value => simp [andThen, withoutClock]
  | error failure => rfl

private theorem publishLog_withoutClock (message : RecordedMessage)
    (log : Log RawMessage Reject) :
    (publishLog message log).withoutClock =
      publishLog message (log.view RawMessage.withoutClock) := by
  simp only [publishLog]
  change ReplayRun.withoutClock (match
    (quarantineRejects message log.refused).2 with
      | .ok () => _
      | .error failure => _) = match
    (quarantineRejects message log.refused).2 with
      | .ok () => _
      | .error failure => _
  cases (quarantineRejects message log.refused).2 with
  | ok value => rfl
  | error failure => rfl

variable {settings} {first second : Instant}

theorem clockless_normalizeMessage (settings : Settings)
    (first second : Instant) (message : RecordedMessage) :
    Log.view clockless <$> normalizeMessage settings first message =
      Log.view clockless <$> normalizeMessage settings second message := by
  simp only [normalizeMessage, map_bind]
  apply bind_congr
  intro symbolMap
  exact clockless_normalizeSafe message.exchange (.obj message.payload)

/-- What a message publishes is read off the clockless log. -/
private theorem view_rawMessage_withoutClock (log : NormalizeLog) :
    (log.view (fun valid => rawMessage settings valid.event)).view
        RawMessage.withoutClock =
      (log.view clockless).view (rawMessage settings) := by
  simp only [Log.view, List.map_map]
  rfl

private theorem replayMessage_withoutClock (message : RecordedMessage) :
    (replayMessage settings first message).withoutClock =
      (replayMessage settings second message).withoutClock := by
  have same := clockless_normalizeMessage settings first second message
  simp only [replayMessage]
  cases left : normalizeMessage settings first message with
  | error failure =>
      cases right : normalizeMessage settings second message with
      | error other =>
          rw [left, right] at same
          cases same
          rfl
      | ok log =>
          rw [left, right] at same
          cases same
  | ok log =>
      cases right : normalizeMessage settings second message with
      | error other =>
          rw [left, right] at same
          cases same
      | ok other =>
          rw [left, right] at same
          have logs : log.view clockless = other.view clockless :=
            Except.ok.inj same
          simp only [publishLog_withoutClock, view_rawMessage_withoutClock,
            logs]

theorem replayLoop_withoutClock (limit : Option Int)
    (first second : Nat → Instant) (count : Nat)
    (fixture : List RecordedMessage) :
    (replayLoop settings limit first count fixture).withoutClock =
      (replayLoop settings limit second count fixture).withoutClock := by
  induction fixture generalizing count with
  | nil => rfl
  | cons message rest induction =>
      simp only [replayLoop]
      split_ifs
      · rfl
      · rw [ReplayRun.withoutClock_andThen, ReplayRun.withoutClock_andThen,
          replayMessage_withoutClock, induction]

/-- The window a message falls in, for the events that carry their own
time. -/
def windowOf (secs : Nat) (message : RawMessage) :
    Option (String × String × Instant) :=
  if message.value.isBookTicker then none
  else some (message.topic, bucket secs message.value)

private theorem windowOf_withoutClock (secs : Nat) (message : RawMessage) :
    windowOf secs message.withoutClock = windowOf secs message := by
  have kept : message.withoutClock.value.isBookTicker =
      message.value.isBookTicker := rfl
  simp only [windowOf]
  rw [kept]
  cases ticker : message.value.isBookTicker with
  | true => rfl
  | false =>
      have time : message.withoutClock.value.tsEvent =
          message.value.tsEvent := by
        simp [RawMessage.withoutClock, MarketEvent.withoutClock, ticker]
      simp only [bucket, time]
      rfl

end Replay

/-- Two replays of one fixture publish the same messages to the same topics,
up to the ingest time and the event time of Binance.US tickers, and every
other event falls in the same windows. -/
theorem replay_independent_of_clock (settings : Settings)
    (limit : Option Int) (fixture : List RecordedMessage)
    (first second : Nat → Instant) :
    let left := replayLoop settings limit first 0 fixture
    let right := replayLoop settings limit second 0 fixture
    left.raw.map RawMessage.withoutClock =
        right.raw.map RawMessage.withoutClock ∧
      left.quarantined = right.quarantined ∧ left.outcome = right.outcome ∧
        ∀ secs, left.raw.map (windowOf secs) =
          right.raw.map (windowOf secs) := by
  intro left right
  have same : left.withoutClock = right.withoutClock :=
    replayLoop_withoutClock limit first second 0 fixture
  have raw : left.raw.map RawMessage.withoutClock =
      right.raw.map RawMessage.withoutClock := congrArg ReplayRun.raw same
  have quarantined : left.withoutClock.quarantined =
      right.withoutClock.quarantined := by rw [same]
  have outcome : left.withoutClock.outcome = right.withoutClock.outcome := by
    rw [same]
  refine ⟨raw, quarantined, outcome, ?_⟩
  intro secs
  have windows := congrArg (List.map (windowOf secs)) raw
  simp only [List.map_map] at windows
  have erased : windowOf secs ∘ RawMessage.withoutClock = windowOf secs := by
    funext message
    exact windowOf_withoutClock secs message
  rwa [erased] at windows

/-- A fixture with one Binance.US quote. -/
def bookTickerFixture : List RecordedMessage :=
  [{ seq := 1
     tsRecorded := 0
     exchange := "binance_us"
     payload :=
      [("stream", .str "btcusd@bookTicker"),
        ("data", .obj [("s", .str "BTCUSD"), ("b", .str "42000.5"),
          ("a", .str "42000.6")])] }]

/-- A quote is published under the clock's time: another reading puts it in
another window. -/
theorem replay_bookTicker_follows_clock :
    let published (reading : Instant) :=
      (replayLoop sampleSettings none (fun _ => reading) 0
        bookTickerFixture).raw
    (published 0).map (fun message =>
        { message.value with tsIngest := 0 }) ≠
      (published 120000000).map (fun message =>
        { message.value with tsIngest := 0 }) ∧
    (published 0).map (fun message => bucket 60 message.value) ≠
      (published 120000000).map (fun message => bucket 60 message.value) := by
  decide +kernel

end TickStream
