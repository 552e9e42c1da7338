import TickStream.Library.KeyedSum
import TickStream.Producer.Delivery

/-!
# Replay against a broker

`replay` hands events and quarantine records to one client under one
`DeliveryCounter`, whose failures it checks together with what the flush left
queued.
-/

namespace TickStream

open Python Library

/-- What `replay` produces. -/
inductive Produced where
  | quarantine (message : QuarantineMessage)
  | raw (message : RawMessage)
deriving Repr

/-- `DeliveryCounter`. -/
structure DeliveryCounter where
  delivered : Nat
  failed : Nat
deriving DecidableEq, Repr

def DeliveryCounter.report (counter : DeliveryCounter)
    (acknowledged : Bool) : DeliveryCounter :=
  if acknowledged then { counter with delivered := counter.delivered + 1 }
  else { counter with failed := counter.failed + 1 }

/-- The locals of `replay`, with the client. -/
structure ReplayState where
  client : Client Produced DeliveryCounter
  messages : Nat
  trades : Nat
  tickers : Nat
  quarantined : Nat
  bySymbol : Dict String Nat

namespace ReplayState

def initial : ReplayState := ⟨Client.start ⟨0, 0⟩, 0, 0, 0, 0, Dict.empty⟩

/-- The number of produce calls so far. -/
def calls (state : ReplayState) : Nat :=
  state.quarantined + (state.trades + state.tickers)

def produce (broker : Broker Exc) (state : ReplayState) (message : Produced) :
    Result (Client Produced DeliveryCounter) :=
  state.client.produce DeliveryCounter.report broker state.calls message

end ReplayState

section Loop

variable (settings : Settings) (broker : Broker Exc)

/-- Quarantine the rejects of one message, up to one that cannot be written. -/
def produceRejects (message : RecordedMessage) :
    ReplayState → List Reject → Result ReplayState
  | state, [] => .ok state
  | state, (reason, sub) :: rest =>
      if dumpable sub then do
        let client ← state.produce broker
          (.quarantine ⟨message.exchange, message.seq, reason, sub⟩)
        produceRejects message
          { state with
            client := client
            quarantined := state.quarantined + 1 } rest
      else .error (dumpFailure sub)

/-- Count a produced event. -/
def ReplayState.tally (state : ReplayState) (event : MarketEvent PyFloat) :
    ReplayState :=
  let bySymbol := state.bySymbol.alter event.symbol
    (fun count => count.getD 0 + 1)
  if event.eventType = .ticker then
    { state with tickers := state.tickers + 1, bySymbol := bySymbol }
  else { state with trades := state.trades + 1, bySymbol := bySymbol }

def produceEvents : ReplayState → List ValidEvent → Result ReplayState
  | state, [] => .ok state
  | state, valid :: rest => do
      let client ← state.produce broker (.raw (rawMessage settings valid.event))
      produceEvents
        (ReplayState.tally { state with client := client } valid.event) rest

/-- One message of the fixture. -/
def produceMessage (state : ReplayState) (tsIngest : Instant)
    (message : RecordedMessage) : Result ReplayState := do
  let log ← normalizeMessage settings tsIngest message
  let quarantined ← produceRejects broker message
    { state with messages := state.messages + 1 } log.refused
  produceEvents settings broker quarantined log.done

/-- The loop over the fixture, whose lines are read as the loop gets to
them. -/
def replayMessages (limit : Option Int) (clock : Nat → Instant) :
    ReplayState → List (Result RecordedMessage) → Result ReplayState
  | state, [] => .ok state
  | state, entry :: rest => do
      let message ← entry
      if limit.any (fun cap => cap ≤ (state.messages : Int)) then .ok state
      else do
        let next ← produceMessage settings broker state (clock state.messages)
          message
        replayMessages limit clock next rest

end Loop

def ReplayState.summary (state : ReplayState) : ReplaySummary :=
  { messages := state.messages
    events := state.trades + state.tickers
    trades := state.trades
    tickers := state.tickers
    quarantined := state.quarantined
    bySymbol := state.bySymbol.entries }

/-- `replay`, with the client it leaves. -/
def replayThrough (settings : Settings) (limit : Option Int)
    (clock : Nat → Instant)
    (fixture : Option (List (Result RecordedMessage))) (kafka : Kafka) :
    Result (ReplaySummary × Client Produced DeliveryCounter) :=
  match fixture with
  | none => raise .fileNotFoundError "fixture not found"
  | some entries => do
      kafka.ensureTopics [settings.topics.tradesRaw,
        settings.topics.tickerRaw, settings.topics.quarantine]
      let state ← replayMessages settings kafka.broker limit clock
        ReplayState.initial entries
      let (remaining, client) :=
        state.client.flush DeliveryCounter.report kafka.broker
      if 0 < remaining || 0 < client.recorded.failed then
        raise .runtimeError
          ("replay delivery incomplete: " ++ toString remaining ++
            " still queued, " ++ toString client.recorded.failed ++
            " failed, " ++ toString client.recorded.delivered ++ "/" ++
            toString (state.trades + state.tickers) ++ " delivered")
      else return (state.summary, client)

/-- The counter agrees with what became of the messages. -/
structure Counted (client : Client Produced DeliveryCounter) : Prop where
  delivered : client.recorded.delivered = client.acked.length
  failed : client.recorded.failed = client.failed.length

theorem Counted.settle {client : Client Produced DeliveryCounter}
    (report : Report) (counted : Counted client) :
    Counted (client.settle DeliveryCounter.report report) := by
  obtain ⟨delivered, failed⟩ := counted
  simp only [Client.settle]
  split
  · exact ⟨delivered, failed⟩
  · split
    · rename_i acknowledged
      simp only [acknowledged, DeliveryCounter.report]
      exact ⟨by simp [delivered], by simp [failed]⟩
    · rename_i refused
      simp only [refused, DeliveryCounter.report]
      exact ⟨by simp [delivered], by simp [failed]⟩

theorem Counted.produce {broker : Broker Exc} {state : ReplayState}
    {message : Produced} {client : Client Produced DeliveryCounter}
    (counted : Counted state.client)
    (produced : state.produce broker message = .ok client) :
    Counted client := by
  apply Client.produce_keeps DeliveryCounter.report Counted _ _ counted
    produced
  · intro other report holds
    exact holds.settle report
  · intro other queued holds
    exact ⟨holds.delivered, holds.failed⟩

theorem Counted.flush {broker : Broker Exc}
    {client : Client Produced DeliveryCounter} (counted : Counted client) :
    Counted (client.flush DeliveryCounter.report broker).2 := by
  apply Client.serve_keeps DeliveryCounter.report Counted _ _ counted
  intro other report holds
  exact holds.settle report

/-- Everything a run hands to the producer. -/
def ReplayRun.handed (run : ReplayRun) : List Produced :=
  run.quarantined.map .quarantine ++ run.raw.map .raw

def countSymbol (bySymbol : Dict String Nat) (message : RawMessage) :
    Dict String Nat :=
  bySymbol.alter message.value.symbol (fun count => count.getD 0 + 1)

/-- From `state` on, the loop did what the run says and got to `next`. -/
structure Advances (state : ReplayState) (run : ReplayRun)
    (next : ReplayState) : Prop where
  messages : next.messages = state.messages + run.messages
  quarantined : next.quarantined = state.quarantined + run.quarantined.length
  tickers : next.tickers = state.tickers +
    run.raw.countP (fun message => message.value.eventType = .ticker)
  events : next.trades + next.tickers =
    state.trades + state.tickers + run.raw.length
  bySymbol : next.bySymbol = run.raw.foldl countSymbol state.bySymbol
  accepted : next.client.accepted.Perm (state.client.accepted ++ run.handed)
  counted : Counted state.client → Counted next.client

namespace Advances

variable {state middle last : ReplayState} {broker : Broker Exc}

theorem refl (state : ReplayState) : Advances state .done state where
  messages := rfl
  quarantined := rfl
  tickers := rfl
  events := rfl
  bySymbol := rfl
  accepted := by simp [ReplayRun.handed, ReplayRun.done]
  counted := id

theorem trans {run next : ReplayRun} (ended : run.outcome = .ok ())
    (first : Advances state run middle) (second : Advances middle next last) :
    Advances state (run.andThen next) last := by
  simp only [ReplayRun.andThen, ended]
  refine ⟨?_, ?_, ?_, ?_, ?_, ?_, ?_⟩
  · rw [second.messages, first.messages, Nat.add_assoc]
  · rw [second.quarantined, first.quarantined, List.length_append,
      Nat.add_assoc]
  · rw [second.tickers, first.tickers, List.countP_append, Nat.add_assoc]
  · rw [second.events, first.events, List.length_append, Nat.add_assoc]
  · rw [second.bySymbol, first.bySymbol, List.foldl_append]
  · have shuffled : (run.handed ++ next.handed).Perm
        ((run.quarantined ++ next.quarantined).map Produced.quarantine ++
          (run.raw ++ next.raw).map Produced.raw) := by
      simp only [ReplayRun.handed, List.map_append, List.append_assoc]
      apply List.Perm.append_left
      rw [← List.append_assoc, ← List.append_assoc]
      exact List.perm_append_comm.append_right _
    apply second.accepted.trans
    apply (first.accepted.append_right next.handed).trans
    rw [List.append_assoc]
    exact shuffled.append_left _
  · intro counted
    exact second.counted (first.counted counted)

/-- One produced quarantine record. -/
theorem reject {client : Client Produced DeliveryCounter}
    {message : QuarantineMessage}
    (produced : state.produce broker (.quarantine message) = .ok client) :
    Advances state ⟨0, [message], [], .ok ()⟩
      { state with
        client := client
        quarantined := state.quarantined + 1 } where
  messages := rfl
  quarantined := rfl
  tickers := rfl
  events := rfl
  bySymbol := rfl
  accepted := Client.produce_accepted DeliveryCounter.report produced
  counted counted := counted.produce produced

/-- One produced event. -/
theorem event {settings : Settings}
    {client : Client Produced DeliveryCounter} {valid : ValidEvent}
    (produced : state.produce broker
      (.raw (rawMessage settings valid.event)) = .ok client) :
    Advances state ⟨0, [], [rawMessage settings valid.event], .ok ()⟩
      (ReplayState.tally { state with client := client } valid.event) := by
  have accepted := Client.produce_accepted DeliveryCounter.report produced
  have sameType : (rawMessage settings valid.event).value.eventType =
      valid.event.eventType := rfl
  by_cases ticker : valid.event.eventType = .ticker
  · simp only [ReplayState.tally, if_pos ticker]
    refine ⟨rfl, rfl, ?_, ?_, rfl, accepted, fun counted =>
      counted.produce produced⟩
    · simp [sameType, ticker]
    · simp only [List.length_singleton]
      omega
  · simp only [ReplayState.tally, if_neg ticker]
    refine ⟨rfl, rfl, ?_, ?_, rfl, accepted, fun counted =>
      counted.produce produced⟩
    · simp [sameType, ticker]
    · simp only [List.length_singleton]
      omega

end Advances

/-- The quarantine records of the rejects of one message. -/
def quarantineRecords (message : RecordedMessage) (rejects : List Reject) :
    List QuarantineMessage :=
  rejects.map (fun reject =>
    ⟨message.exchange, message.seq, reject.1, reject.2⟩)

section Loop

variable {settings : Settings} {broker : Broker Exc}

private theorem produceRejects_advances {message : RecordedMessage}
    {rejects : List Reject} {state next : ReplayState}
    (ran : produceRejects broker message state rejects = .ok next) :
    quarantineRejects message rejects =
        (quarantineRecords message rejects, .ok ()) ∧
      Advances state ⟨0, quarantineRecords message rejects, [], .ok ()⟩
        next := by
  induction rejects generalizing state with
  | nil =>
      cases ran
      exact ⟨rfl, Advances.refl _⟩
  | cons reject rest induction =>
      obtain ⟨reason, sub⟩ := reject
      simp only [produceRejects] at ran
      split at ran
      · rename_i written
        obtain ⟨client, produced, others⟩ := bind_eq_ok_iff.mp ran
        obtain ⟨records, tail⟩ := induction others
        have head := Advances.reject produced
        constructor
        · simp only [quarantineRejects, if_pos written, records]
          rfl
        · exact head.trans rfl tail
      · cases ran

private theorem produceEvents_advances {events : List ValidEvent}
    {state next : ReplayState}
    (ran : produceEvents settings broker state events = .ok next) :
    Advances state
      ⟨0, [], events.map (fun valid => rawMessage settings valid.event),
        .ok ()⟩ next := by
  induction events generalizing state with
  | nil =>
      cases ran
      exact Advances.refl _
  | cons valid rest induction =>
      obtain ⟨client, produced, others⟩ := bind_eq_ok_iff.mp ran
      exact (Advances.event produced).trans rfl (induction others)

/-- A message is normalized, and both kinds of records are produced. -/
private theorem produceMessage_advances {state next : ReplayState}
    {tsIngest : Instant} {message : RecordedMessage}
    (ran : produceMessage settings broker state tsIngest message = .ok next) :
    ∃ log, normalizeMessage settings tsIngest message = .ok log ∧
      replayMessage settings tsIngest message =
        ⟨1, quarantineRecords message log.refused,
          log.done.map (fun valid => rawMessage settings valid.event),
          .ok ()⟩ ∧
      Advances state (replayMessage settings tsIngest message) next := by
  obtain ⟨log, normalized, ran⟩ := bind_eq_ok_iff.mp ran
  obtain ⟨quarantined, rejects, ran⟩ := bind_eq_ok_iff.mp ran
  obtain ⟨records, first⟩ := produceRejects_advances rejects
  have second := produceEvents_advances ran
  have published : replayMessage settings tsIngest message =
      ⟨1, quarantineRecords message log.refused,
        log.done.map (fun valid => rawMessage settings valid.event),
        .ok ()⟩ := by
    simp only [replayMessage, normalized, publishLog, Log.view, records]
  have counted : Advances state ⟨1, [], [], .ok ()⟩
      { state with messages := state.messages + 1 } := by
    refine ⟨rfl, rfl, rfl, rfl, rfl, ?_, id⟩
    simp [ReplayRun.handed]
  refine ⟨log, normalized, published, ?_⟩
  rw [published]
  have whole := counted.trans rfl (first.trans rfl second)
  simpa [ReplayRun.andThen] using whole

/-- The entries the loop processes from message number `count` on. -/
def firstEntries {α : Type} (limit : Option Int) (count : Nat)
    (entries : List α) : List α :=
  match limit with
  | none => entries
  | some cap => entries.take (cap - count).toNat

private theorem firstEntries_of_reached {α : Type} {limit : Option Int}
    {count : Nat}
    (reached : limit.any (fun cap => cap ≤ (count : Int)) = true)
    (entries : List α) : firstEntries limit count entries = [] := by
  cases limit with
  | none => cases reached
  | some cap =>
      have bound : cap ≤ (count : Int) := by simpa using reached
      have none : (cap - count).toNat = 0 := by omega
      simp [firstEntries, none]

private theorem firstEntries_cons {α : Type} {limit : Option Int} {count : Nat}
    (below : ¬ limit.any (fun cap => cap ≤ (count : Int)) = true)
    (entry : α) (rest : List α) :
    firstEntries limit count (entry :: rest) =
      entry :: firstEntries limit (count + 1) rest := by
  cases limit with
  | none => rfl
  | some cap =>
      have bound : ¬ cap ≤ (count : Int) := by simpa using below
      have step : (cap - count).toNat =
          (cap - ((count + 1 : Nat) : Int)).toNat + 1 := by omega
      simp only [firstEntries, step, List.take_succ_cons]

/-- The messages, numbered from `count` on, normalize to the logs. -/
def Normalizes (settings : Settings) (clock : Nat → Instant) (count : Nat)
    (messages : List RecordedMessage) (logs : List NormalizeLog) : Prop :=
  List.Forall₂
    (fun entry log => normalizeMessage settings (clock entry.2) entry.1 =
      .ok log)
    (messages.zipIdx count) logs

/-- The loop does what the run without a broker does on the messages it gets
to, and these normalize. -/
private theorem replayMessages_advances {limit : Option Int}
    {clock : Nat → Instant}
    {entries : List (Result RecordedMessage)} {state last : ReplayState}
    (ran : replayMessages settings broker limit clock state entries =
      .ok last) :
    ∃ messages logs,
      firstEntries limit state.messages entries = messages.map .ok ∧
      Normalizes settings clock state.messages messages logs ∧
      (replayLoop settings limit clock state.messages messages).outcome =
        .ok () ∧
      (replayLoop settings limit clock state.messages messages).raw =
        logs.flatMap (fun log =>
          log.done.map (fun valid => rawMessage settings valid.event)) ∧
      (replayLoop settings limit clock state.messages messages).quarantined =
        (messages.zip logs).flatMap (fun pair =>
          quarantineRecords pair.1 pair.2.refused) ∧
      Advances state
        (replayLoop settings limit clock state.messages messages) last := by
  induction entries generalizing state with
  | nil =>
      cases ran
      refine ⟨[], [], ?_, List.Forall₂.nil, rfl, rfl, rfl,
        Advances.refl _⟩
      cases limit <;> simp [firstEntries]
  | cons entry rest induction =>
      obtain ⟨message, read, ran⟩ := bind_eq_ok_iff.mp ran
      split at ran
      · rename_i reached
        cases ran
        exact ⟨[], [], firstEntries_of_reached reached _,
          List.Forall₂.nil, rfl, rfl, rfl, Advances.refl _⟩
      · rename_i below
        obtain ⟨next, produced, others⟩ := bind_eq_ok_iff.mp ran
        obtain ⟨log, normalized, published, head⟩ :=
          produceMessage_advances produced
        have counted : next.messages = state.messages + 1 := by
          rw [head.messages, published]
        obtain ⟨messages, logs, taken, normalizes, ended, raw, records,
          tail⟩ := induction others
        rw [counted] at taken normalizes ended raw records tail
        have unfolded : replayLoop settings limit clock state.messages
            (message :: messages) =
            (replayMessage settings (clock state.messages) message).andThen
              (replayLoop settings limit clock (state.messages + 1)
                messages) := by
          rw [replayLoop, if_neg below]
        refine ⟨message :: messages, log :: logs, ?_, ?_, ?_, ?_, ?_, ?_⟩
        · rw [firstEntries_cons below, taken, read]
          rfl
        · exact List.Forall₂.cons normalized normalizes
        · rw [unfolded, published]
          exact ended
        · rw [unfolded, published]
          simp only [ReplayRun.andThen, raw, List.flatMap_cons]
        · rw [unfolded, published]
          simp only [ReplayRun.andThen, records, List.zip_cons_cons,
            List.flatMap_cons]
        · rw [unfolded]
          apply head.trans _ tail
          rw [published]

end Loop

section Gate

variable {settings : Settings} {limit : Option Int} {clock : Nat → Instant}
  {kafka : Kafka}

/-- What the processed messages come to: quarantine records and events. -/
def handedOver (settings : Settings) (messages : List RecordedMessage)
    (logs : List NormalizeLog) : List Produced :=
  ((messages.zip logs).flatMap (fun pair =>
      quarantineRecords pair.1 pair.2.refused)).map .quarantine ++
    (logs.flatMap (fun log => log.done.map (fun valid =>
      rawMessage settings valid.event))).map .raw

/-- Every message handed to the producer was acknowledged, and the summary
counts what normalization made of the processed messages. -/
structure SoundSummary (settings : Settings)
    (messages : List RecordedMessage) (logs : List NormalizeLog)
    (summary : ReplaySummary) (client : Client Produced DeliveryCounter) :
    Prop where
  acknowledged : client.acked.Perm (handedOver settings messages logs)
  queued : client.queued = []
  failed : client.failed = []
  split : summary.events = summary.trades + summary.tickers
  bySymbol : summary.events = (summary.bySymbol.map Prod.snd).sum
  events : summary.events = (logs.map (fun log => log.done.length)).sum
  quarantined :
    summary.quarantined = (logs.map (fun log => log.refused.length)).sum

theorem ReplayState.summary_eq {run : ReplayRun} {last : ReplayState}
    (advances : Advances ReplayState.initial run last) :
    last.summary = run.summary := by
  have messages : last.messages = run.messages := by
    simpa [ReplayState.initial] using advances.messages
  have quarantined : last.quarantined = run.quarantined.length := by
    simpa [ReplayState.initial] using advances.quarantined
  have tickers : last.tickers = run.raw.countP
      (fun message => message.value.eventType = .ticker) := by
    simpa [ReplayState.initial] using advances.tickers
  have events : last.trades + last.tickers = run.raw.length := by
    simpa [ReplayState.initial] using advances.events
  have bySymbol := advances.bySymbol
  have trades : last.trades = run.raw.length -
      run.raw.countP (fun message => message.value.eventType = .ticker) := by
    omega
  simp only [ReplayState.summary, ReplayRun.summary]
  rw [messages, quarantined, tickers, trades, bySymbol]
  rfl

theorem ReplayRun.summary_bySymbol (run : ReplayRun) :
    (run.summary.bySymbol.map Prod.snd).sum = run.raw.length := by
  have total := sum_keyedSum (fun message : RawMessage =>
    message.value.symbol) (fun _ => 1) run.raw
  simp only [keyedSum] at total
  simp only [ReplayRun.summary]
  rw [total]
  simp

private theorem length_flatMap_done (logs : List NormalizeLog) :
    (logs.flatMap (fun log => log.done.map (fun valid =>
      rawMessage settings valid.event))).length =
      (logs.map (fun log => log.done.length)).sum := by
  simp [List.length_flatMap]

private theorem length_flatMap_refused {count : Nat}
    {messages : List RecordedMessage} {logs : List NormalizeLog}
    (normalizes : Normalizes settings clock count messages logs) :
    ((messages.zip logs).flatMap (fun pair =>
      quarantineRecords pair.1 pair.2.refused)).length =
      (logs.map (fun log => log.refused.length)).sum := by
  have lengths := normalizes.length_eq
  rw [List.length_zipIdx] at lengths
  have second : (messages.zip logs).map Prod.snd = logs :=
    List.map_snd_zip lengths.ge
  calc ((messages.zip logs).flatMap (fun pair =>
          quarantineRecords pair.1 pair.2.refused)).length
      = (((messages.zip logs).map Prod.snd).map
          (fun log => log.refused.length)).sum := by
        simp [List.length_flatMap, quarantineRecords, Function.comp_def]
    _ = (logs.map (fun log => log.refused.length)).sum := by rw [second]

/-- What the loop leaves for the final check. -/
structure Produces (settings : Settings) (limit : Option Int)
    (clock : Nat → Instant) (messages : List RecordedMessage)
    (logs : List NormalizeLog) (last : ReplayState) : Prop where
  ended : (replayLoop settings limit clock 0 messages).outcome = .ok ()
  summary : last.summary = (replayLoop settings limit clock 0 messages).summary
  events : last.summary.events = (logs.map (fun log => log.done.length)).sum
  quarantined :
    last.summary.quarantined = (logs.map (fun log => log.refused.length)).sum
  accepted : last.client.accepted.Perm (handedOver settings messages logs)
  counted : Counted last.client

private theorem replayMessages_produces {broker : Broker Exc}
    {entries : List (Result RecordedMessage)} {last : ReplayState}
    (ran : replayMessages settings broker limit clock ReplayState.initial
      entries = .ok last) :
    ∃ messages logs, firstEntries limit 0 entries = messages.map .ok ∧
      Normalizes settings clock 0 messages logs ∧
      Produces settings limit clock messages logs last := by
  obtain ⟨messages, logs, taken, normalizes, ended, raw, records, advances⟩ :=
    replayMessages_advances ran
  have start : ReplayState.initial.messages = 0 := rfl
  rw [start] at taken normalizes ended raw records advances
  have summary := ReplayState.summary_eq advances
  refine ⟨messages, logs, taken, normalizes, ended, summary, ?_, ?_, ?_, ?_⟩
  · rw [summary, ReplayRun.summary_events, raw, length_flatMap_done]
  · have counted : last.summary.quarantined =
        (replayLoop settings limit clock 0 messages).quarantined.length := by
      rw [summary]
      rfl
    rw [counted, records, length_flatMap_refused normalizes]
  · have handed := advances.accepted
    simp only [ReplayRun.handed, raw, records] at handed
    exact handed
  · apply advances.counted
    exact ⟨rfl, rfl⟩

/-- A returning replay checked everything it handed over. -/
theorem replayThrough_eq_ok {fixture : Option (List (Result RecordedMessage))}
    {summary : ReplaySummary} {client : Client Produced DeliveryCounter}
    (returned : replayThrough settings limit clock fixture kafka =
      .ok (summary, client)) :
    ∃ entries messages logs, fixture = some entries ∧
      firstEntries limit 0 entries = messages.map .ok ∧
      Normalizes settings clock 0 messages logs ∧
      SoundSummary settings messages logs summary client ∧
      (replayLoop settings limit clock 0 messages).outcome = .ok () ∧
      summary = (replayLoop settings limit clock 0 messages).summary := by
  cases fixture with
  | none => cases returned
  | some entries =>
      obtain ⟨_, _, returned⟩ := bind_eq_ok_iff.mp returned
      obtain ⟨last, ran, returned⟩ := bind_eq_ok_iff.mp returned
      dsimp only at returned
      split at returned
      · cases returned
      rename_i checked
      cases returned
      obtain ⟨messages, logs, taken, normalizes, produces⟩ :=
        replayMessages_produces ran
      have flushed : Counted
          (last.client.flush DeliveryCounter.report kafka.broker).2 :=
        produces.counted.flush
      have accepted := (Client.flush_accepted DeliveryCounter.report
        kafka.broker last.client).trans produces.accepted
      have remaining : (last.client.flush DeliveryCounter.report
          kafka.broker).1 = (last.client.flush DeliveryCounter.report
            kafka.broker).2.queued.length := rfl
      rw [remaining, flushed.failed] at checked
      generalize last.client.flush DeliveryCounter.report kafka.broker =
        outcome at checked accepted ⊢
      simp only [Bool.or_eq_true, decide_eq_true_eq, not_or, not_lt,
        Nat.le_zero, List.length_eq_zero_iff] at checked
      obtain ⟨queued, failed⟩ := checked
      refine ⟨entries, messages, logs, rfl, taken, normalizes,
        ⟨?_, queued, failed, rfl, ?_, produces.events,
          produces.quarantined⟩, produces.ended, produces.summary⟩
      · rw [Client.acked_of_settled queued failed]
        exact accepted
      · rw [produces.summary, ReplayRun.summary_bySymbol,
          ReplayRun.summary_events]

/-- `replay` either raises or returns a sound summary: everything it handed to
the producer was acknowledged. -/
theorem replayThrough_sound (settings : Settings) (limit : Option Int)
    (clock : Nat → Instant)
    (fixture : Option (List (Result RecordedMessage))) (kafka : Kafka) :
    (∃ failure, replayThrough settings limit clock fixture kafka =
      .error failure) ∨
    ∃ summary client entries messages logs,
      replayThrough settings limit clock fixture kafka =
        .ok (summary, client) ∧
      fixture = some entries ∧
      firstEntries limit 0 entries = messages.map .ok ∧
      Normalizes settings clock 0 messages logs ∧
      SoundSummary settings messages logs summary client := by
  cases ran : replayThrough settings limit clock fixture kafka with
  | error failure => exact Or.inl ⟨failure, rfl⟩
  | ok outcome =>
      obtain ⟨summary, client⟩ := outcome
      obtain ⟨entries, messages, logs, present, taken, normalizes, sound, _⟩ :=
        replayThrough_eq_ok ran
      exact Or.inr ⟨summary, client, entries, messages, logs, rfl, present,
        taken, normalizes, sound⟩

/-- A replay that returns over a broker is the replay whose delivery counters
came out clean. -/
theorem replay_of_replayThrough
    {fixture : Option (List (Result RecordedMessage))}
    {summary : ReplaySummary} {client : Client Produced DeliveryCounter}
    (returned : replayThrough settings limit clock fixture kafka =
      .ok (summary, client)) :
    ∃ entries messages, fixture = some entries ∧
      firstEntries limit 0 entries = messages.map .ok ∧
      replay settings limit clock (some messages)
        ⟨client.queued.length, client.failed.length, client.acked.length⟩ =
          .ok summary := by
  obtain ⟨entries, messages, logs, present, taken, _, sound, ended, same⟩ :=
    replayThrough_eq_ok returned
  refine ⟨entries, messages, present, taken, ?_⟩
  simp only [replay]
  rw [ended, sound.queued, sound.failed, same]
  rfl

end Gate

end TickStream
