import Mathlib.Data.List.Infix
import TickStream.Producer.Payloads

/-!
# What a live run does

Over every script of connections: what is published is what normalization
makes of the payloads received, connections and sleeps alternate, and each
sleep takes the next delay of a schedule that starts over after a connection
that produced an event.
-/

namespace TickStream

open Python Library

namespace Service

variable (service : Service)

/-- What may be done after a history. -/
def Allowed (before : History) : Action → Prop
  | .receive tsIngest _ =>
      tsIngest = service.clock before.receipts.length ∧
        ∀ limit, service.maxMessages = some limit →
          (before.produced.length : Int) < limit
  | .connect => before.standing.connected = false
  | .sleep delay =>
      before.standing.connected = true ∧
        service.schedule before.standing.productive before.standing.sleeps =
          .ok delay
  | _ => True

/-- The counters agree with the history, and the history with what the
payloads come to. -/
structure Books (symbolMap : SymbolMap) (history : History)
    (state : ProducerState) : Prop where
  legal : Legal service.Allowed history
  received : state.received = history.receipts.length
  published : state.published = history.produced.length
  produced : history.produced =
    history.receipts.flatMap (service.emitted symbolMap)
  quarantined : history.quarantined =
    history.receipts.flatMap (service.rejected symbolMap)

/-- Some connections have been opened and all their payloads received but the
last `remaining` ones. -/
structure Reading (passed : List Connection) (remaining : List Payload)
    (history : History) : Prop where
  connections : history.connections = passed.length
  received : history.receipts.map Prod.snd ++ remaining =
    passed.flatMap Connection.payloads
  ceiling : ∀ limit, service.maxReconnects = some limit →
    (passed.length : Int) ≤ limit + 1

/-- Inside a connection, the last of those that have been opened. -/
structure Within (symbolMap : SymbolMap) (passed : List Connection)
    (remaining : List Payload) (history : History) (state : ProducerState) :
    Prop where
  books : service.Books symbolMap history state
  reading : service.Reading passed remaining history
  below : ∀ limit, service.maxMessages = some limit →
    (state.published : Int) < limit
  reconnects : state.reconnects + 1 = passed.length
  calls : state.calls ≤ state.reconnects
  standing : history.standing =
    if 0 < state.producedThisConn then ⟨true, true, state.generator + 1, 0⟩
    else ⟨true, false, state.generator, state.calls⟩

/-- Before the next connection. -/
structure Between (symbolMap : SymbolMap) (passed : List Connection)
    (history : History) (state : ProducerState) : Prop where
  books : service.Books symbolMap history state
  reading : service.Reading passed [] history
  below : ∀ limit, service.maxMessages = some limit →
    (state.published : Int) < limit
  reconnects : state.reconnects = passed.length
  room : ∀ limit, service.maxReconnects = some limit →
    (state.reconnects : Int) ≤ limit
  calls : state.calls ≤ state.reconnects
  standing : ∃ producing, history.standing =
    ⟨false, producing, state.generator, state.calls⟩

/-- A run returns at a limit. -/
structure Finished (symbolMap : SymbolMap) (passed : List Connection)
    (history : History) (state : ProducerState) (exit : Exit) : Prop where
  books : service.Books symbolMap history state
  reading : ∃ remaining, service.Reading passed remaining history ∧
    ((∃ limit, service.maxMessages = some limit ∧
        limit ≤ (history.produced.length : Int)) ∨
      (remaining = [] ∧ ∃ limit, service.maxReconnects = some limit ∧
        (history.connections : Int) = limit + 1))
  returned : exit = .returned history.produced.length

/-- A run raises when its schedule does. -/
structure Failed (symbolMap : SymbolMap) (passed : List Connection)
    (history : History) (state : ProducerState) (exit : Exit) : Prop where
  books : service.Books symbolMap history state
  reading : service.Reading passed [] history
  raised : ∃ failure generator call, exit = .raised failure ∧
    call < passed.length ∧ service.schedule generator call = .error failure

def Ended (symbolMap : SymbolMap) (passed : List Connection)
    (history : History) (state : ProducerState) (exit : Exit) : Prop :=
  service.Finished symbolMap passed history state exit ∨
    service.Failed symbolMap passed history state exit

/-- The rejects of every payload that the limits let a run receive can be
written. -/
def WritesRejects (symbolMap : SymbolMap) (script : List Connection) : Prop :=
  ∀ opened rest, script = opened ++ rest →
    (∀ limit, service.maxReconnects = some limit →
      (opened.length : Int) ≤ limit + 1) →
    ∀ before payload after,
      opened.flatMap Connection.payloads = before ++ payload :: after →
      (∀ limit, service.maxMessages = some limit →
        (((readAt service.clock 0 before).flatMap
          (service.emitted symbolMap)).length : Int) < limit) →
        service.Written symbolMap (service.clock before.length, payload)

variable {service} {symbolMap : SymbolMap} {passed : List Connection}
  {remaining : List Payload} {history : History} {state : ProducerState}

theorem receipts_eq_readAt
    (timed : ∀ before tsIngest payload after,
      history = before ++ .receive tsIngest payload :: after →
        tsIngest = service.clock (History.receipts before).length) :
    history.receipts =
      readAt service.clock 0 (history.receipts.map Prod.snd) := by
  induction history using List.reverseRecOn with
  | nil => rfl
  | append_singleton history action induction =>
      have before := induction (fun before tsIngest payload after split =>
        timed before tsIngest payload (after ++ [action]) (by simp [split]))
      cases action with
      | receive tsIngest payload =>
          have receipt : History.receipts [.receive tsIngest payload] =
              [(tsIngest, payload)] := rfl
          rw [History.receipts_append, receipt, List.map_append,
            readAt_append, ← before, timed history tsIngest payload [] rfl]
          simp [readAt]
      | _ =>
          rw [History.receipts_append]
          change History.receipts history ++ [] =
            readAt service.clock 0
              ((History.receipts history ++ []).map Prod.snd)
          rw [List.append_nil]
          exact before

theorem WritesRejects.left {earlier later : List Connection}
    (writes : service.WritesRejects symbolMap (earlier ++ later)) :
    service.WritesRejects symbolMap earlier := by
  intro opened rest split
  exact writes opened (rest ++ later) (by rw [split, List.append_assoc])

theorem WritesRejects.of_written {script : List Connection}
    (written : ∀ connection ∈ script, ∀ payload ∈ connection.payloads,
      ∀ tsIngest, service.Written symbolMap (tsIngest, payload)) :
    service.WritesRejects symbolMap script := by
  intro opened rest split _ before payload after payloads _
  have inside : payload ∈ opened.flatMap Connection.payloads := by
    rw [payloads]
    simp
  obtain ⟨connection, member, carried⟩ := List.mem_flatMap.mp inside
  exact written connection (by simp [split, member]) payload carried _

/-- The next payload of a connection is one the limits let the run receive. -/
theorem WritesRejects.written {script rest : List Connection}
    (writes : service.WritesRejects symbolMap script)
    (split : script = passed ++ rest) {payload : Payload}
    (within : service.Within symbolMap passed (payload :: remaining) history
      state) :
    service.Written symbolMap (service.clock state.received, payload) := by
  have receipts : history.receipts = _ := receipts_eq_readAt
    (fun before tsIngest payload after split =>
      (within.books.legal before _ after split).1)
  have count : state.received = (history.receipts.map Prod.snd).length := by
    rw [within.books.received, List.length_map]
  rw [count]
  apply writes passed rest split within.reading.ceiling _ payload remaining
    within.reading.received.symm
  intro limit bounded
  rw [← receipts, ← within.books.produced, ← within.books.published]
  exact within.below limit bounded

theorem Books.payload (books : service.Books symbolMap history state)
    (below : ∀ limit, service.maxMessages = some limit →
      (state.published : Int) < limit)
    (payload : Payload) (later : ProducerState)
    (received : later.received = state.received + 1)
    (published : later.published = state.published + (service.emitted symbolMap
      (service.clock state.received, payload)).length) :
    service.Books symbolMap
      (history ++ service.payloadActions symbolMap
        (service.clock state.received, payload)) later := by
  constructor
  · have allowed : service.Allowed history
        (.receive (service.clock state.received) payload) := by
      constructor
      · rw [books.received]
      · intro limit bounded
        rw [← books.published]
        exact below limit bounded
    have receipt := legal_snoc.mpr ⟨books.legal, allowed⟩
    have free : ∀ action ∈
        (service.rejected symbolMap (service.clock state.received, payload)).map
            Action.quarantine ++
          (service.emitted symbolMap
            (service.clock state.received, payload)).map Action.produce,
        ∀ before, service.Allowed before action := by
      intro action member before
      rcases List.mem_append.mp member with quarantine | produce
      · obtain ⟨message, _, same⟩ := List.mem_map.mp quarantine
        rw [← same]
        trivial
      · obtain ⟨message, _, same⟩ := List.mem_map.mp produce
        rw [← same]
        trivial
    have whole := receipt.append_free free
    rwa [List.append_assoc] at whole
  · simp [received, books.received]
  · simp [published, books.published]
  · simp [books.produced]
  · simp [books.quarantined]

theorem Books.recount (books : service.Books symbolMap history state)
    {later : ProducerState} (received : later.received = state.received)
    (published : later.published = state.published) :
    service.Books symbolMap history later where
  legal := books.legal
  received := received.trans books.received
  published := published.trans books.published
  produced := books.produced
  quarantined := books.quarantined

/-- An action that is no part of a payload leaves the books as they are. -/
theorem Books.act (books : service.Books symbolMap history state)
    {action : Action} (allowed : service.Allowed history action)
    (later : ProducerState) (received : later.received = state.received)
    (published : later.published = state.published)
    (receipts : History.receipts [action] = [])
    (produced : History.produced [action] = [])
    (quarantined : History.quarantined [action] = []) :
    service.Books symbolMap (history ++ [action]) later := by
  constructor
  · exact legal_snoc.mpr ⟨books.legal, allowed⟩
  · simp [received, receipts, books.received]
  · simp [published, produced, books.published]
  · simp [receipts, produced, books.produced]
  · simp [receipts, quarantined, books.quarantined]

/-- Nor does an action that opens no connection change what was read. -/
theorem Reading.act (reading : service.Reading passed remaining history)
    {action : Action} (connections : History.connections [action] = 0)
    (receipts : History.receipts [action] = []) :
    service.Reading passed remaining (history ++ [action]) := by
  constructor
  · simp [connections, reading.connections]
  · simp [receipts, reading.received]
  · exact reading.ceiling

theorem flush_allowed (before : History) : service.Allowed before .flush :=
  trivial

theorem limitReached_iff
    (positive : ∀ limit, service.maxMessages = some limit → 0 < limit)
    {published : Nat} :
    service.limitReached published = true ↔
      ∃ limit, service.maxMessages = some limit ∧
        limit ≤ (published : Int) := by
  simp only [limitReached]
  cases bounded : service.maxMessages with
  | none => simp
  | some limit =>
      have nonzero : limit ≠ 0 := (positive limit bounded).ne'
      simp [nonzero]

theorem Within.flush (within : service.Within symbolMap passed remaining
    history state) :
    service.Within symbolMap passed remaining (history ++ [.flush]) state where
  books := within.books.act (flush_allowed _) _ rfl rfl rfl rfl rfl
  reading := within.reading.act rfl rfl
  below := within.below
  reconnects := within.reconnects
  calls := within.calls
  standing := by
    rw [History.standing_append]
    exact within.standing

theorem Finished.flush {exit : Exit}
    (finished : service.Finished symbolMap passed history state exit) :
    service.Finished symbolMap passed (history ++ [.flush]) state exit := by
  obtain ⟨remaining, reading, limits⟩ := finished.reading
  have produced : History.produced (history ++ [.flush]) =
      history.produced := by
    rw [History.produced_append]
    exact List.append_nil _
  have connections : History.connections (history ++ [.flush]) =
      history.connections := History.connections_append history [.flush]
  refine ⟨finished.books.act (flush_allowed _) _ rfl rfl rfl rfl rfl,
    ⟨remaining, reading.act rfl rfl, ?_⟩, ?_⟩
  · rw [produced, connections]
    exact limits
  · rw [produced]
    exact finished.returned

theorem Ended.flush {exit : Exit}
    (ended : service.Ended symbolMap passed history state exit) :
    service.Ended symbolMap passed (history ++ [.flush]) state exit := by
  rcases ended with finished | failed
  · exact Or.inl finished.flush
  · exact Or.inr ⟨failed.books.act (flush_allowed _) _ rfl rfl rfl rfl rfl,
      failed.reading.act rfl rfl, failed.raised⟩

theorem Within.receive
    (positive : ∀ limit, service.maxMessages = some limit → 0 < limit)
    {payload : Payload} {rest : List Payload}
    (returns : Returns (normalizeSafe service.exchange (.obj payload.members)
      (service.clock state.received) (some symbolMap)))
    (written : service.Written symbolMap
      (service.clock state.received, payload))
    (within : service.Within symbolMap passed (payload :: rest) history
      state) :
    (service.receivePayload symbolMap state payload).Meets history
      (service.Within symbolMap passed rest)
      (service.Finished symbolMap passed) := by
  obtain ⟨log, ran⟩ := returns
  rw [receivePayload_eq ran written]
  generalize same : (service.clock state.received, payload) = receipt
  have books : ∀ later : ProducerState, later.received = state.received + 1 →
      later.published = state.published +
        (service.emitted symbolMap receipt).length →
      service.Books symbolMap
        (history ++ service.payloadActions symbolMap receipt) later := by
    rw [← same]
    exact within.books.payload within.below payload
  have reading : service.Reading passed rest
      (history ++ service.payloadActions symbolMap receipt) := by
    constructor
    · simpa using within.reading.connections
    · simpa [← same] using within.reading.received
    · exact within.reading.ceiling
  by_cases reached : service.limitReached
      (state.published + (service.emitted symbolMap receipt).length) = true
  · rw [if_pos reached]
    constructor
    · intro done
      cases done
    · intro reason stopped
      cases stopped
      have settled := books
        { state with
          received := state.received + 1
          published := state.published +
            (service.emitted symbolMap receipt).length
          producedThisConn := state.producedThisConn +
            (service.emitted symbolMap receipt).length } rfl rfl
      have flushed := settled.act (flush_allowed _) _ rfl rfl rfl rfl rfl
      rw [← List.append_assoc]
      refine ⟨flushed, ⟨rest, reading.act rfl rfl, Or.inl ?_⟩, ?_⟩
      · rw [← flushed.published]
        exact (limitReached_iff positive).mp reached
      · rw [← flushed.published]
  · rw [if_neg reached]
    constructor
    · intro _
      refine ⟨books _ rfl rfl, reading, ?_, within.reconnects, within.calls, ?_⟩
      · intro limit bounded
        by_contra atLimit
        exact reached ((limitReached_iff positive).mpr
          ⟨limit, bounded, not_lt.mp atLimit⟩)
      · rw [History.standing_append, next_payloadActions, within.standing]
        by_cases silent : service.emitted symbolMap receipt = []
        · simp [silent]
        · have produces : 0 < state.producedThisConn +
              (service.emitted symbolMap receipt).length :=
            Nat.add_pos_right _ (List.length_pos_of_ne_nil silent)
          dsimp only
          rw [if_neg silent, if_pos produces]
          split <;> rfl
    · intro reason stopped
      cases stopped

/-- A stream ends at the limit, or with all its payloads received and perhaps
a disconnect. -/
theorem Within.readStream
    (positive : ∀ limit, service.maxMessages = some limit → 0 < limit)
    {connection : Connection}
    (returns : ∀ payload ∈ connection.payloads, ∀ tsIngest,
      Returns (normalizeSafe service.exchange (.obj payload.members) tsIngest
        (some symbolMap)))
    (ending : ∀ failure, connection.failure = some failure →
      disconnects failure = true)
    {script rest : List Connection}
    (writes : service.WritesRejects symbolMap script)
    (split : script = passed ++ rest)
    (within : service.Within symbolMap passed connection.payloads history
      state) :
    ((service.readStream symbolMap connection state).handle onException).Meets
      history (service.Within symbolMap passed [])
      (service.Finished symbolMap passed) := by
  apply readStream_meets (service.Within symbolMap passed) ending
  · intro payload member remaining history state inside
    exact inside.receive positive (returns payload member _)
      (writes.written split inside)
  · intro history state exit finished
    exact ⟨_, finished.returned⟩
  · intro history state drained
    exact drained.flush
  · exact within

private theorem resetDelays_kept (state : ProducerState) :
    (resetDelays state).received = state.received ∧
      (resetDelays state).published = state.published ∧
      (resetDelays state).reconnects = state.reconnects ∧
      (resetDelays state).calls ≤ state.calls := by
  simp only [resetDelays]
  split
  · exact ⟨rfl, rfl, rfl, Nat.zero_le _⟩
  · exact ⟨rfl, rfl, rfl, le_rfl⟩

/-- After the reset the schedule stands where the history says. -/
private theorem resetDelays_standing (state : ProducerState)
    (standing : history.standing =
      if 0 < state.producedThisConn then ⟨true, true, state.generator + 1, 0⟩
      else ⟨true, false, state.generator, state.calls⟩) :
    ∃ producing, history.standing = ⟨true, producing,
      (resetDelays state).generator, (resetDelays state).calls⟩ := by
  simp only [resetDelays]
  by_cases produced : 0 < state.producedThisConn
  · rw [if_pos produced] at standing ⊢
    exact ⟨true, standing⟩
  · rw [if_neg produced] at standing ⊢
    exact ⟨false, standing⟩

/-- The shared reconnect path. -/
theorem Within.reconnect
    (within : service.Within symbolMap passed [] history state) :
    (service.reconnect state).Meets history
      (service.Between symbolMap passed) (service.Ended symbolMap passed) := by
  have opened := within.reading.connections
  have counted := within.reconnects
  simp only [Service.reconnect]
  by_cases exceeded : service.maxReconnects.any (fun limit =>
      limit < ((state.reconnects + 1 : Nat) : Int)) = true
  · rw [if_pos exceeded]
    obtain ⟨limit, bounded, above⟩ := (Option.any_eq_true _ _).mp exceeded
    have ceiling := within.reading.ceiling limit bounded
    simp only [decide_eq_true_eq] at above
    apply Run.stop_meets
    refine Or.inl ⟨within.books.recount rfl rfl, ⟨[], within.reading, Or.inr
      ⟨rfl, limit, bounded, by omega⟩⟩, ?_⟩
    rw [within.books.published]
  · rw [if_neg exceeded]
    obtain ⟨received, published, reconnects, calls⟩ := resetDelays_kept
      { state with reconnects := state.reconnects + 1 }
    obtain ⟨producing, standing⟩ := resetDelays_standing
      { state with reconnects := state.reconnects + 1 } within.standing
    generalize resetDelays { state with reconnects := state.reconnects + 1 } =
      later at received published reconnects calls standing
    dsimp only at received published reconnects calls
    have early : later.calls < passed.length := by
      have before := within.calls
      omega
    cases yielded : service.schedule later.generator later.calls with
    | error failure =>
        simp only [sleepNext, yielded]
        exact Run.stop_meets (Or.inr ⟨within.books.recount received published,
          within.reading,
          ⟨failure, later.generator, later.calls, rfl, early, yielded⟩⟩)
    | ok delay =>
        have allowed : service.Allowed history (.sleep delay) := by
          simp only [Allowed, standing, yielded, and_self]
        simp only [sleepNext, yielded]
        apply Run.act_meets
        constructor
        · exact within.books.act allowed _ received published rfl rfl rfl
        · exact within.reading.act rfl rfl
        · rw [published]
          exact within.below
        · rw [reconnects]
          exact within.reconnects
        · intro limit bounded
          by_contra above
          apply exceeded
          rw [bounded, Option.any_some, decide_eq_true_eq, ← reconnects]
          exact not_le.mp above
        · show later.calls + 1 ≤ later.reconnects
          have before := within.calls
          omega
        · refine ⟨producing, ?_⟩
          rw [History.standing_append, standing]
          rfl

theorem Between.connect {connection : Connection}
    (between : service.Between symbolMap passed history state) :
    service.Within symbolMap (passed ++ [connection]) connection.payloads
      (history ++ [.connect]) { state with producedThisConn := 0 } := by
  obtain ⟨producing, standing⟩ := between.standing
  have allowed : service.Allowed history .connect := by
    simp only [Allowed, standing]
  constructor
  · exact between.books.act allowed _ rfl rfl rfl rfl rfl
  · constructor
    · rw [History.connections_append, between.reading.connections,
        List.length_append]
      rfl
    · have received := between.reading.received
      rw [List.append_nil] at received
      rw [History.receipts_append, List.map_append, received]
      simp [History.receipts, Action.receipt?]
    · intro limit bounded
      have room := between.room limit bounded
      have counted := between.reconnects
      rw [List.length_append, List.length_singleton]
      omega
  · exact between.below
  · rw [List.length_append, List.length_singleton, between.reconnects]
  · exact between.calls
  · rw [History.standing_append, standing]
    rfl

/-- What a script is assumed to be: the exchange has a symbol map and a
client, normalization returns on all payloads, and no connection ends with
another exception than a disconnect. -/
structure Plays (service : Service) (symbolMap : SymbolMap)
    (script : List Connection) : Prop where
  built : buildSymbolMap service.settings service.exchange = .ok symbolMap
  client : buildClient service.settings service.exchange = .ok ()
  returns : ∀ connection ∈ script, ∀ payload ∈ connection.payloads,
    ∀ tsIngest, Returns (normalizeSafe service.exchange (.obj payload.members)
      tsIngest (some symbolMap))
  ending : ∀ connection ∈ script, ∀ failure,
    connection.failure = some failure → disconnects failure = true

variable {script : List Connection}

theorem Between.runConnection
    (positive : ∀ limit, service.maxMessages = some limit → 0 < limit)
    (plays : service.Plays symbolMap script)
    (writes : service.WritesRejects symbolMap script)
    {connection : Connection} {rest : List Connection}
    (split : script = passed ++ connection :: rest)
    (between : service.Between symbolMap passed history state) :
    (service.runConnection symbolMap state connection).Meets history
      (service.Between symbolMap (passed ++ [connection]))
      (service.Ended symbolMap (passed ++ [connection])) := by
  have member : connection ∈ script := by simp [split]
  simp only [Service.runConnection, plays.client]
  apply (Run.act_meets between.connect).andThen
  intro history state within
  have read := within.readStream positive (plays.returns connection member)
    (plays.ending connection member) writes (by rw [split, List.append_cons])
  apply (read.mono (fun _ _ inside => inside)
    (fun _ _ _ finished => Or.inl finished)).andThen
  intro history state drained
  exact drained.reconnect

/-- A run over a whole script. -/
theorem runProducer_meets
    (positive : ∀ limit, service.maxMessages = some limit → 0 < limit)
    (room : ∀ limit, service.maxReconnects = some limit → 0 ≤ limit)
    (plays : service.Plays symbolMap script)
    (writes : service.WritesRejects symbolMap script) :
    (runProducer service script).Meets [] (service.Between symbolMap script)
      (fun history state exit => ∃ passed rest, script = passed ++ rest ∧
        service.Ended symbolMap passed history state exit) := by
  have start : service.Between symbolMap [] [] {} := by
    refine ⟨⟨legal_nil, rfl, rfl, rfl, rfl⟩, ⟨rfl, rfl, ?_⟩, ?_, rfl, ?_,
      le_rfl, ⟨false, rfl⟩⟩
    · intro limit bounded
      have above := room limit bounded
      simp only [List.length_nil, Nat.cast_zero]
      omega
    · exact positive
    · intro limit bounded
      exact room limit bounded
  have loop : (runEach (service.runConnection symbolMap) {} script).Meets []
      (fun history state => ∃ passed, script = passed ++ [] ∧
        service.Between symbolMap passed history state)
      (fun history state exit => ∃ passed rest, script = passed ++ rest ∧
        service.Ended symbolMap passed history state exit) := by
    apply runEach_meets (fun rest history state => ∃ passed,
      script = passed ++ rest ∧ service.Between symbolMap passed history state)
      _ ⟨[], rfl, start⟩
    intro connection _ rest history state standing
    rcases standing with ⟨passed, split, between⟩
    apply (between.runConnection positive plays writes split).mono
    · intro history state later
      exact ⟨passed ++ [connection], by simp [split], later⟩
    · intro history state exit finished
      exact ⟨passed ++ [connection], rest, by simp [split], finished⟩
  have whole : (runEach (service.runConnection symbolMap) {} script).Meets []
      (service.Between symbolMap script)
      (fun history state exit => ∃ passed rest, script = passed ++ rest ∧
        service.Ended symbolMap passed history state exit) := by
    apply loop.mono
    · intro history state ended
      rcases ended with ⟨passed, split, between⟩
      rw [List.append_nil] at split
      rwa [split]
    · intro history state exit finished
      exact finished
  simp only [runProducer, plays.built]
  apply whole.lastly
  intro history state exit ended
  rcases ended with ⟨passed, rest, split, finished⟩
  exact ⟨passed, rest, split, finished.flush⟩

/-- Between two connections there is one sleep, or none yet. -/
private theorem sleeps_between {before between : History}
    (legal : Legal service.Allowed (before ++ between))
    (connected : before.standing.connected = true)
    (unbroken : between.connections = 0) :
    (between.sleeps = [] ∧ (before ++ between).standing.connected = true) ∨
      ∃ delay, between.sleeps = [delay] ∧
        (before ++ between).standing.connected = false := by
  induction between using List.reverseRecOn with
  | nil => exact Or.inl ⟨rfl, by rwa [List.append_nil]⟩
  | append_singleton between action induction =>
      rw [← List.append_assoc] at legal ⊢
      obtain ⟨earlier, allowed⟩ := legal_snoc.mp legal
      have parts : History.connections between +
          History.connections [action] = 0 := by
        rw [← History.connections_append]
        exact unbroken
      have standing := induction earlier (by omega)
      have sleeps : History.sleeps (between ++ [action]) =
          History.sleeps between ++ History.sleeps [action] :=
        List.filterMap_append
      rw [sleeps, History.standing_append]
      cases action with
      | connect =>
          exact absurd parts (by simp [History.connections, Action.isConnect])
      | sleep delay =>
          rcases standing with ⟨none, _⟩ | ⟨_, _, disconnected⟩
          · rw [none]
            exact Or.inr ⟨delay, rfl, rfl⟩
          · rw [allowed.1] at disconnected
            cases disconnected
      | _ =>
          change (History.sleeps between ++ [] = [] ∧ _) ∨
            ∃ delay, History.sleeps between ++ [] = [delay] ∧ _
          simp only [List.append_nil]
          exact standing

/-- What a live run does on a script of connections.  The payloads it receives
are the first ones of the connections it opens, and all of them unless the
message limit is reached. -/
structure FollowsScript (service : Service) (symbolMap : SymbolMap)
    (script : List Connection) (actions : History) (stopped : Option Exit) :
    Prop where
  produced : actions.produced =
    actions.receipts.flatMap (service.emitted symbolMap)
  quarantined : actions.quarantined =
    actions.receipts.flatMap (service.rejected symbolMap)
  receives : ∀ before tsIngest payload after,
    actions = before ++ .receive tsIngest payload :: after →
      tsIngest = service.clock (History.receipts before).length ∧
        ∀ limit, service.maxMessages = some limit →
          ((History.produced before).length : Int) < limit
  consumed : actions.receipts.map Prod.snd <+:
    (script.take actions.connections).flatMap Connection.payloads
  drained : (∀ limit, service.maxMessages = some limit →
      (actions.produced.length : Int) < limit) →
    actions.receipts.map Prod.snd =
      (script.take actions.connections).flatMap Connection.payloads
  ceiling : ∀ limit, service.maxReconnects = some limit →
    (actions.connections : Int) ≤ limit + 1
  oneSleep : ∀ before between after,
    actions = before ++ .connect :: (between ++ .connect :: after) →
      History.connections between = 0 →
        ∃ delay, History.sleeps between = [delay]
  delays : ∀ before delay after,
    actions = before ++ .sleep delay :: after →
      service.schedule (History.standing before).productive
        (History.standing before).sleeps = .ok delay
  outcome : (stopped = none ∧ actions.connections = script.length) ∨
    (stopped = some (.returned actions.produced.length) ∧
      ((∃ limit, service.maxMessages = some limit ∧
          limit ≤ (actions.produced.length : Int)) ∨
        ∃ limit, service.maxReconnects = some limit ∧
          (actions.connections : Int) = limit + 1))

/-- The clauses that hold of a run however it has ended. -/
theorem FollowsScript.of_books {rest : List Connection}
    {stopped : Option Exit} (split : script = passed ++ rest)
    (books : service.Books symbolMap history state)
    (reading : service.Reading passed remaining history)
    (drained : (∀ limit, service.maxMessages = some limit →
      (history.produced.length : Int) < limit) → remaining = [])
    (outcome : (stopped = none ∧ history.connections = script.length) ∨
      (stopped = some (.returned history.produced.length) ∧
        ((∃ limit, service.maxMessages = some limit ∧
            limit ≤ (history.produced.length : Int)) ∨
          ∃ limit, service.maxReconnects = some limit ∧
            (history.connections : Int) = limit + 1))) :
    FollowsScript service symbolMap script history stopped := by
  have opened : script.take history.connections = passed := by
    rw [split, reading.connections, List.take_left]
  refine ⟨books.produced, books.quarantined, ?_, ?_, ?_, ?_, ?_, ?_, outcome⟩
  · intro before tsIngest payload after split
    exact books.legal _ _ _ split
  · rw [opened, ← reading.received]
    exact List.prefix_append _ _
  · intro below
    rw [opened, ← reading.received, drained below, List.append_nil]
  · intro limit bounded
    rw [reading.connections]
    exact reading.ceiling limit bounded
  · intro before between after split unbroken
    have regrouped : history =
        (before ++ [.connect]) ++ between ++ .connect :: after := by
      simp [split]
    have legal := books.legal
    rw [regrouped] at legal
    have connected : (History.standing (before ++ [.connect])).connected =
        true := by
      rw [History.standing_append]
      rfl
    rcases sleeps_between legal.left connected unbroken with
      ⟨_, still⟩ | ⟨delay, slept, _⟩
    · have allowed := books.legal _ _ _ regrouped
      rw [Allowed, still] at allowed
      cases allowed
    · exact ⟨delay, slept⟩
  · intro before delay after split
    exact (books.legal _ _ _ split).2

end Service

/-- Everything that was quarantined could be written. -/
def AllWritten (history : History) : Prop :=
  ∀ message ∈ history.quarantined, dumpable message.payload = true

theorem allWritten_snoc {action : Action}
    (written : ∀ message, action.quarantined? = some message →
      dumpable message.payload = true) (history : History)
    (all : AllWritten history) : AllWritten (history ++ [action]) := by
  intro message member
  rw [History.quarantined_append] at member
  rcases List.mem_append.mp member with before | last
  · exact all message before
  · obtain ⟨only, inside, same⟩ := List.mem_filterMap.mp last
    rw [List.mem_singleton.mp inside] at same
    exact written message same

section Written

variable {service : Service} {symbolMap : SymbolMap} {state : ProducerState}

/-- An action that quarantines nothing keeps the history as it is. -/
theorem act_keeps_written {action : Action}
    (quiet : action.quarantined? = none) :
    (Run.act action state : ProducerRun).Keeps AllWritten := by
  apply act_keeps
  apply allWritten_snoc
  intro message same
  rw [quiet] at same
  cases same

private theorem quarantineReject_keeps_written (reject : Reject) :
    (service.quarantineReject state reject).Keeps AllWritten := by
  rw [Service.quarantineReject]
  split
  · rename_i written
    apply act_keeps
    apply allWritten_snoc
    intro message same
    cases same
    exact written
  · exact stop_keeps

private theorem receivePayload_keeps_written (payload : Payload) :
    (service.receivePayload symbolMap state payload).Keeps AllWritten := by
  rw [Service.receivePayload]
  apply (act_keeps_written rfl).andThen
  intro state
  split
  · apply (runEach_keeps (fun _ => quarantineReject_keeps_written) _ _).andThen
    intro state
    apply (runEach_keeps (fun _ _ => act_keeps_written rfl) _ _).andThen
    intro state
    split
    · exact (act_keeps_written rfl).andThen (fun _ => stop_keeps)
    · exact done_keeps
  · exact stop_keeps

private theorem readStream_keeps_written (connection : Connection) :
    ((service.readStream symbolMap connection state).handle
      Service.onException).Keeps AllWritten := by
  rw [Service.readStream]
  apply Run.Keeps.handle
  · apply (runEach_keeps (fun _ => receivePayload_keeps_written) _ _).andThen
    intro state
    split
    · exact done_keeps
    · exact stop_keeps
  · intro exit state
    cases exit with
    | returned published => exact stop_keeps
    | raised failure =>
        rw [Service.onException]
        split
        · exact act_keeps_written rfl
        · exact stop_keeps

private theorem runConnection_keeps_written (connection : Connection) :
    (service.runConnection symbolMap state connection).Keeps AllWritten := by
  rw [Service.runConnection]
  split
  · exact stop_keeps
  · apply (act_keeps_written rfl).andThen
    intro state
    apply (readStream_keeps_written connection).andThen
    intro state
    rw [Service.reconnect]
    split
    · exact stop_keeps
    · rw [Service.sleepNext]
      split
      · exact act_keeps_written rfl
      · exact stop_keeps

/-- Whatever a run quarantines could be written. -/
private theorem runProducer_allWritten (service : Service)
    (script : List Connection) :
    AllWritten (runProducer service script).actions := by
  have kept : (runProducer service script).Keeps AllWritten := by
    rw [runProducer]
    split
    · exact stop_keeps
    · apply (runEach_keeps
        (fun _ => runConnection_keeps_written) _ _).lastly
      apply allWritten_snoc
      intro message same
      cases same
  have meets := kept [] (by intro message member; cases member)
  cases stopped : (runProducer service script).stopped with
  | none => exact meets.normal stopped
  | some exit => exact meets.exits exit stopped

end Written

section Follows

variable {service : Service} {symbolMap : SymbolMap} {script : List Connection}

private theorem followsScript_of_writes
    (positive : ∀ limit, service.maxMessages = some limit → 0 < limit)
    (room : ∀ limit, service.maxReconnects = some limit → 0 ≤ limit)
    (plays : service.Plays symbolMap script)
    (yields : ∀ generator call, call < script.length →
      Returns (service.schedule generator call))
    (writes : service.WritesRejects symbolMap script) :
    service.FollowsScript symbolMap script (runProducer service script).actions
      (runProducer service script).stopped := by
  have meets := Service.runProducer_meets positive room plays writes
  cases stopped : (runProducer service script).stopped with
  | none =>
      have between := meets.normal stopped
      exact Service.FollowsScript.of_books (List.append_nil script).symm
        between.books between.reading (fun _ => rfl)
        (Or.inl ⟨rfl, between.reading.connections⟩)
  | some exit =>
      obtain ⟨passed, rest, split, ended⟩ := meets.exits exit stopped
      have finished : service.Finished symbolMap passed
          ([] ++ (runProducer service script).actions)
          (runProducer service script).state exit := by
        rcases ended with finished | failed
        · exact finished
        · obtain ⟨failure, generator, call, _, early, raised⟩ := failed.raised
          have within : call < script.length := by
            rw [split, List.length_append]
            omega
          obtain ⟨delay, yielded⟩ := yields generator call within
          rw [raised] at yielded
          cases yielded
      obtain ⟨remaining, reading, limits⟩ := finished.reading
      apply Service.FollowsScript.of_books split finished.books reading
      · intro below
        rcases limits with ⟨limit, bounded, reached⟩ | ⟨drained, _⟩
        · exact absurd reached (not_le.mpr (below limit bounded))
        · exact drained
      · rw [finished.returned]
        refine Or.inr ⟨rfl, ?_⟩
        rcases limits with messages | ⟨_, reconnects⟩
        · exact Or.inl messages
        · exact Or.inr reconnects

variable {actions : History} {stopped : Option Exit}

/-- A payload that the limits let a run receive is received. -/
theorem Service.FollowsScript.receives_payload
    (follows : service.FollowsScript symbolMap script actions stopped)
    {opened rest : List Connection} (split : script = opened ++ rest)
    (ceiling : ∀ limit, service.maxReconnects = some limit →
      (opened.length : Int) ≤ limit + 1)
    {before after : List Payload} {payload : Payload}
    (payloads : opened.flatMap Connection.payloads = before ++ payload :: after)
    (below : ∀ limit, service.maxMessages = some limit →
      (((readAt service.clock 0 before).flatMap
        (service.emitted symbolMap)).length : Int) < limit) :
    (service.clock before.length, payload) ∈ actions.receipts := by
  have receipts := Service.receipts_eq_readAt
    (fun before tsIngest payload after split =>
      (follows.receives before tsIngest payload after split).1)
  have whole : script.flatMap Connection.payloads =
      before ++ payload :: (after ++ rest.flatMap Connection.payloads) := by
    rw [split, List.flatMap_append, payloads]
    simp
  have consumed : actions.receipts.map Prod.snd <+:
      script.flatMap Connection.payloads :=
    follows.consumed.trans (List.IsPrefix.flatMap (List.take_prefix _ _) _)
  have upTo : before ++ [payload] <+: script.flatMap Connection.payloads := by
    rw [whole]
    exact ⟨_, (List.append_cons _ _ _).symm⟩
  -- The run has received more than what comes before the payload.
  have longer : before.length < (actions.receipts.map Prod.snd).length := by
    by_contra short
    have behind : actions.receipts.map Prod.snd <+: before :=
      List.prefix_of_prefix_length_le consumed ⟨_, whole.symm⟩
        (not_lt.mp short)
    have few : ∀ limit, service.maxMessages = some limit →
        (actions.produced.length : Int) < limit := by
      intro limit bounded
      obtain ⟨missing, same⟩ := behind
      have room := below limit bounded
      rw [← same, readAt_append, ← receipts, List.flatMap_append,
        ← follows.produced, List.length_append] at room
      push_cast at room
      omega
    have reaches : opened.length ≤ actions.connections := by
      rcases follows.outcome with ⟨_, all⟩ | ⟨_, messages | reconnects⟩
      · rw [all, split, List.length_append]
        exact Nat.le_add_right _ _
      · obtain ⟨limit, bounded, reached⟩ := messages
        exact absurd reached (not_le.mpr (few limit bounded))
      · obtain ⟨limit, bounded, all⟩ := reconnects
        have room := ceiling limit bounded
        omega
    have inside : opened <+: script.take actions.connections :=
      List.prefix_take_iff.mpr ⟨⟨rest, split.symm⟩, reaches⟩
    have received := (List.IsPrefix.flatMap inside
      Connection.payloads).length_le
    rw [← follows.drained few, payloads, List.length_append,
      List.length_cons] at received
    omega
  have reached : before ++ [payload] <+: actions.receipts.map Prod.snd :=
    List.prefix_of_prefix_length_le upTo consumed (by
      rw [List.length_append]
      exact longer)
  obtain ⟨more, same⟩ := reached
  rw [receipts, ← same, List.append_assoc, readAt_append]
  simp [readAt]

theorem Service.FollowsScript.writes
    (follows : service.FollowsScript symbolMap script
      (runProducer service script).actions stopped) :
    service.WritesRejects symbolMap script := by
  intro opened rest split ceiling before payload after payloads below
  have received := follows.receives_payload split ceiling payloads below
  intro message rejected
  apply runProducer_allWritten service script
  rw [follows.quarantined]
  exact List.mem_flatMap.mpr ⟨_, received, rejected⟩

end Follows

/-- The reconnect loop does what its script says, that is, everything that
normalizes is published once and in order up to the limits, and every reconnect
sleeps for the delay at its place in the schedule, exactly when the rejects of
the payloads it may receive can be written. -/
theorem runProducer_follows_script (service : Service) (symbolMap : SymbolMap)
    (script : List Connection)
    (positive : ∀ limit, service.maxMessages = some limit → 0 < limit)
    (room : ∀ limit, service.maxReconnects = some limit → 0 ≤ limit)
    (plays : service.Plays symbolMap script)
    (yields : ∀ generator call, call < script.length →
      Returns (service.schedule generator call)) :
    service.FollowsScript symbolMap script (runProducer service script).actions
        (runProducer service script).stopped ↔
      service.WritesRejects symbolMap script := by
  constructor
  · intro follows
    exact follows.writes
  · intro writes
    exact followsScript_of_writes positive room plays yields writes

/-- A trade of BTC-USD, and one that names no product. -/
def sampleTrades : Payload where
  members :=
    [("channel", .str "market_trades"),
      ("events", .arr [.obj [("type", .str "update"), ("trades", .arr
        [.obj [("product_id", .str "BTC-USD"), ("price", .str "100.0"),
            ("size", .str "1.0"), ("side", .str "BUY"),
            ("trade_id", .str "1"), ("time", .str "2026-01-01T00:00:00Z")],
          .obj [("price", .str "100.0")]])]])]
  decoded := by decide

/-- The symbols of the sample settings in the style of Coinbase. -/
def sampleSymbolMap : SymbolMap :=
  foldKeyed ({} : ExchangeProfile).exchangeSymbol (fun _ symbol => symbol) ""
    sampleSettings.source.symbols

def sampleService : Service where
  settings := sampleSettings
  maxMessages := some 3
  maxReconnects := some 5
  clock := fun received => 1000000 * received
  schedule := fun _ call => .ok (min 30 (1 / 2 * 2 ^ call))

private theorem sampleTrades_normalizes :
    returnsEvent (fun event => event.symbol = "BTC-USD")
      (normalizeSafe "coinbase" (.obj sampleTrades.members) 0
        (some sampleSymbolMap)) = true := by
  decide +kernel

/-- A connection that is lost after its payload, an empty one that the server
closes, and another productive one. -/
def sampleScript : List Connection :=
  [{ payloads := [sampleTrades], failure := some ⟨.osError, "boom"⟩ },
    { payloads := [] }, { payloads := [sampleTrades] }]

theorem sampleService_plays :
    sampleService.Plays sampleSymbolMap sampleScript where
  built := rfl
  client := by decide +kernel
  returns := by
    intro connection member payload inside tsIngest
    have same : payload = sampleTrades := by
      simp only [sampleScript, List.mem_cons, List.not_mem_nil, or_false]
        at member
      rcases member with first | second | third
      · simpa [first] using inside
      · simp [second] at inside
      · simpa [third] using inside
    obtain ⟨log, ran, _⟩ := returnsEvent_iff.mp sampleTrades_normalizes
    rw [same]
    exact (returns_normalizeSafe_iff tsIngest).mpr
      ((returns_normalizeSafe_iff 0).mp ⟨log, ran⟩)
  ending := by
    intro connection member failure failed
    simp only [sampleScript, List.mem_cons, List.not_mem_nil, or_false]
      at member
    rcases member with first | second | third
    · simp only [first, Option.some.injEq] at failed
      rw [← failed]
      rfl
    · simp [second] at failed
    · simp [third] at failed

theorem sampleTrades_written (service : Service) (symbolMap : SymbolMap)
    (tsIngest : Instant) :
    service.Written symbolMap (tsIngest, sampleTrades) :=
  Service.written_of_dumpable (by decide +kernel)

private theorem sampleService_writes :
    sampleService.WritesRejects sampleSymbolMap sampleScript := by
  apply Service.WritesRejects.of_written
  intro connection member payload inside tsIngest
  have same : payload = sampleTrades := by
    simp only [sampleScript, List.mem_cons, List.not_mem_nil, or_false]
      at member
    rcases member with first | second | third
    · simpa [first] using inside
    · simp [second] at inside
    · simpa [third] using inside
  rw [same]
  exact sampleTrades_written _ _ _

theorem runProducer_follows_script_sample :
    sampleService.FollowsScript sampleSymbolMap sampleScript
      (runProducer sampleService sampleScript).actions
      (runProducer sampleService sampleScript).stopped :=
  (runProducer_follows_script sampleService sampleSymbolMap sampleScript
    (by intro limit bounded; cases bounded; decide)
    (by intro limit bounded; cases bounded; decide)
    sampleService_plays (fun _ _ _ => ⟨_, rfl⟩)).mpr sampleService_writes

/-- Lists nested in one another. -/
def nestedList : Nat → Json
  | 0 => .arr []
  | depth + 1 => .arr [nestedList depth]

/-- A trade that names no product, with a price nested deep. -/
def deepTrade : Payload where
  members :=
    [("channel", .str "market_trades"),
      ("events", .arr [.obj [("type", .str "update"), ("trades", .arr
        [.obj [("price", nestedList 300)]])]])]
  decoded := by decide +kernel

/-- The reject cannot be written, which ends the producer. -/
theorem runProducer_raises_on_deep_reject :
    let script : List Connection := [{ payloads := [deepTrade] }]
    (runProducer sampleService script).stopped =
        some (.raised ⟨.typeError, "Recursion limit reached"⟩) ∧
      ¬ sampleService.FollowsScript sampleSymbolMap script
        (runProducer sampleService script).actions
        (runProducer sampleService script).stopped := by
  intro script
  refine ⟨by decide +kernel, ?_⟩
  intro follows
  have rejected : ∃ message ∈ sampleService.rejected sampleSymbolMap
      (sampleService.clock 0, deepTrade),
        dumpable message.payload = false := by
    decide +kernel
  obtain ⟨message, member, deep⟩ := rejected
  have written := follows.writes script [] (by simp) (by
      intro limit bounded
      cases bounded
      decide) [] deepTrade [] (by simp [script]) (by
      intro limit bounded
      cases bounded
      decide) message member
  rw [deep] at written
  cases written

end TickStream
