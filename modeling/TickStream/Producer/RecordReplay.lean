import TickStream.Producer.Reconnect
import TickStream.Producer.Recording

/-!
# Replaying what was recorded

A connection is recorded to a fixture and replayed from it, or published as it
comes.  Both loops make the same of every payload read at the same time, and
the fixture gives back the payloads that were recorded.
-/

namespace TickStream

open Python Library

/-- A quarantine record up to its sequence number, which live runs leave
zero. -/
def QuarantineMessage.content (message : QuarantineMessage) :
    String × String × Json :=
  (message.exchange, message.reason, message.payload)

section Recording

variable {exchange : String} {maxMessages : Option Int}
  {clock : Nat → Instant} {failure : Option Exc}
  {stream : List (Option String × List (String × Json))}
  {captured : List RecordedMessage}

private theorem recordLoop_exchange {count : Nat}
    (recorded : recordLoop exchange maxMessages clock failure count stream =
      .ok captured) :
    ∀ message ∈ captured, message.exchange = exchange := by
  induction stream generalizing count captured with
  | nil =>
      cases failure with
      | none =>
          cases recorded
          intro message member
          cases member
      | some raised => cases recorded
  | cons head rest induction =>
      simp only [recordLoop] at recorded
      split at recorded
      · cases recorded
        intro message member
        rw [List.mem_singleton.mp member]
      · obtain ⟨others, ran, same⟩ := bind_eq_ok_iff.mp recorded
        cases same
        intro message member
        rcases List.mem_cons.mp member with first | later
        · rw [first]
        · exact induction ran message later

end Recording

section Replay

variable {service : Service} {symbolMap : SymbolMap}

private theorem quarantineRejects_written {message : RecordedMessage}
    {rejects : List Reject}
    (written : ∀ reject ∈ rejects, dumpable reject.2 = true) :
    quarantineRejects message rejects =
      (rejects.map (fun reject =>
        ⟨message.exchange, message.seq, reject.1, reject.2⟩), .ok ()) := by
  induction rejects with
  | nil => rfl
  | cons reject rest induction =>
      have others := induction
        (fun other member => written other (by simp [member]))
      simp only [quarantineRejects, if_pos (written reject (by simp)), others,
        List.map_cons]

/-- Replaying a message publishes what its payload comes to. -/
private theorem replayMessage_eq
    (built : buildSymbolMap service.settings service.exchange = .ok symbolMap)
    {message : RecordedMessage} {payload : Payload} {tsIngest : Instant}
    (exchange : message.exchange = service.exchange)
    (same : message.payload = payload.members)
    (whole : dumpable (.obj payload.members) = true)
    (returns : Returns (normalizeSafe service.exchange (.obj payload.members)
      tsIngest (some symbolMap))) :
    ∃ quarantined, replayMessage service.settings tsIngest message =
        ⟨1, quarantined, service.emitted symbolMap (tsIngest, payload),
          .ok ()⟩ ∧
      quarantined.map QuarantineMessage.content =
        (service.rejected symbolMap (tsIngest, payload)).map
          QuarantineMessage.content := by
  obtain ⟨log, ran⟩ := returns
  have normalized : normalizeMessage service.settings tsIngest message =
      .ok log := by
    simp only [normalizeMessage, exchange, built, same]
    exact ran
  simp only [replayMessage, normalized, publishLog, Log.view,
    quarantineRejects_written (refused_dumpable whole ran), Service.emitted,
    Service.rejected, ran]
  refine ⟨_, rfl, ?_⟩
  simp only [List.map_map, exchange]
  rfl

private theorem replayLoop_reads
    (built : buildSymbolMap service.settings service.exchange = .ok symbolMap)
    {captured : List RecordedMessage} {payloads : List Payload}
    (exchange : ∀ message ∈ captured, message.exchange = service.exchange)
    (captures : captured.map RecordedMessage.payload =
      payloads.map Payload.members)
    (whole : ∀ payload ∈ payloads, dumpable (.obj payload.members) = true)
    (returns : ∀ payload ∈ payloads, ∀ tsIngest,
      Returns (normalizeSafe service.exchange (.obj payload.members) tsIngest
        (some symbolMap))) (count : Nat) :
    let replayed :=
      replayLoop service.settings none service.clock count captured
    let receipts := readAt service.clock count payloads
    replayed.outcome = .ok () ∧
      replayed.raw = receipts.flatMap (service.emitted symbolMap) ∧
      replayed.quarantined.map QuarantineMessage.content =
        (receipts.flatMap (service.rejected symbolMap)).map
          QuarantineMessage.content := by
  induction payloads generalizing captured count with
  | nil =>
      rw [List.map_nil, List.map_eq_nil_iff] at captures
      subst captures
      exact ⟨rfl, rfl, rfl⟩
  | cons payload rest induction =>
      obtain ⟨message, others, rfl, same, sameRest⟩ :=
        List.map_eq_cons_iff.mp captures
      obtain ⟨quarantined, replayed, contents⟩ := replayMessage_eq built
        (exchange message (by simp)) same (whole payload (by simp))
        (returns payload (by simp) (service.clock count))
      obtain ⟨ended, raw, records⟩ := induction
        (fun other member => exchange other (by simp [member])) sameRest
        (fun other member => whole other (by simp [member]))
        (fun other member => returns other (by simp [member])) (count + 1)
      simp only [replayLoop, Option.any_none, Bool.false_eq_true, if_false,
        replayed, ReplayRun.andThen, readAt, List.zipIdx_cons, List.map_cons,
        List.flatMap_cons, List.map_append]
      refine ⟨ended, ?_, ?_⟩
      · rw [raw]
        rfl
      · rw [contents, records]
        rfl

end Replay

section Live

variable {service : Service} {symbolMap : SymbolMap}

/-- A connection that is read to its end publishes what its payloads come
to. -/
private theorem runProducer_connection {connection : Connection}
    (unlimited : service.maxMessages = none)
    (room : ∀ limit, service.maxReconnects = some limit → 0 ≤ limit)
    (plays : service.Plays symbolMap [connection])
    (writes : service.WritesRejects symbolMap [connection]) :
    let live := (runProducer service [connection]).actions
    let receipts := readAt service.clock 0 connection.payloads
    History.produced live = receipts.flatMap (service.emitted symbolMap) ∧
      History.quarantined live =
        receipts.flatMap (service.rejected symbolMap) := by
  have positive : ∀ limit, service.maxMessages = some limit → 0 < limit := by
    intro limit bounded
    rw [unlimited] at bounded
    cases bounded
  have meets := Service.runProducer_meets positive room plays writes
  have done : ∃ state, service.Books symbolMap
        (runProducer service [connection]).actions state ∧
      service.Reading [connection] []
        (runProducer service [connection]).actions := by
    cases stopped : (runProducer service [connection]).stopped with
    | none =>
        have between := meets.normal stopped
        exact ⟨_, between.books, between.reading⟩
    | some exit =>
        obtain ⟨passed, rest, split, ended⟩ := meets.exits exit stopped
        have whole : 0 < passed.length → passed = [connection] := by
          intro opened
          cases passed with
          | nil => exact absurd opened (lt_irrefl 0)
          | cons first others =>
              obtain ⟨same, empty⟩ := List.cons.inj split
              rw [same, (List.append_eq_nil_iff.mp empty.symm).1]
        rcases ended with finished | failed
        · obtain ⟨remaining, reading, limits⟩ := finished.reading
          rcases limits with ⟨limit, bounded, _⟩ |
            ⟨drained, limit, bounded, opened⟩
          · rw [unlimited] at bounded
            cases bounded
          · have above := room limit bounded
            have counted := reading.connections
            have same := whole (by omega)
            rw [same, drained] at reading
            exact ⟨_, finished.books, reading⟩
        · obtain ⟨failure, generator, call, _, early, _⟩ := failed.raised
          have same := whole (by omega)
          rw [same] at failed
          exact ⟨_, failed.books, failed.reading⟩
  obtain ⟨state, books, reading⟩ := done
  have received := reading.received
  rw [List.append_nil, List.flatMap_singleton] at received
  have receipts := Service.receipts_eq_readAt
    (fun before tsIngest payload after split =>
      (books.legal before _ after split).1)
  rw [received] at receipts
  exact ⟨by rw [books.produced, receipts], by rw [books.quarantined, receipts]⟩

end Live

/-- Recording a connection and replaying the fixture publishes what a live
run on the connection publishes, and quarantines the same records; fixtures
give back what was written. -/
theorem replay_reproduces_live (service : Service) (symbolMap : SymbolMap)
    (connection : Connection) (unlimited : service.maxMessages = none)
    (room : ∀ limit, service.maxReconnects = some limit → 0 ≤ limit)
    (plays : service.Plays symbolMap [connection]) (codec : FixtureCodec)
    (maxMessages : Option Int) (recordClock : Nat → Instant)
    (failure : Option Exc)
    (stream : List (Option String × List (String × Json)))
    (captured : List RecordedMessage)
    (recorded : recordOnce service.exchange maxMessages recordClock failure
      stream = .ok captured)
    (captures : captured.map RecordedMessage.payload =
      connection.payloads.map Payload.members)
    (carries : ∀ message ∈ captured, codec.Carries message) :
    (∃ fixture, codec.readFixture (codec.writeFixture captured).1 =
        .ok fixture ∧
      let replayed := replayLoop service.settings none service.clock 0 fixture
      let live := (runProducer service [connection]).actions
      replayed.outcome = .ok () ∧ replayed.raw = History.produced live ∧
        replayed.quarantined.map QuarantineMessage.content =
          (History.quarantined live).map QuarantineMessage.content) ∧
    ∀ messages, (∀ message ∈ messages, codec.Carries message) →
      (codec.writeFixture messages).2 = .ok messages.length ∧
        codec.readFixture (codec.writeFixture messages).1 = .ok messages ∧
        countFixture (codec.writeFixture messages).1 = messages.length := by
  obtain ⟨_, read, _⟩ := fixture_roundTrip carries
  -- What was written to the fixture can be written as rejects.
  have whole : ∀ payload ∈ connection.payloads,
      dumpable (.obj payload.members) = true := by
    intro payload member
    have recordedPayload : payload.members ∈
        captured.map RecordedMessage.payload := by
      rw [captures]
      exact List.mem_map_of_mem member
    obtain ⟨message, inside, same⟩ := List.mem_map.mp recordedPayload
    obtain ⟨_, dumped, _⟩ := (carries message inside).written
    rw [← same]
    exact codec.writes dumped
  have writes : service.WritesRejects symbolMap [connection] := by
    apply Service.WritesRejects.of_written
    intro opened member payload inside tsIngest
    rw [List.mem_singleton.mp member] at inside
    exact Service.written_of_dumpable (whole payload inside)
  obtain ⟨ended, raw, records⟩ := replayLoop_reads plays.built
    (recordLoop_exchange recorded) captures whole
    (plays.returns connection (by simp)) 0
  obtain ⟨produced, quarantined⟩ :=
    runProducer_connection unlimited room plays writes
  refine ⟨⟨captured, read, ended, ?_, ?_⟩, ?_⟩
  · rw [raw, produced]
  · rw [records, quarantined]
  · intro messages carried
    exact fixture_roundTrip carried

/-- A recorded message with the trades of the sample. -/
def sampleMessage : RecordedMessage where
  seq := 0
  tsRecorded := 0
  exchange := "coinbase"
  channel := some "market_trades"
  payload := sampleTrades.members

/-- What the line of the sample holds between its braces. -/
def sampleText : Bytes :=
  ("\"seq\":0,\"ts_recorded\":\"1970-01-01T00:00:00Z\"," ++
    "\"exchange\":\"coinbase\",\"channel\":\"market_trades\"," ++
    "\"payload\":\x7b\"channel\":\"market_trades\",\"events\":[" ++
    "\x7b\"type\":\"update\",\"trades\":[" ++
    "\x7b\"product_id\":\"BTC-USD\",\"price\":\"100.0\",\"size\":\"1.0\"," ++
    "\"side\":\"BUY\",\"trade_id\":\"1\"," ++
    "\"time\":\"2026-01-01T00:00:00Z\"\x7d," ++
    "\x7b\"price\":\"100.0\"\x7d]\x7d]\x7d").toUTF8.data.toList

def sampleLine : Bytes := 123 :: (sampleText ++ [125])

/-- The codec, as far as the sample needs it. -/
def sampleCodec : FixtureCodec where
  dumps message :=
    if dumpable (.obj message.payload) then .ok sampleLine
    else .error (dumpFailure (.obj message.payload))
  modelValidateJson line :=
    if line = sampleLine then .ok sampleMessage
    else raise .validationError "Invalid JSON"
  writes := by
    intro message text written
    split_ifs at written with whole
    exact whole

private theorem sampleMessage_carried : sampleCodec.Carries sampleMessage := by
  have whole : dumpable (.obj sampleMessage.payload) = true := by
    decide +kernel
  have dumped : sampleCodec.dumps sampleMessage = .ok sampleLine := by
    simp only [sampleCodec, if_pos whole]
  refine ⟨⟨sampleText, dumped, by decide +kernel, ?_⟩⟩
  change sampleCodec.modelValidateJson sampleLine = _
  simp only [sampleCodec, if_true]

def sampleConnection : Connection := { payloads := [sampleTrades] }

def recordedService : Service where
  settings := sampleSettings
  clock := fun received => 1000000 * received
  schedule := fun _ call => .ok (min 30 (1 / 2 * 2 ^ call))

private theorem recordedService_plays :
    recordedService.Plays sampleSymbolMap [sampleConnection] where
  built := sampleService_plays.built
  client := sampleService_plays.client
  returns connection member :=
    sampleService_plays.returns connection
      (by simp [sampleScript, sampleConnection, List.mem_singleton.mp member])
  ending connection member :=
    sampleService_plays.ending connection
      (by simp [sampleScript, sampleConnection, List.mem_singleton.mp member])

theorem replay_reproduces_live_sample :
    (∃ fixture, sampleCodec.readFixture
        (sampleCodec.writeFixture [sampleMessage]).1 = .ok fixture ∧
      let replayed := replayLoop recordedService.settings none
        recordedService.clock 0 fixture
      let live := (runProducer recordedService [sampleConnection]).actions
      replayed.outcome = .ok () ∧ replayed.raw = History.produced live ∧
        replayed.quarantined.map QuarantineMessage.content =
          (History.quarantined live).map QuarantineMessage.content) ∧
    ∀ messages, (∀ message ∈ messages, sampleCodec.Carries message) →
      (sampleCodec.writeFixture messages).2 = .ok messages.length ∧
        sampleCodec.readFixture (sampleCodec.writeFixture messages).1 =
          .ok messages ∧
        countFixture (sampleCodec.writeFixture messages).1 =
          messages.length := by
  apply replay_reproduces_live recordedService sampleSymbolMap
    sampleConnection rfl (by intro limit bounded; cases bounded)
    recordedService_plays sampleCodec none (fun _ => 0) none
    [(some "market_trades", sampleTrades.members)] [sampleMessage] rfl rfl
  intro message member
  rw [List.mem_singleton.mp member]
  exact sampleMessage_carried

end TickStream
