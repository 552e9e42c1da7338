import TickStream.Producer.Reconnect

/-!
# Frames off the socket

A client decodes the frames of its connection, drops the control frames and
hands the others on.  A frame it cannot make a message of raises out of the
stream, and not as a disconnect: the producer flushes and ends instead of
connecting again.  The connection itself and `orjson` are parameters; the
subscription requests are left out.
-/

namespace TickStream

open Python Library

/-- How `orjson` decodes a frame.  Its integers have 64 bits, and what it
raises is a `ValueError`. -/
structure Decoder where
  loads : Bytes → Result Json
  decoded : ∀ {raw value}, loads raw = .ok value → integersFit value = true
  refuses : ∀ {raw failure}, loads raw = .error failure →
    failure.cls = .valueError

/-- What a connection delivers, and what it raises after that unless the server
closes it. -/
structure Socket where
  frames : List Bytes
  failure : Option Exc := none

inductive Client where
  | coinbase
  | binanceUs
deriving DecidableEq, Repr

/-- The client `build_client` constructs for an exchange it accepts. -/
def clientOf (exchange : String) : Client :=
  if exchange = "coinbase" then .coinbase else .binanceUs

/-- `orjson.loads(raw)`, as far as the result has the method `get`. -/
def Decoder.payload (decoder : Decoder) (raw : Bytes) : Result Payload :=
  match found : decoder.loads raw with
  | .error failure => .error failure
  | .ok (.obj members) => .ok ⟨members, decoder.decoded found⟩
  | .ok other =>
      raise .attributeError
        ("'" ++ other.typeName ++ "' object has no attribute 'get'")

def controlChannels : List String := ["subscriptions"]

/-- `channel in _CONTROL_CHANNELS`; lists and dictionaries have no hash. -/
def isControl : Json → Result Bool
  | .str name => .ok (controlChannels.contains name)
  | .arr _ => raise .typeError "unhashable type: 'list'"
  | .obj _ => raise .typeError "unhashable type: 'dict'"
  | _ => .ok false

/-- `stream.split("@", 1)[1] if "@" in stream else None`. -/
def streamChannel : Json → Result Json
  | .str stream =>
      if '@' ∈ stream.toList then
        .ok (.str (String.ofList
          ((stream.toList.dropWhile (fun char => char ≠ '@')).drop 1)))
      else .ok .null
  | .arr items =>
      if items.any (fun item => item.isStr "@") then
        raise .attributeError "'list' object has no attribute 'split'"
      else .ok .null
  | .obj members =>
      if members.any (fun entry => entry.1 = "@") then
        raise .attributeError "'dict' object has no attribute 'split'"
      else .ok .null
  | other =>
      raise .typeError
        ("argument of type '" ++ other.typeName ++ "' is not iterable")

/-- The member of a message under `name`. -/
def Payload.get (payload : Payload) (name : String) (fallback : Json) : Json :=
  (Json.member? payload.members name).getD fallback

/-- One turn of `stream`: the channel and the message, or nothing for a control
frame. -/
def Client.frame (client : Client) (decoder : Decoder) (raw : Bytes) :
    Result (Option (Json × Payload)) := do
  let payload ← decoder.payload raw
  match client with
  | .coinbase =>
      let channel := payload.get "channel" .null
      let control ← isControl channel
      return if control then none else some (channel, payload)
  | .binanceUs =>
      let channel ← streamChannel (payload.get "stream" (.str ""))
      return some (channel, payload)

section Stream

variable {β : Type} (read : Bytes → Result (Option β))

/-- What a stream yields, and what it raises at its end. -/
def readFrames (failure : Option Exc) : List Bytes → List β × Option Exc
  | [] => ([], failure)
  | raw :: rest =>
      match read raw with
      | .error malformed => ([], some malformed)
      | .ok none => readFrames failure rest
      | .ok (some item) =>
          let (items, ending) := readFrames failure rest
          (item :: items, ending)

/-- What a frame yields. -/
def yielded (raw : Bytes) : Option β :=
  match read raw with
  | .ok item => item
  | .error _ => none

variable {read} {failure : Option Exc} {frames : List Bytes}

theorem readFrames_append
    (readable : ∀ raw ∈ frames, Returns (read raw)) (later : List Bytes) :
    readFrames read failure (frames ++ later) =
      (frames.filterMap (yielded read) ++ (readFrames read failure later).1,
        (readFrames read failure later).2) := by
  induction frames with
  | nil => rfl
  | cons raw rest induction =>
      obtain ⟨item, decoded⟩ := readable raw (by simp)
      have others := induction (fun other member => readable other (by
        simp [member]))
      cases item with
      | none =>
          have silent : yielded read raw = none := by
            simp only [yielded, decoded]
          simp only [List.cons_append, readFrames, decoded, others,
            List.filterMap_cons_none silent]
      | some message =>
          have spoken : yielded read raw = some message := by
            simp only [yielded, decoded]
          simp only [List.cons_append, readFrames, decoded, others,
            List.filterMap_cons_some spoken]

private theorem readFrames_readable
    (readable : ∀ raw ∈ frames, Returns (read raw)) :
    readFrames read failure frames =
      (frames.filterMap (yielded read), failure) := by
  have whole : readFrames read failure (frames ++ []) =
      (frames.filterMap (yielded read) ++ (readFrames read failure []).1,
        (readFrames read failure []).2) := readFrames_append readable []
  simpa [readFrames] using whole

/-- A stream ends at its first malformed frame. -/
private theorem readFrames_malformed
    (readable : ∀ raw ∈ frames, Returns (read raw)) {raw : Bytes}
    {malformed : Exc} (broken : read raw = .error malformed)
    (later : List Bytes) :
    readFrames read failure (frames ++ raw :: later) =
      (frames.filterMap (yielded read), some malformed) := by
  rw [readFrames_append readable]
  simp only [readFrames, broken, List.append_nil]

end Stream

/-- The connection the producer sees. -/
def Socket.connection (client : Client) (decoder : Decoder) (socket : Socket) :
    Connection :=
  let (items, ending) :=
    readFrames (client.frame decoder) socket.failure socket.frames
  { payloads := items.map Prod.snd, failure := ending }

section Malformed

variable {client : Client} {decoder : Decoder}

theorem Decoder.payload_error {raw : Bytes} {malformed : Exc}
    (broken : decoder.payload raw = .error malformed) :
    disconnects malformed = false := by
  simp only [Decoder.payload] at broken
  split at broken
  · rename_i failure refused
    cases broken
    simp [disconnects, decoder.refuses refused]
  · cases broken
  · cases broken
    rfl

theorem Decoder.payload_eq {raw : Bytes} {members : List (String × Json)}
    (loaded : decoder.loads raw = .ok (.obj members)) :
    decoder.payload raw = .ok ⟨members, decoder.decoded loaded⟩ := by
  simp only [Decoder.payload]
  split
  · rename_i failure refused
    rw [loaded] at refused
    cases refused
  · rename_i found same
    rw [loaded] at same
    cases same
    rfl
  · rename_i found notObject same
    rw [loaded] at same
    cases same
    exact absurd rfl (notObject members)

theorem Decoder.payload_refused {raw : Bytes} {malformed : Exc}
    (refused : decoder.loads raw = .error malformed) :
    decoder.payload raw = .error malformed := by
  simp only [Decoder.payload]
  split
  · rename_i failure same
    rw [refused] at same
    cases same
    rfl
  · rename_i found same
    rw [refused] at same
    cases same
  · rename_i found _ same
    rw [refused] at same
    cases same

private theorem isControl_error {channel : Json} {malformed : Exc}
    (broken : isControl channel = .error malformed) :
    disconnects malformed = false := by
  cases channel with
  | arr items =>
      cases broken
      rfl
  | obj members =>
      cases broken
      rfl
  | _ => cases broken

private theorem streamChannel_error {stream : Json} {malformed : Exc}
    (broken : streamChannel stream = .error malformed) :
    disconnects malformed = false := by
  cases stream with
  | str text =>
      simp only [streamChannel] at broken
      split at broken <;> cases broken
  | arr items =>
      simp only [streamChannel] at broken
      split at broken
      · cases broken
        rfl
      · cases broken
  | obj members =>
      simp only [streamChannel] at broken
      split at broken
      · cases broken
        rfl
      · cases broken
  | _ =>
      cases broken
      rfl

/-- What a malformed frame raises is no disconnect. -/
theorem Client.frame_error {raw : Bytes} {malformed : Exc}
    (broken : client.frame decoder raw = .error malformed) :
    disconnects malformed = false := by
  simp only [Client.frame] at broken
  cases decoded : decoder.payload raw with
  | error failure =>
      rw [decoded] at broken
      cases broken
      exact Decoder.payload_error decoded
  | ok payload =>
      rw [decoded] at broken
      cases client with
      | coinbase =>
          cases control : isControl (payload.get "channel" .null) with
          | error failure =>
              simp only [bind, Except.bind, control] at broken
              cases broken
              exact isControl_error control
          | ok isControlled =>
              simp only [bind, Except.bind, control] at broken
              cases broken
      | binanceUs =>
          cases channel : streamChannel (payload.get "stream" (.str "")) with
          | error failure =>
              simp only [bind, Except.bind, channel] at broken
              cases broken
              exact streamChannel_error channel
          | ok name =>
              simp only [bind, Except.bind, channel] at broken
              cases broken

end Malformed

namespace Service

variable {service : Service} {symbolMap : SymbolMap}
  {passed : List Connection} {history : History} {state : ProducerState}

/-- The last connection has raised after all its payloads, unless the run has
returned at the message limit. -/
def Broken (service : Service) (symbolMap : SymbolMap) (failure : Exc)
    (passed : List Connection) (history : History) (state : ProducerState)
    (exit : Exit) : Prop :=
  service.Finished symbolMap passed history state exit ∨
    exit = .raised failure ∧ service.Within symbolMap passed [] history state

/-- A connection that ends in another exception than a disconnect, on whose
payloads normalization returns, with rejects that can be written. -/
structure Breaks (service : Service) (symbolMap : SymbolMap) (failure : Exc)
    (connection : Connection) : Prop where
  fatal : disconnects failure = false
  ends : connection.failure = some failure
  returns : ∀ payload ∈ connection.payloads, ∀ tsIngest,
    Returns (normalizeSafe service.exchange (.obj payload.members) tsIngest
      (some symbolMap))
  written : ∀ payload ∈ connection.payloads, ∀ tsIngest,
    service.Written symbolMap (tsIngest, payload)

variable {failure : Exc} {connection : Connection}

theorem Within.readStream_raises
    (positive : ∀ limit, service.maxMessages = some limit → 0 < limit)
    (breaks : service.Breaks symbolMap failure connection)
    (within : service.Within symbolMap passed connection.payloads history
      state) :
    ((service.readStream symbolMap connection state).handle onException).Meets
      history (fun _ _ => False)
      (service.Broken symbolMap failure passed) := by
  have loop : (runEach (service.receivePayload symbolMap) state
      connection.payloads).Meets history (service.Within symbolMap passed [])
        (service.Finished symbolMap passed) := by
    apply runEach_meets (service.Within symbolMap passed) _ within
    intro payload member rest history state inside
    exact inside.receive positive (breaks.returns payload member _)
      (breaks.written payload member _)
  have stream : (service.readStream symbolMap connection state).Meets history
      (fun _ _ => False) (service.Broken symbolMap failure passed) := by
    apply (loop.mono (fun _ _ drained => drained)
      (fun _ _ _ finished => Or.inl finished)).andThen
    intro history state drained
    simp only [breaks.ends]
    exact Run.stop_meets (Or.inr ⟨rfl, drained⟩)
  apply stream.handle
  intro history state exit ended
  rcases ended with finished | ⟨same, drained⟩
  · have returned := finished.returned
    subst returned
    exact Run.stop_meets (Or.inl finished)
  · subst same
    simp only [onException, breaks.fatal, Bool.false_eq_true, if_false]
    exact Run.stop_meets (Or.inr ⟨rfl, drained⟩)

theorem Between.runConnection_raises
    (positive : ∀ limit, service.maxMessages = some limit → 0 < limit)
    (client : buildClient service.settings service.exchange = .ok ())
    (breaks : service.Breaks symbolMap failure connection)
    (between : service.Between symbolMap passed history state) :
    (service.runConnection symbolMap state connection).Meets history
      (fun _ _ => False)
      (service.Broken symbolMap failure (passed ++ [connection])) := by
  simp only [Service.runConnection, client]
  apply (Run.act_meets between.connect).andThen
  intro history state within
  apply (within.readStream_raises positive breaks).andThen
  intro history state impossible
  exact impossible.elim

/-- A run over a script with such a connection has ended before it, or flushes
and ends there. -/
private theorem runProducer_raises
    (positive : ∀ limit, service.maxMessages = some limit → 0 < limit)
    (room : ∀ limit, service.maxReconnects = some limit → 0 ≤ limit)
    {earlier : List Connection} (later : List Connection)
    (plays : service.Plays symbolMap earlier)
    (writes : service.WritesRejects symbolMap earlier)
    (breaks : service.Breaks symbolMap failure connection) :
    (runProducer service (earlier ++ connection :: later)).Meets []
      (fun _ _ => False) (fun history state exit =>
        (∃ passed rest, earlier ++ [connection] = passed ++ rest ∧
          service.Ended symbolMap passed history state exit) ∨
        ∃ before, history = before ++ [.flush] ∧ exit = .raised failure ∧
          service.Within symbolMap (earlier ++ [connection]) [] before
            state) := by
  have meets := runProducer_meets positive room plays writes
  simp only [runProducer, plays.built] at meets ⊢
  rw [runEach_append]
  cases stopped : (runEach (service.runConnection symbolMap) {}
      earlier).stopped with
  | some exit =>
      simp only [Run.andThen, stopped]
      constructor
      · intro done
        rw [Run.lastly_stopped, stopped] at done
        cases done
      · intro reason ended
        obtain ⟨passed, rest, split, finished⟩ := meets.exits reason ended
        exact Or.inl ⟨passed, rest ++ [connection], by simp [split], finished⟩
  | none =>
      have between := meets.normal (by rw [Run.lastly_stopped, stopped])
      rw [Run.lastly_eq _ stopped] at between
      have quiet : (runEach (service.runConnection symbolMap) {}
          earlier).Meets [] (service.Between symbolMap earlier)
            (service.Broken symbolMap failure (earlier ++ [connection])) := by
        constructor
        · intro _
          exact between
        · intro reason ended
          rw [stopped] at ended
          cases ended
      have last : ∀ history state, service.Between symbolMap earlier history
          state → (runEach (service.runConnection symbolMap) state
            (connection :: later)).Meets history (fun _ _ => False)
              (service.Broken symbolMap failure (earlier ++ [connection])) := by
        intro history state between
        apply (between.runConnection_raises positive plays.client
          breaks).andThen
        intro history state impossible
        exact impossible.elim
      apply (quiet.andThen last).lastly
      intro history state exit ended
      rcases ended with finished | ⟨raised, inside⟩
      · exact Or.inl ⟨earlier ++ [connection], [], by simp,
          Or.inl finished.flush⟩
      · exact Or.inr ⟨history, rfl, raised, inside⟩

end Service

section Live

variable {service : Service} {symbolMap : SymbolMap} {client : Client}
  {decoder : Decoder}

private theorem connection_readable {socket : Socket}
    (readable : ∀ raw ∈ socket.frames, Returns (client.frame decoder raw)) :
    socket.connection client decoder =
      { payloads := (socket.frames.filterMap
          (yielded (client.frame decoder))).map Prod.snd
        failure := socket.failure } := by
  simp only [Socket.connection, readFrames_readable readable]

private theorem connection_malformed {socket : Socket} {good later : List Bytes}
    {raw : Bytes} {malformed : Exc}
    (frames : socket.frames = good ++ raw :: later)
    (readable : ∀ raw ∈ good, Returns (client.frame decoder raw))
    (broken : client.frame decoder raw = .error malformed) :
    socket.connection client decoder =
      { payloads := (good.filterMap
          (yielded (client.frame decoder))).map Prod.snd
        failure := some malformed } := by
  simp only [Socket.connection, frames, readFrames_malformed readable broken]

private theorem yielded_eq_some {raw : Bytes} {item : Json × Payload}
    (spoken : yielded (client.frame decoder) raw = some item) :
    client.frame decoder raw = .ok (some item) := by
  simp only [yielded] at spoken
  cases decoded : client.frame decoder raw with
  | error failure =>
      rw [decoded] at spoken
      cases spoken
  | ok found =>
      rw [decoded] at spoken
      rw [show found = some item from spoken]

/-- What the frames before a malformed one are assumed to be: the exchange has
a symbol map and a client, the frames can be read and normalization returns on
them, with rejects that can be written, and no connection ends with another
exception than a disconnect. -/
structure Feeds (service : Service) (symbolMap : SymbolMap) (client : Client)
    (decoder : Decoder) (sockets : List Socket) (frames : List Bytes) :
    Prop where
  built : buildSymbolMap service.settings service.exchange = .ok symbolMap
  accepted : Service.buildClient service.settings service.exchange = .ok ()
  ending : ∀ socket ∈ sockets, ∀ failure, socket.failure = some failure →
    disconnects failure = true
  readable : ∀ raw ∈ frames, Returns (client.frame decoder raw)
  returns : ∀ raw ∈ frames, ∀ channel payload,
    client.frame decoder raw = .ok (some (channel, payload)) → ∀ tsIngest,
      Returns (normalizeSafe service.exchange (.obj payload.members) tsIngest
        (some symbolMap))
  written : ∀ raw ∈ frames, ∀ channel payload,
    client.frame decoder raw = .ok (some (channel, payload)) → ∀ tsIngest,
      service.Written symbolMap (tsIngest, payload)

/-- The messages some frames hold. -/
def messagesOf (client : Client) (decoder : Decoder) (frames : List Bytes) :
    List Payload :=
  (frames.filterMap (yielded (client.frame decoder))).map Prod.snd

variable {sockets : List Socket} {frames good : List Bytes}

theorem Feeds.message (feeds : Feeds service symbolMap client decoder sockets
    frames) {payload : Payload} {heard : List Bytes}
    (inside : ∀ raw ∈ heard, raw ∈ frames)
    (member : payload ∈ messagesOf client decoder heard) (tsIngest : Instant) :
    Returns (normalizeSafe service.exchange (.obj payload.members) tsIngest
        (some symbolMap)) ∧
      service.Written symbolMap (tsIngest, payload) := by
  obtain ⟨⟨channel, message⟩, found, rfl⟩ := List.mem_map.mp member
  obtain ⟨raw, rawMember, spoken⟩ := List.mem_filterMap.mp found
  have heard := yielded_eq_some spoken
  exact ⟨feeds.returns raw (inside raw rawMember) channel message heard
      tsIngest,
    feeds.written raw (inside raw rawMember) channel message heard tsIngest⟩

/-- The connections of readable sockets. -/
theorem Feeds.plays
    (feeds : Feeds service symbolMap client decoder sockets
      (sockets.flatMap Socket.frames ++ good)) :
    service.Plays symbolMap
        (sockets.map (Socket.connection client decoder)) ∧
      service.WritesRejects symbolMap
        (sockets.map (Socket.connection client decoder)) ∧
      (sockets.map (Socket.connection client decoder)).flatMap
          Connection.payloads =
        messagesOf client decoder (sockets.flatMap Socket.frames) := by
  have listed : ∀ socket ∈ sockets, ∀ raw ∈ socket.frames,
      raw ∈ sockets.flatMap Socket.frames ++ good := by
    intro socket member raw inside
    exact List.mem_append_left _
      (List.mem_flatMap.mpr ⟨socket, member, inside⟩)
  have shaped : ∀ socket ∈ sockets, socket.connection client decoder =
      { payloads := messagesOf client decoder socket.frames
        failure := socket.failure } := by
    intro socket member
    exact connection_readable (fun raw inside =>
      feeds.readable raw (listed socket member raw inside))
  have messages : ∀ connection ∈
      sockets.map (Socket.connection client decoder),
        ∀ payload ∈ connection.payloads, ∀ tsIngest,
          Returns (normalizeSafe service.exchange (.obj payload.members)
              tsIngest (some symbolMap)) ∧
            service.Written symbolMap (tsIngest, payload) := by
    intro connection member payload inside tsIngest
    obtain ⟨socket, socketMember, rfl⟩ := List.mem_map.mp member
    rw [shaped socket socketMember] at inside
    exact feeds.message (listed socket socketMember) inside tsIngest
  refine ⟨⟨feeds.built, feeds.accepted, ?_, ?_⟩,
    Service.WritesRejects.of_written ?_, ?_⟩
  · intro connection member payload inside tsIngest
    exact (messages connection member payload inside tsIngest).1
  · intro connection member failure failed
    obtain ⟨socket, socketMember, rfl⟩ := List.mem_map.mp member
    rw [shaped socket socketMember] at failed
    exact feeds.ending socket socketMember failure failed
  · intro connection member payload inside tsIngest
    exact (messages connection member payload inside tsIngest).2
  · rw [List.flatMap_map, messagesOf, List.filterMap_flatMap, List.map_flatMap]
    apply List.flatMap_congr
    intro socket member
    rw [shaped socket member]
    rfl

/-- The producer publishes what the messages before a malformed frame come to,
flushes and ends with the exception the frame raised.  Only a limit or the
schedule can end it before; it does not reconnect and reads nothing more. -/
theorem malformed_frame_ends_producer
    (positive : ∀ limit, service.maxMessages = some limit → 0 < limit)
    (room : ∀ limit, service.maxReconnects = some limit → 0 ≤ limit)
    {earlier : List Socket} (later : List Socket) {socket : Socket}
    {good rest : List Bytes} {raw : Bytes} {malformed : Exc}
    (frames : socket.frames = good ++ raw :: rest)
    (broken : (clientOf service.exchange).frame decoder raw = .error malformed)
    (feeds : Feeds service symbolMap (clientOf service.exchange) decoder earlier
      (earlier.flatMap Socket.frames ++ good)) :
    let run := runProducer service ((earlier ++ socket :: later).map
      (Socket.connection (clientOf service.exchange) decoder))
    let history : History := run.actions
    history.produced = history.receipts.flatMap (service.emitted symbolMap) ∧
    history.quarantined =
      history.receipts.flatMap (service.rejected symbolMap) ∧
    ((run.stopped = some (.returned history.produced.length) ∧
        ((∃ limit, service.maxMessages = some limit ∧
            limit ≤ (history.produced.length : Int)) ∨
          ∃ limit, service.maxReconnects = some limit ∧
            (history.connections : Int) = limit + 1)) ∨
      (∃ failure generator call, run.stopped = some (.raised failure) ∧
        service.schedule generator call = .error failure) ∨
      (run.stopped = some (.raised malformed) ∧
        history.connections = earlier.length + 1 ∧
        history.receipts.map Prod.snd = messagesOf
          (clientOf service.exchange) decoder (earlier.flatMap Socket.frames ++
            good) ∧
        ∃ before, history = before ++ [.flush])) := by
  obtain ⟨plays, writes, payloads⟩ := feeds.plays
  have inGood : ∀ raw ∈ good, raw ∈ earlier.flatMap Socket.frames ++ good :=
    fun raw member => List.mem_append_right _ member
  have shape := connection_malformed frames
    (fun raw member => feeds.readable raw (inGood raw member)) broken
  have breaks : service.Breaks symbolMap malformed
      (socket.connection (clientOf service.exchange) decoder) := by
    refine ⟨Client.frame_error broken, by rw [shape], ?_, ?_⟩
    · intro payload member tsIngest
      rw [shape] at member
      exact (feeds.message inGood member tsIngest).1
    · intro payload member tsIngest
      rw [shape] at member
      exact (feeds.message inGood member tsIngest).2
  intro run history
  have same : run = runProducer service
      (earlier.map (Socket.connection (clientOf service.exchange) decoder) ++
        socket.connection (clientOf service.exchange) decoder ::
          later.map (Socket.connection (clientOf service.exchange) decoder)) := by
    simp only [run, List.map_append, List.map_cons]
  have meets := Service.runProducer_raises positive room
    (later.map (Socket.connection (clientOf service.exchange) decoder)) plays
    writes breaks
  rw [← same] at meets
  cases stopped : run.stopped with
  | none => exact (meets.normal stopped).elim
  | some exit =>
      rcases meets.exits exit stopped with ⟨passed, others, split, ended⟩ |
        ⟨before, flushed, raised, inside⟩
      · rcases ended with finished | failed
        · obtain ⟨remaining, reading, limits⟩ := finished.reading
          refine ⟨finished.books.produced, finished.books.quarantined,
            Or.inl ⟨by rw [finished.returned]; rfl, ?_⟩⟩
          rcases limits with messages | ⟨_, reconnects⟩
          · exact Or.inl messages
          · exact Or.inr reconnects
        · obtain ⟨failure, generator, call, raised, _, yielded⟩ := failed.raised
          exact ⟨failed.books.produced, failed.books.quarantined,
            Or.inr (Or.inl ⟨failure, generator, call, by rw [raised], yielded⟩)⟩
      · have books := inside.books.act (Service.flush_allowed _) _ rfl rfl rfl
          rfl rfl
        have reading := inside.reading.act
          (show History.connections [.flush] = 0 from rfl) rfl
        rw [← flushed] at books reading
        refine ⟨books.produced, books.quarantined, Or.inr (Or.inr
          ⟨by rw [raised], ?_, ?_, before, flushed⟩)⟩
        · exact reading.connections.trans (by simp)
        · have received : history.receipts.map Prod.snd ++ [] = _ :=
            reading.received
          rw [List.append_nil, List.flatMap_append, payloads,
            List.flatMap_singleton, shape] at received
          rw [received]
          simp only [messagesOf, List.filterMap_append, List.map_append]

end Live

/-- An acknowledgement of a subscription, the trades of the sample, and a frame
that is no JSON. -/
def controlFrame : Bytes :=
  "\x7b\"channel\":\"subscriptions\"\x7d".toUTF8.data.toList

def tradesFrame : Bytes :=
  ("\x7b\"channel\":\"market_trades\",\"events\":[" ++
    "\x7b\"type\":\"update\",\"trades\":[" ++
    "\x7b\"product_id\":\"BTC-USD\",\"price\":\"100.0\",\"size\":\"1.0\"," ++
    "\"side\":\"BUY\",\"trade_id\":\"1\"," ++
    "\"time\":\"2026-01-01T00:00:00Z\"\x7d," ++
    "\x7b\"price\":\"100.0\"\x7d]\x7d]\x7d").toUTF8.data.toList

def brokenFrame : Bytes := "<html>".toUTF8.data.toList

def notJson : Exc :=
  ⟨.valueError, "unexpected character: line 1 column 1 (char 0)"⟩

/-- The decoder, as far as the sample needs it. -/
def sampleDecoder : Decoder where
  loads raw :=
    if raw = controlFrame then .ok (.obj [("channel", .str "subscriptions")])
    else if raw = tradesFrame then .ok (.obj sampleTrades.members)
    else .error notJson
  decoded := by
    intro raw value loaded
    split_ifs at loaded
    · cases loaded
      decide
    · cases loaded
      exact sampleTrades.decoded
  refuses := by
    intro raw failure refused
    split_ifs at refused
    cases refused
    rfl

theorem sampleDecoder_control :
    Client.coinbase.frame sampleDecoder controlFrame = .ok none := by
  have loaded : sampleDecoder.loads controlFrame =
      .ok (.obj [("channel", .str "subscriptions")]) := by
    simp only [sampleDecoder, if_true]
  simp only [Client.frame, Decoder.payload_eq loaded]
  rfl

theorem sampleDecoder_trades :
    Client.coinbase.frame sampleDecoder tradesFrame =
      .ok (some (.str "market_trades", sampleTrades)) := by
  have other : tradesFrame ≠ controlFrame := by decide +kernel
  have loaded : sampleDecoder.loads tradesFrame =
      .ok (.obj sampleTrades.members) := by
    simp only [sampleDecoder, if_neg other, if_true]
  simp only [Client.frame, Decoder.payload_eq loaded]
  rfl

private theorem sampleDecoder_broken :
    Client.coinbase.frame sampleDecoder brokenFrame = .error notJson := by
  have others : brokenFrame ≠ controlFrame ∧ brokenFrame ≠ tradesFrame := by
    decide +kernel
  have refused : sampleDecoder.loads brokenFrame = .error notJson := by
    simp only [sampleDecoder, if_neg others.1, if_neg others.2]
  simp only [Client.frame, Decoder.payload_refused refused]
  rfl

/-- A connection that is lost after its trades, and one with a frame that is no
JSON among them. -/
def lostSocket : Socket :=
  { frames := [controlFrame, tradesFrame], failure := some ⟨.osError, "boom"⟩ }

def brokenSocket : Socket :=
  { frames := [tradesFrame, brokenFrame, tradesFrame] }

private theorem sampleService_feeds :
    Feeds sampleService sampleSymbolMap .coinbase sampleDecoder [lostSocket]
      ([lostSocket].flatMap Socket.frames ++ [tradesFrame]) := by
  have known : ∀ raw ∈ [lostSocket].flatMap Socket.frames ++ [tradesFrame],
      raw = controlFrame ∨ raw = tradesFrame := by
    intro raw member
    simpa [lostSocket] using member
  refine ⟨sampleService_plays.built, sampleService_plays.client, ?_, ?_, ?_,
    ?_⟩
  · intro socket member failure failed
    rw [List.mem_singleton.mp member] at failed
    cases failed
    rfl
  · intro raw member
    rcases known raw member with rfl | rfl
    · exact ⟨_, sampleDecoder_control⟩
    · exact ⟨_, sampleDecoder_trades⟩
  · intro raw member channel payload spoken tsIngest
    rcases known raw member with rfl | rfl
    · rw [sampleDecoder_control] at spoken
      cases spoken
    · rw [sampleDecoder_trades] at spoken
      cases spoken
      exact sampleService_plays.returns { payloads := [sampleTrades] }
        (by simp [sampleScript]) sampleTrades (by simp) tsIngest
  · intro raw member channel payload spoken tsIngest
    rcases known raw member with rfl | rfl
    · rw [sampleDecoder_control] at spoken
      cases spoken
    · rw [sampleDecoder_trades] at spoken
      cases spoken
      exact sampleTrades_written _ _ _

theorem malformed_frame_ends_producer_sample :
    let run := runProducer sampleService
      (([lostSocket] ++ brokenSocket :: [lostSocket]).map
        (Socket.connection (clientOf sampleService.exchange) sampleDecoder))
    run.stopped = some (.raised notJson) ∧
      History.produced run.actions =
        (History.receipts run.actions).flatMap
          (sampleService.emitted sampleSymbolMap) := by
  intro run
  have frames : brokenSocket.frames =
      [tradesFrame] ++ brokenFrame :: [tradesFrame] := rfl
  have broken : (clientOf sampleService.exchange).frame sampleDecoder
      brokenFrame = .error notJson := sampleDecoder_broken
  have published := (malformed_frame_ends_producer
    (by intro limit bounded; cases bounded; decide)
    (by intro limit bounded; cases bounded; decide)
    [lostSocket] frames broken sampleService_feeds).1
  exact ⟨by decide +kernel, published⟩

end TickStream
