import TickStream.Library.ProducerClient
import TickStream.Producer.Replay

/-!
# Publishing against a broker

`publish_events` looks at what is still queued after the flush.  A message the
broker rejected has left the queue by then, and `delivery_report` only logs
it.
-/

namespace TickStream

open Python Library

/-- What publishing meets outside the repository's code. -/
structure Kafka where
  ensureTopics : List String → Result Unit
  broker : Broker Exc

/-- `delivery_report` keeps nothing. -/
def deliveryReport (_ : Unit) (_ : Bool) : Unit := ()

section Publish

variable (settings : Settings) (kafka : Kafka)

/-- The forced topic, unless there is none or an empty one. -/
def forcedTopic (topic : Option String) : Option String :=
  topic.filter (fun name => name ≠ "")

/-- The message of an event. -/
def publishedMessage (topic : Option String) (event : ValidEvent) :
    RawMessage :=
  { rawMessage settings event.event with
    topic := (forcedTopic topic).getD
      (topicForEvent settings.topics event.event) }

def publishTargets (topic : Option String) (events : List ValidEvent) :
    List String :=
  match forcedTopic topic with
  | some name => [name]
  | none =>
      (events.map (fun event =>
        topicForEvent settings.topics event.event)).dedup

/-- Produce every event and poll after each; `count` is the number so far. -/
def publishLoop (topic : Option String) :
    Nat → Client RawMessage Unit → List ValidEvent →
      Result (Nat × Client RawMessage Unit)
  | count, client, [] => .ok (count, client)
  | count, client, event :: rest => do
      let next ← client.produce deliveryReport kafka.broker count
        (publishedMessage settings topic event)
      publishLoop topic (count + 1) next rest

/-- The number of events produced, and the client they were handed to. -/
def publishEvents (events : List ValidEvent) (topic : Option String)
    (ensure flush : Bool) : Result (Nat × Client RawMessage Unit) := do
  if ensure then
    kafka.ensureTopics (publishTargets settings topic events)
  let (count, client) ← publishLoop settings kafka topic 0 (Client.start ())
    events
  if flush then
    let (remaining, flushed) := client.flush deliveryReport kafka.broker
    if 0 < remaining then
      raise .runtimeError ("publish flush incomplete: " ++
        toString remaining ++ " messages undelivered")
    else return (count, flushed)
  else return (count, client)

/-- The loop hands the client the message of every event. -/
private theorem publishLoop_eq (topic : Option String) (count : Nat)
    (client : Client RawMessage Unit) (events : List ValidEvent) :
    publishLoop settings kafka topic count client events =
      (client.produceAll deliveryReport kafka.broker count
        (events.map (publishedMessage settings topic))).map
        (fun last => (count + events.length, last)) := by
  induction events generalizing count client with
  | nil => rfl
  | cons event rest induction =>
      simp only [publishLoop, List.map_cons, Client.produceAll]
      cases client.produce deliveryReport kafka.broker count
          (publishedMessage settings topic event) with
      | error failure => rfl
      | ok next =>
          simp only [bind, Except.bind]
          rw [induction (count + 1) next, List.length_cons]
          have length : count + 1 + rest.length =
              count + (rest.length + 1) := by omega
          rw [length]

/-- What a call does once the topics are there: flush, and refuse to return
while a message is queued. -/
theorem publishEvents_session {events : List ValidEvent}
    {topic : Option String} {ensure : Bool}
    (ensured : ensure = true → kafka.ensureTopics
      (publishTargets settings topic events) = .ok ()) :
    publishEvents settings kafka events topic ensure true =
      Client.session deliveryReport kafka.broker (Client.start ())
          (events.map (publishedMessage settings topic)) >>=
        fun client =>
          if 0 < client.queued.length then
            raise .runtimeError ("publish flush incomplete: " ++
              toString client.queued.length ++ " messages undelivered")
          else .ok (events.length, client) := by
  simp only [publishEvents, publishLoop_eq, Client.session]
  rw [Nat.zero_add]
  cases ensure with
  | false =>
      cases Client.produceAll deliveryReport kafka.broker 0 (Client.start ())
          (events.map (publishedMessage settings topic)) with
      | error failure => rfl
      | ok produced => rfl
  | true =>
      rw [ensured rfl]
      cases Client.produceAll deliveryReport kafka.broker 0 (Client.start ())
          (events.map (publishedMessage settings topic)) with
      | error failure => rfl
      | ok produced => rfl

/-- A flushing call returns exactly when the topics are there, the client
takes every message and none is left queued. -/
theorem publishEvents_eq_ok_iff {events : List ValidEvent}
    {topic : Option String} {ensure : Bool} {count : Nat}
    {client : Client RawMessage Unit} :
    publishEvents settings kafka events topic ensure true =
        .ok (count, client) ↔
      (ensure = true → kafka.ensureTopics
        (publishTargets settings topic events) = .ok ()) ∧
      Client.session deliveryReport kafka.broker (Client.start ())
        (events.map (publishedMessage settings topic)) = .ok client ∧
      client.queued = [] ∧ count = events.length := by
  constructor
  · intro returned
    have ensured : ensure = true → kafka.ensureTopics
        (publishTargets settings topic events) = .ok () := by
      intro on
      subst on
      obtain ⟨_, ensured, _⟩ := bind_eq_ok_iff.mp returned
      exact ensured
    rw [publishEvents_session settings kafka ensured] at returned
    obtain ⟨last, held, returned⟩ := bind_eq_ok_iff.mp returned
    split at returned
    · cases returned
    · rename_i drained
      cases returned
      refine ⟨ensured, held, ?_, rfl⟩
      exact List.eq_nil_of_length_eq_zero (by omega)
  · intro conditions
    rcases conditions with ⟨ensured, held, drained, counted⟩
    rw [publishEvents_session settings kafka ensured, held, counted]
    simp [bind, Except.bind, drained]

end Publish

section Gate

variable (settings : Settings) (kafka : Kafka) (events : List ValidEvent)
  (topic : Option String) (ensure : Bool)

/-- A flushing call returns only after everything is acknowledged: it returns
the number of events and every message was, and after a failed delivery it
raises. -/
structure GatesDelivery : Prop where
  returned : ∀ count client,
    publishEvents settings kafka events topic ensure true =
      .ok (count, client) →
    count = events.length ∧
      client.acked.Perm (events.map (publishedMessage settings topic))
  raises : ∀ count client,
    publishEvents settings kafka events topic ensure true =
      .ok (count, client) →
    client.failed = []

/-- If the topics are there and the client takes every message, the broker
fails none of them or leaves one queued until the flush gives up. -/
def FailuresStayQueued : Prop :=
  (ensure = true → kafka.ensureTopics
    (publishTargets settings topic events) = .ok ()) →
  ∀ client, Client.session deliveryReport kafka.broker (Client.start ())
      (events.map (publishedMessage settings topic)) = .ok client →
    client.failed = [] ∨ client.queued ≠ []

/-- The flush gates the return exactly when no delivery fails unnoticed. -/
theorem publishEvents_gates_iff :
    GatesDelivery settings kafka events topic ensure ↔
      FailuresStayQueued settings kafka events topic ensure := by
  constructor
  · intro gates ensured client held
    by_cases drained : client.queued = []
    · left
      exact gates.raises events.length client
        ((publishEvents_eq_ok_iff settings kafka).mpr
          ⟨ensured, held, drained, rfl⟩)
    · exact Or.inr drained
  · intro stay
    have clean : ∀ count client,
        publishEvents settings kafka events topic ensure true =
          .ok (count, client) → client.failed = [] := by
      intro count client returned
      obtain ⟨ensured, held, drained, _⟩ :=
        (publishEvents_eq_ok_iff settings kafka).mp returned
      rcases stay ensured client held with none | queued
      · exact none
      · exact absurd drained queued
    refine ⟨?_, clean⟩
    intro count client returned
    have failed := clean count client returned
    obtain ⟨_, held, drained, counted⟩ :=
      (publishEvents_eq_ok_iff settings kafka).mp returned
    have accepted := Client.session_accepted deliveryReport held
    refine ⟨counted, ?_⟩
    rw [Client.acked_of_settled drained failed]
    simpa [Client.start, Client.accepted] using accepted

end Gate

def sampleEvent : ValidEvent :=
  { event := (sampleTrade "1" 5 100 1).ofJson, checked := by decide }

/-- A broker that rejects the first message during the flush. -/
def rejectingKafka : Kafka :=
  { ensureTopics := fun _ => .ok ()
    broker := ⟨fun _ => .ok [], [⟨0, false⟩]⟩ }

/-- The call reports one event although its only message was rejected. -/
theorem publishEvents_rejected :
    publishEvents sampleSettings rejectingKafka [sampleEvent] none true true =
        .ok (1, ⟨[], [], [publishedMessage sampleSettings none sampleEvent],
          ()⟩) ∧
      ¬ GatesDelivery sampleSettings rejectingKafka [sampleEvent] none
        true := by
  have returned : publishEvents sampleSettings rejectingKafka [sampleEvent]
      none true true =
        .ok (1, ⟨[], [], [publishedMessage sampleSettings none sampleEvent],
          ()⟩) := rfl
  refine ⟨returned, ?_⟩
  intro gates
  have clean := gates.raises _ _ returned
  cases clean

end TickStream
