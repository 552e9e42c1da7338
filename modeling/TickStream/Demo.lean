import Mathlib.Data.Set.List
import TickStream.EndToEnd
import TickStream.Producer.Delivery
import TickStream.Wire

/-!
# The demo's round trip

`demo` publishes a few events to a topic of its own, reads the topic back and
compares.  Publishing does not notice a rejected message; the verdict does.  It
is about order as well: on a topic with several partitions a complete delivery
may come back in another order.
-/

namespace TickStream

open Python Library

section Consume

variable {τ : Type} [LinearOrder τ]

/-- Decode what the polls deliver until there are `maxMessages` events or the
deadline has passed; `out` holds the events so far. -/
def consumeEvents (maxMessages : Nat) (deadline : τ) :
    List ValidEvent → List (Turn τ RawMessage) → Result (List ValidEvent)
  | out, [] => .ok out
  | out, turn :: rest =>
      if out.length < maxMessages ∧ turn.start < deadline then
        match turn.message? with
        | none => consumeEvents maxMessages deadline out rest
        | some message => do
            let event ← MarketEvent.fromJsonBytes message.value
            consumeEvents maxMessages deadline (out ++ [event]) rest
      else .ok out

variable {maxMessages : Nat} {deadline : τ} {turns : List (Turn τ RawMessage)}
  {encode : ValidEvent → RawMessage}

/-- Events that survive the encoding come back from the start, in order. -/
private theorem consumeEvents_initial {heard : List ValidEvent}
    (delivers : delivered turns = heard.map encode)
    (decodes : ∀ event ∈ heard,
      MarketEvent.fromJsonBytes (encode event).value = .ok event)
    (out : List ValidEvent) :
    ∃ taken, taken <+: heard ∧
      consumeEvents maxMessages deadline out turns = .ok (out ++ taken) := by
  induction turns generalizing out heard with
  | nil => exact ⟨[], List.nil_prefix, by simp [consumeEvents]⟩
  | cons turn rest induction =>
      by_cases goes : out.length < maxMessages ∧ turn.start < deadline
      · rw [delivered_cons] at delivers
        cases polled : turn.message? with
        | none =>
            rw [polled] at delivers
            obtain ⟨taken, initial, consumed⟩ :=
              induction delivers decodes out
            refine ⟨taken, initial, ?_⟩
            simp only [consumeEvents, if_pos goes, polled, consumed]
        | some message =>
            rw [polled] at delivers
            cases heard with
            | nil => cases delivers
            | cons event later =>
                obtain ⟨same, others⟩ := List.cons.inj delivers
                obtain ⟨taken, initial, consumed⟩ := induction others
                  (fun other member => decodes other (by simp [member]))
                  (out ++ [event])
                refine ⟨event :: taken, ?_, ?_⟩
                · exact (List.prefix_cons_inj event).mpr initial
                · simp only [consumeEvents, if_pos goes, polled, same,
                    decodes event (by simp)]
                  rw [List.append_cons]
                  exact consumed
      · refine ⟨[], List.nil_prefix, ?_⟩
        simp only [consumeEvents, if_neg goes, List.append_nil]

/-- Before the deadline only the number of messages ends the loop. -/
private theorem consumeEvents_early {heard : List ValidEvent}
    (delivers : delivered turns = heard.map encode)
    (decodes : ∀ event ∈ heard,
      MarketEvent.fromJsonBytes (encode event).value = .ok event)
    (early : ∀ turn ∈ turns, turn.start < deadline) (out : List ValidEvent) :
    consumeEvents maxMessages deadline out turns =
      .ok (out ++ heard.take (maxMessages - out.length)) := by
  induction turns generalizing out heard with
  | nil =>
      have silent : heard = [] := List.map_eq_nil_iff.mp delivers.symm
      simp [consumeEvents, silent]
  | cons turn rest induction =>
      have later := fun other member =>
        early other (List.mem_cons_of_mem turn member)
      by_cases room : out.length < maxMessages
      · have goes : out.length < maxMessages ∧ turn.start < deadline :=
          ⟨room, early turn (by simp)⟩
        rw [delivered_cons] at delivers
        cases polled : turn.message? with
        | none =>
            rw [polled] at delivers
            simp only [consumeEvents, if_pos goes, polled]
            exact induction delivers decodes later out
        | some message =>
            rw [polled] at delivers
            cases heard with
            | nil => cases delivers
            | cons event others =>
                obtain ⟨same, tail⟩ := List.cons.inj delivers
                have consumed := induction tail
                  (fun other member => decodes other (by simp [member]))
                  later (out ++ [event])
                have left : maxMessages - out.length =
                    maxMessages - (out ++ [event]).length + 1 := by
                  simp only [List.length_append, List.length_singleton]
                  omega
                simp only [consumeEvents, if_pos goes, polled, same,
                  decodes event (by simp)]
                rw [left, List.take_succ_cons, List.append_cons]
                exact consumed
      · have stops :
            ¬ (out.length < maxMessages ∧ turn.start < deadline) :=
          fun goes => room goes.1
        have full : maxMessages - out.length = 0 := by omega
        simp only [consumeEvents, if_neg stops, full, List.take_zero,
          List.append_nil]

end Consume

def demoTrade (symbol tradeId : String) (price size : Rat) (side : Side) :
    MarketEvent PyFloat where
  exchange := "demo"
  symbol := symbol
  eventType := .trade
  price := some (roundToDouble price)
  size := some (roundToDouble size)
  side := some side
  tradeId := some tradeId
  tsEvent := 1767225600000000
  tsIngest := 1767225600000000

def demoTicker : MarketEvent PyFloat where
  exchange := "demo"
  symbol := "BTC-USD"
  eventType := .ticker
  bestBid := some (roundToDouble 41999.0)
  bestAsk := some (roundToDouble 42001.0)
  bestBidSize := some (roundToDouble 0.5)
  bestAskSize := some (roundToDouble 0.7)
  tsEvent := 1767225600000000
  tsIngest := 1767225600000000

def makeDemoEvents : List ValidEvent :=
  [⟨demoTrade "BTC-USD" "t-1" 42000.50 0.10 .buy,
      by decide +kernel⟩,
    ⟨demoTrade "ETH-USD" "t-2" 2200.25 1.50 .sell,
      by decide +kernel⟩,
    ⟨demoTrade "SOL-USD" "t-3" 98.75 12.0 .buy, by decide +kernel⟩,
    ⟨demoTicker, by decide +kernel⟩]

def demoTopic (uid : String) : String := "demo.roundtrip." ++ uid

/-- Publish the expected events to the topic, read the topic back, and say
whether they came back as they were. -/
def demo {τ : Type} [LinearOrder τ] (settings : Settings) (kafka : Kafka)
    (uid : String) (expected : List ValidEvent) (deadline : τ)
    (turns : List (Turn τ RawMessage)) : Result Bool := do
  kafka.ensureTopics [demoTopic uid]
  let _ ← publishEvents settings kafka expected (some (demoTopic uid)) true
    true
  let consumed ← consumeEvents expected.length deadline [] turns
  return decide (consumed = expected)

/-- The message the demo produces for an event. -/
def demoMessage (settings : Settings) (uid : String) (event : ValidEvent) :
    RawMessage :=
  publishedMessage settings (some (demoTopic uid)) event

theorem forcedTopic_demoTopic (uid : String) :
    forcedTopic (some (demoTopic uid)) = some (demoTopic uid) := by
  have named : demoTopic uid ≠ "" := by
    simp [demoTopic, String.ext_iff]
  rw [forcedTopic, Option.filter_some, if_pos (decide_eq_true named)]

/-- An event whose numbers are finite comes back from its message. -/
theorem fromJsonBytes_demoMessage {settings : Settings} {uid : String}
    {event : ValidEvent} (finite : event.event.AllFinite) :
    MarketEvent.fromJsonBytes (demoMessage settings uid event).value =
      .ok event := by
  obtain ⟨decoded, ran, same⟩ := MarketEvent.fromJsonBytes_toJsonBytes event
  rw [MarketEvent.ofJson_toJsonBytes_iff.mpr finite] at same
  obtain ⟨value, checked⟩ := decoded
  cases same
  exact ran

private theorem demoMessages_injective {settings : Settings} {uid : String}
    {first second : List ValidEvent}
    (firstFinite : ∀ event ∈ first, event.event.AllFinite)
    (secondFinite : ∀ event ∈ second, event.event.AllFinite)
    (same : first.map (demoMessage settings uid) =
      second.map (demoMessage settings uid)) : first = second := by
  have back : ∀ events : List ValidEvent,
      (∀ event ∈ events, event.event.AllFinite) →
      (events.map (demoMessage settings uid)).filterMap (fun message =>
        (MarketEvent.fromJsonBytes message.value).toOption) = events := by
    intro events finite
    rw [List.filterMap_map]
    apply (List.filterMap_congr _).trans List.filterMap_some
    intro event member
    simp only [Function.comp_apply,
      fromJsonBytes_demoMessage (finite event member), Except.toOption]
  rw [← back first firstFinite, same, back second secondFinite]

/-- The records of a run of the demo. -/
def BrokerHistory.demoRecords (history : BrokerHistory) (uid : String) :
    List Sent :=
  (Layout.appends history).filter (fun sent => sent.writer = .demo uid)

/-- The messages a run of the demo has on its topic. -/
def BrokerHistory.landed (history : BrokerHistory) (uid : String) :
    List RawMessage :=
  (history.demoRecords uid).filterMap Sent.raw?

/-- Topic and partition of a message. -/
def RawMessage.cell (partitioner : String → String → Nat)
    (message : RawMessage) : String × Nat :=
  (message.topic, partitioner message.topic message.key)

private theorem demoMessage_cell (settings : Settings) (uid : String)
    (partitioner : String → String → Nat) (event : ValidEvent) :
    (demoMessage settings uid event).cell partitioner =
      (demoTopic uid, partitioner (demoTopic uid) event.event.key) := by
  rw [demoMessage, publishedMessage, forcedTopic_demoTopic]
  rfl

/-- A demo on the shared broker.  Its producer is idempotent: what is on a
partition are messages produced for it, each at most once and in order.  Its
consumer group is new and reads the demo's topic only; the polls deliver what
it receives. -/
structure DemoRun {τ : Type} (settings : Settings)
    (partitioner : String → String → Nat) (history : BrokerHistory)
    (uid : String) (reader : Reader) (expected : List ValidEvent)
    (turns : List (Turn τ RawMessage)) : Prop where
  legal : history.Legal settings partitioner
  finite : ∀ event ∈ expected, event.event.AllFinite
  topics : reader.topics = [demoTopic uid]
  events : ∀ sent ∈ history.demoRecords uid, sent.raw?.isSome = true
  ordered : ∀ cell,
    (itemsAt (RawMessage.cell partitioner) (history.landed uid) cell).Sublist
      (itemsAt (RawMessage.cell partitioner)
        (expected.map (demoMessage settings uid)) cell)
  turns : delivered turns = (history.received reader).filterMap Sent.raw?

namespace DemoRun

variable {τ : Type} {settings : Settings}
  {partitioner : String → String → Nat} {history : BrokerHistory}
  {uid : String} {reader : Reader} {expected : List ValidEvent}
  {turns : List (Turn τ RawMessage)}

/-- The topic of a demo has no other writer. -/
private theorem writer_eq
    (run : DemoRun settings partitioner history uid reader expected turns)
    {sent : Sent} (member : sent ∈ Layout.appends history) :
    sent.topic = demoTopic uid ↔ sent.writer = .demo uid := by
  have placed := (run.legal sent member).topic
  constructor
  · intro here
    cases writer : sent.writer with
    | pipeline other =>
        rw [writer, here] at placed
        exact absurd rfl (isolated_ne_demo placed)
    | canonical =>
        rw [writer, here] at placed
        simp [Writer.topics, Topics.all, demoTopic, String.ext_iff] at placed
    | demo other =>
        rw [writer, here] at placed
        simp only [Writer.topics, List.mem_singleton, demoTopic,
          String.ext_iff, String.toList_append, List.append_cancel_left_eq]
          at placed
        rw [String.ext_iff.mpr placed]
  · intro writer
    rw [writer] at placed
    exact List.mem_singleton.mp placed

theorem visible_eq
    (run : DemoRun settings partitioner history uid reader expected turns) :
    brokerLayout.visible reader (Layout.appends history) =
      history.demoRecords uid := by
  simp only [Layout.visible, BrokerHistory.demoRecords]
  apply List.filter_congr
  intro sent member
  simp only [brokerLayout, run.topics, List.mem_singleton,
    run.writer_eq member]

/-- The polls deliver messages of the topic, each at most once. -/
theorem delivered_subperm
    (run : DemoRun settings partitioner history uid reader expected turns) :
    (delivered turns).Subperm (history.landed uid) := by
  rw [run.turns, BrokerHistory.landed, ← run.visible_eq]
  exact subperm_filterMap (follows_received history reader).received_subperm
    Sent.raw?

theorem landed_subperm
    (run : DemoRun settings partitioner history uid reader expected turns) :
    (history.landed uid).Subperm
      (expected.map (demoMessage settings uid)) :=
  SameKeyOrder.subperm_of_sublists run.ordered

/-- Everything the polls deliver was produced. -/
theorem exists_heard
    (run : DemoRun settings partitioner history uid reader expected turns) :
    ∃ heard : List ValidEvent,
      delivered turns = heard.map (demoMessage settings uid) ∧
        ∀ event ∈ heard, event.event.AllFinite := by
  have produced : ∀ message ∈ delivered turns,
      ∃ event : {event // event ∈ expected},
        demoMessage settings uid event = message := by
    intro message member
    obtain ⟨event, inside, same⟩ := List.mem_map.mp
      (run.landed_subperm.subset (run.delivered_subperm.subset member))
    exact ⟨⟨event, inside⟩, same⟩
  have lifted : delivered turns ∈ Set.range (List.map
      (fun event : {event // event ∈ expected} =>
        demoMessage settings uid event)) := by
    rw [Set.range_list_map]
    exact produced
  obtain ⟨heard, same⟩ := lifted
  refine ⟨heard.map Subtype.val, ?_, ?_⟩
  · rw [List.map_map]
    exact same.symm
  · intro event member
    obtain ⟨⟨inner, inside⟩, _, rfl⟩ := List.mem_map.mp member
    exact run.finite inner inside

/-- A consumer that has caught up has the messages of every partition in
order. -/
theorem delivered_sameKeyOrder
    (run : DemoRun settings partitioner history uid reader expected turns)
    (done : history.CaughtUp reader) :
    SameKeyOrder (RawMessage.cell partitioner) (delivered turns)
      (history.landed uid) := by
  have follows := follows_received history reader
  have located : ∀ (records : List Sent) cell,
      (∀ sent ∈ records, sent ∈ Layout.appends history) →
      itemsAt (RawMessage.cell partitioner) (records.filterMap Sent.raw?)
          cell =
        (itemsAt brokerLayout.cell records cell).filterMap Sent.raw? := by
    intro records cell appended
    apply itemsAt_filterMap
    intro sent member message seen
    simp only [Sent.raw?] at seen
    split at seen
    · rename_i value key _ keyIs
      cases seen
      simp only [RawMessage.cell, brokerLayout,
        (run.legal sent (appended sent member)).partition key keyIs]
    · cases seen
  intro cell
  rw [run.turns, BrokerHistory.landed, ← run.visible_eq,
    located (history.received reader) cell follows.received_subset,
    located (brokerLayout.visible reader (Layout.appends history)) cell
      (fun _ => List.mem_of_mem_filter)]
  exact congrArg (List.filterMap Sent.raw?)
    (follows.itemsAt_of_caughtUp done cell)

/-- A consumer that read as many events as were published, and read them as
published, heard exactly the produced messages. -/
private theorem delivered_of_passed [LinearOrder τ] {deadline : τ}
    {kafka : Kafka}
    (run : DemoRun settings partitioner history uid reader expected turns)
    (passed : demo settings kafka uid expected deadline turns = .ok true) :
    delivered turns = expected.map (demoMessage settings uid) := by
  obtain ⟨_, _, passed⟩ := bind_eq_ok_iff.mp passed
  obtain ⟨_, _, passed⟩ := bind_eq_ok_iff.mp passed
  obtain ⟨consumed, read, passed⟩ := bind_eq_ok_iff.mp passed
  have same : consumed = expected :=
    of_decide_eq_true (Except.ok.inj passed)
  obtain ⟨heard, delivers, finite⟩ := run.exists_heard
  have start : ∃ taken, taken <+: heard ∧
      consumeEvents expected.length deadline [] turns = .ok ([] ++ taken) :=
    consumeEvents_initial delivers
      (fun event member => fromJsonBytes_demoMessage (finite event member)) []
  obtain ⟨taken, initial, took⟩ := start
  rw [took, List.nil_append, Except.ok.injEq, same] at read
  rw [read] at initial
  have begins := initial.map (demoMessage settings uid)
  rw [← delivers] at begins
  have atMost := (run.delivered_subperm.trans run.landed_subperm).length_le
  exact (begins.eq_of_length (le_antisymm begins.length_le atMost)).symm

/-- What a demo says about messages that all came back. -/
private theorem demo_eq_of_complete [LinearOrder τ] {deadline : τ}
    {kafka : Kafka}
    {count : Nat} {client : Library.Client RawMessage Unit}
    (run : DemoRun settings partitioner history uid reader expected turns)
    (published : publishEvents settings kafka expected (some (demoTopic uid))
      true true = .ok (count, client))
    (complete : (delivered turns).Perm
      (expected.map (demoMessage settings uid)))
    (early : ∀ turn ∈ turns, turn.start < deadline) :
    demo settings kafka uid expected deadline turns =
      .ok (decide (delivered turns =
        expected.map (demoMessage settings uid))) := by
  obtain ⟨heard, delivers, finite⟩ := run.exists_heard
  have lengths := complete.length_eq
  rw [delivers, List.length_map, List.length_map] at lengths
  have read : consumeEvents expected.length deadline [] turns =
      .ok ([] ++ heard.take (expected.length - 0)) :=
    consumeEvents_early delivers
      (fun event member => fromJsonBytes_demoMessage (finite event member))
      early []
  rw [List.nil_append, Nat.sub_zero, List.take_of_length_le lengths.le]
    at read
  have sameVerdict : heard = expected ↔
      delivered turns = expected.map (demoMessage settings uid) := by
    rw [delivers]
    constructor
    · intro same
      rw [same]
    · intro same
      exact demoMessages_injective finite run.finite same
  have ensured : kafka.ensureTopics [demoTopic uid] = .ok () := by
    have targets := ((publishEvents_eq_ok_iff settings kafka).mp
      published).1 rfl
    rwa [publishTargets, forcedTopic_demoTopic] at targets
  simp only [demo, ensured, published, read, bind, Except.bind, pure,
    Except.pure]
  rw [decide_eq_decide.mpr sameVerdict]

/-- A publisher without a failed delivery has everything on the topic. -/
private theorem landed_perm {count : Nat}
    {client : Library.Client RawMessage Unit}
    {kafka : Kafka}
    (run : DemoRun settings partitioner history uid reader expected turns)
    (published : publishEvents settings kafka expected (some (demoTopic uid))
      true true = .ok (count, client))
    (clean : client.failed = [])
    (acked : client.acked.Subperm (history.landed uid)) :
    (history.landed uid).Perm (expected.map (demoMessage settings uid)) := by
  obtain ⟨_, held, drained, _⟩ :=
    (publishEvents_eq_ok_iff settings kafka).mp published
  have accepted : client.acked.Perm
      (expected.map (demoMessage settings uid)) := by
    rw [Library.Client.acked_of_settled drained clean]
    exact Library.Client.session_accepted deliveryReport held
  have atLeast := acked.length_le
  rw [accepted.length_eq] at atLeast
  exact run.landed_subperm.perm_of_length_le atLeast

end DemoRun

/-- The verdict is never wrong about delivery: a demo passes only if its
messages, all of them and each once, are on the topic and came back in the
order of production.  When every delivery was acknowledged and the consumer
read the topic to its end in time, the events of every symbol came back in
order; the verdict then is whether all of them did, and on one partition it is
that they did. -/
theorem demo_round_trip {τ : Type} [LinearOrder τ] {settings : Settings}
    {partitioner : String → String → Nat} {history : BrokerHistory}
    {uid : String} {reader : Reader} {expected : List ValidEvent}
    {turns : List (Turn τ RawMessage)}
    (run : DemoRun settings partitioner history uid reader expected turns)
    (kafka : Kafka) (deadline : τ) :
    (demo settings kafka uid expected deadline turns = .ok true →
      delivered turns = expected.map (demoMessage settings uid) ∧
      (history.landed uid).Perm
        (expected.map (demoMessage settings uid))) ∧
    (∀ count client,
      publishEvents settings kafka expected (some (demoTopic uid)) true true =
        .ok (count, client) →
      client.failed = [] → client.acked.Subperm (history.landed uid) →
      history.CaughtUp reader → (∀ turn ∈ turns, turn.start < deadline) →
        SameKeyOrder RawMessage.address (delivered turns)
          (expected.map (demoMessage settings uid)) ∧
        demo settings kafka uid expected deadline turns =
          .ok (decide (delivered turns =
            expected.map (demoMessage settings uid))) ∧
        ((∃ partition, ∀ event ∈ expected,
            partitioner (demoTopic uid) event.event.key = partition) →
          demo settings kafka uid expected deadline turns = .ok true)) := by
  constructor
  · intro passed
    have heard := run.delivered_of_passed passed
    refine ⟨heard, run.landed_subperm.antisymm ?_⟩
    rw [← heard]
    exact run.delivered_subperm
  · intro count client published clean acked done early
    have landed := run.landed_perm published clean acked
    have order := (run.delivered_sameKeyOrder done).trans
      (SameKeyOrder.of_sublists run.ordered landed)
    have verdict := run.demo_eq_of_complete published order.perm early
    refine ⟨?_, verdict, ?_⟩
    · exact order.finer
        (fun address => (address.1, partitioner address.1 address.2))
        (fun _ => rfl)
    · intro one
      obtain ⟨partition, placed⟩ := one
      have together : ∀ message ∈ expected.map (demoMessage settings uid),
          message.cell partitioner = (demoTopic uid, partition) := by
        intro message member
        obtain ⟨event, inside, same⟩ := List.mem_map.mp member
        rw [← same, demoMessage_cell, placed event inside]
      have heard : delivered turns =
          expected.map (demoMessage settings uid) :=
        order.eq_of_one_key together
      rw [verdict, decide_eq_true heard]

private theorem makeDemoEvents_finite :
    ∀ event ∈ makeDemoEvents, event.event.AllFinite := by
  have written : ∀ event ∈ makeDemoEvents,
      event.event.toJsonBytes.ofJson = event.event := by
    decide +kernel
  intro event member
  exact MarketEvent.ofJson_toJsonBytes_iff.mp (written event member)

/-- An event as the demo publishes it. -/
def demoSent (partitioner : String → String → Nat) (uid : String)
    (event : ValidEvent) : Sent where
  writer := .demo uid
  topic := demoTopic uid
  key := some event.event.key
  partition := partitioner (demoTopic uid) event.event.key
  body := .event event.event.toJsonBytes

private theorem demoSent_placed (partitioner : String → String → Nat)
    (uid : String)
    (event : ValidEvent) :
    (demoSent partitioner uid event).Placed sampleSettings partitioner := by
  refine ⟨?_, ?_, ?_⟩
  · simp [demoSent, Writer.topics, demoTopic]
  · intro key same
    simp only [demoSent, Option.some.injEq] at same ⊢
    rw [same]
  · intro value same
    simp only [demoSent, Body.event.injEq] at same ⊢
    rw [← same]
    rfl

def demoReader : Reader := ⟨"demo-a", [demoTopic "a"]⟩

/-- The demo's events on its topic, and fetches from the given partitions. -/
def demoHistory (partitioner : String → String → Nat) (fetches : List Nat) :
    BrokerHistory :=
  makeDemoEvents.map (fun event => .append (demoSent partitioner "a" event)) ++
    fetches.map (fun partition => .fetch demoReader (demoTopic "a", partition))

/-- Polls that deliver what the demo's consumer receives. -/
def demoTurns (history : BrokerHistory) : List (Turn Rat RawMessage) :=
  (drainOf ((history.received demoReader).filterMap Sent.raw?)).turns

/-- Bitcoin has a partition of its own. -/
def splitPartitioner (_ key : String) : Nat :=
  if key = "BTC-USD" then 0 else 1

theorem demoHistory_appends (partitioner : String → String → Nat)
    (fetches : List Nat) :
    Layout.appends (demoHistory partitioner fetches) =
      makeDemoEvents.map (demoSent partitioner "a") := by
  simp [Layout.appends, demoHistory, List.filterMap_map]

theorem demoHistory_records (partitioner : String → String → Nat)
    (fetches : List Nat) :
    (demoHistory partitioner fetches).demoRecords "a" =
      makeDemoEvents.map (demoSent partitioner "a") := by
  rw [BrokerHistory.demoRecords, demoHistory_appends]
  apply List.filter_eq_self.mpr
  intro sent member
  obtain ⟨event, _, same⟩ := List.mem_map.mp member
  rw [← same]
  exact decide_eq_true rfl

theorem demoHistory_landed (partitioner : String → String → Nat)
    (fetches : List Nat) :
    (demoHistory partitioner fetches).landed "a" =
      makeDemoEvents.map (demoMessage sampleSettings "a") := by
  rw [BrokerHistory.landed, demoHistory_records, List.filterMap_map]
  apply List.filterMap_eq_map_iff_forall_eq_some.mpr
  intro event _
  rw [demoMessage, publishedMessage, forcedTopic_demoTopic]
  rfl

theorem demoHistory_run (partitioner : String → String → Nat)
    (fetches : List Nat) :
    DemoRun sampleSettings partitioner (demoHistory partitioner fetches) "a"
      demoReader makeDemoEvents
      (demoTurns (demoHistory partitioner fetches)) where
  legal := by
    intro sent member
    rw [demoHistory_appends] at member
    obtain ⟨event, _, same⟩ := List.mem_map.mp member
    rw [← same]
    exact demoSent_placed partitioner "a" event
  finite := makeDemoEvents_finite
  topics := rfl
  events := by
    intro sent member
    rw [demoHistory_records] at member
    obtain ⟨event, _, same⟩ := List.mem_map.mp member
    rw [← same]
    rfl
  ordered := by
    intro cell
    rw [demoHistory_landed]
  turns := delivered_drainOf _

theorem demoHistory_caughtUp {partitioner : String → String → Nat}
    {fetches : List Nat}
    (whole : ((demoHistory partitioner fetches).received demoReader).length =
      4) : (demoHistory partitioner fetches).CaughtUp demoReader := by
  have run := demoHistory_run partitioner fetches
  apply (follows_received (demoHistory partitioner fetches)
    demoReader).caughtUp_of_length
  rw [run.visible_eq, demoHistory_records]
  exact whole

theorem demoTurns_early (history : BrokerHistory) :
    ∀ turn ∈ demoTurns history, turn.start < 30 := by
  intro turn member
  rcases List.mem_append.mp member with spoken | idle
  · obtain ⟨message, _, same⟩ := List.mem_map.mp spoken
    rw [← same]
    norm_num
  · rw [List.mem_singleton.mp idle]
    norm_num

/-- A broker that acknowledges everything during the flush. -/
def willingKafka : Kafka :=
  { ensureTopics := fun _ => .ok ()
    broker := ⟨fun _ => .ok [], List.replicate 4 ⟨0, true⟩⟩ }

/-- The same four events, all delivered: in order from one partition, out of
order from two. -/
theorem demo_round_trip_sample :
    demo sampleSettings willingKafka "a" makeDemoEvents 30
        (demoTurns (demoHistory (fun _ _ => 0) [0, 0, 0, 0])) = .ok true ∧
      demo sampleSettings willingKafka "a" makeDemoEvents 30
        (demoTurns (demoHistory splitPartitioner [0, 0, 1, 1])) =
          .ok false ∧
      SameKeyOrder RawMessage.address
        (delivered (demoTurns (demoHistory splitPartitioner [0, 0, 1, 1])))
        (makeDemoEvents.map (demoMessage sampleSettings "a")) := by
  have published : publishEvents sampleSettings willingKafka makeDemoEvents
      (some (demoTopic "a")) true true =
        .ok (4, ⟨[], makeDemoEvents.map (demoMessage sampleSettings "a"),
          [], ()⟩) := rfl
  have acked : ∀ (partitioner : String → String → Nat) (fetches : List Nat),
      (makeDemoEvents.map (demoMessage sampleSettings "a")).Subperm
        ((demoHistory partitioner fetches).landed "a") := by
    intro partitioner fetches
    rw [demoHistory_landed]
  obtain ⟨_, _, single⟩ := (demo_round_trip
    (demoHistory_run (fun _ _ => 0) [0, 0, 0, 0]) willingKafka 30).2 4 _
      published rfl (acked _ _) (demoHistory_caughtUp (by decide +kernel))
      (demoTurns_early _)
  obtain ⟨order, split, _⟩ := (demo_round_trip
    (demoHistory_run splitPartitioner [0, 0, 1, 1]) willingKafka 30).2 4 _
      published rfl (acked _ _) (demoHistory_caughtUp (by decide +kernel))
      (demoTurns_early _)
  have reordered : ¬ delivered (demoTurns
      (demoHistory splitPartitioner [0, 0, 1, 1])) =
        makeDemoEvents.map (demoMessage sampleSettings "a") := by
    decide +kernel
  refine ⟨single ⟨0, fun _ _ => rfl⟩, ?_, order⟩
  rw [split, decide_eq_false reordered]

end TickStream
