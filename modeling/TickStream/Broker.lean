import TickStream.Library.TopicLog
import TickStream.Pipeline
import TickStream.Processing.Partitioned

/-!
# One broker, many runs

Pipeline runs, the live producer and the demo share one broker.  A run writes
to topics of its own and its drains read nothing else, so it sees exactly its
own records however the others interleave with it.  A topic may have several
partitions: an event is keyed by its symbol, so a symbol's events stay in
order, and with them the windows the processor emits.
-/

namespace TickStream

open Python Library

def Topics.all (topics : Topics) : List String :=
  [topics.tradesRaw, topics.tickerRaw, topics.metricsWindowed,
    topics.quarantine]

/-- A pipeline run, the commands that use the canonical topics, or a run of the
demo. -/
inductive Writer where
  | pipeline (uid : String)
  | canonical
  | demo (uid : String)
deriving DecidableEq, Repr

/-- `_isolated` names the topics of a run, `get_settings` the canonical ones. -/
def Writer.topics (settings : Settings) : Writer → List String
  | .pipeline uid => (settings.isolated uid).topics.all
  | .canonical => ({} : Topics).all
  | .demo uid => ["demo.roundtrip." ++ uid]

private theorem isolated_topics_inj {settings : Settings}
    {first second : String}
    {topic : String} (inFirst : topic ∈ (settings.isolated first).topics.all)
    (inSecond : topic ∈ (settings.isolated second).topics.all) :
    first = second := by
  simp only [Settings.isolated, Topics.all, List.mem_cons, List.not_mem_nil,
    or_false] at inFirst inSecond
  rcases inFirst with rfl | rfl | rfl | rfl <;>
    simpa [String.ext_iff] using inSecond

private theorem isolated_ne_canonical {settings : Settings} {uid topic : String}
    (isolated : topic ∈ (settings.isolated uid).topics.all) :
    topic ∉ ({} : Topics).all := by
  simp only [Settings.isolated, Topics.all, List.mem_cons, List.not_mem_nil,
    or_false] at isolated
  rcases isolated with rfl | rfl | rfl | rfl <;>
    simp [Topics.all, String.ext_iff]

theorem isolated_ne_demo {settings : Settings} {uid topic other : String}
    (isolated : topic ∈ (settings.isolated uid).topics.all) :
    topic ≠ "demo.roundtrip." ++ other := by
  simp only [Settings.isolated, Topics.all, List.mem_cons, List.not_mem_nil,
    or_false] at isolated
  rcases isolated with rfl | rfl | rfl | rfl <;> simp [String.ext_iff]

/-- No other writer writes to a topic of a run. -/
private theorem writer_eq_of_isolated {settings : Settings} {uid topic : String}
    {writer : Writer} (isolated : topic ∈ (settings.isolated uid).topics.all)
    (written : topic ∈ writer.topics settings) :
    writer = .pipeline uid := by
  cases writer with
  | pipeline other => rw [isolated_topics_inj isolated written]
  | canonical => exact absurd written (isolated_ne_canonical isolated)
  | demo other =>
      rw [Writer.topics, List.mem_singleton] at written
      exact absurd written (isolated_ne_demo isolated)

inductive Body where
  | event (value : MarketEvent Rat)
  | quarantine (message : QuarantineMessage)
  | window (record : WindowRecord Rat)

/-- A record the broker has taken. -/
structure Sent where
  writer : Writer
  topic : String
  key : Option String
  partition : Nat
  body : Body

namespace Sent

def raw? (sent : Sent) : Option RawMessage :=
  match sent.body, sent.key with
  | .event value, some key => some ⟨sent.topic, key, value⟩
  | _, _ => none

def quarantine? (sent : Sent) : Option QuarantineMessage :=
  match sent.body with
  | .quarantine message => some message
  | _ => none

def window? (sent : Sent) : Option (WindowRecord Rat) :=
  match sent.body with
  | .window record => some record
  | _ => none

/-- Topic and key of a record. -/
def address (sent : Sent) : String × Option String := (sent.topic, sent.key)

/-- A record stands in a topic of its writer, in the partition of its key; the
key of an event is its symbol. -/
structure Placed (settings : Settings) (partitioner : String → String → Nat)
    (sent : Sent) : Prop where
  topic : sent.topic ∈ sent.writer.topics settings
  partition : ∀ key, sent.key = some key →
    sent.partition = partitioner sent.topic key
  event : ∀ value, sent.body = .event value → sent.key = some value.key

end Sent

/-- A consumer group, read by one consumer from the earliest offset. -/
structure Reader where
  group : String
  topics : List String
deriving DecidableEq, Repr

def brokerLayout : Layout Sent (String × Nat) Reader where
  cell := fun sent => (sent.topic, sent.partition)
  subscribed := fun reader cell => cell.1 ∈ reader.topics

abbrev BrokerHistory := List (Happening Sent (String × Nat) Reader)

/-- What a reader has received. -/
def BrokerHistory.received (history : BrokerHistory) (reader : Reader) :
    List Sent :=
  ((brokerLayout.run history).consumers reader).received

/-- The records a run has on the topics of a reader. -/
def BrokerHistory.written (history : BrokerHistory) (uid : String)
    (reader : Reader) : List Sent :=
  (Layout.appends history).filter (fun sent =>
    sent.writer = .pipeline uid && sent.topic ∈ reader.topics)

/-- Nothing is left to read for the reader. -/
def BrokerHistory.CaughtUp (history : BrokerHistory) (reader : Reader) :
    Prop :=
  brokerLayout.CaughtUp reader (Layout.appends history)
    ((brokerLayout.run history).consumers reader)

/-- A history in which every record is placed. -/
def BrokerHistory.Legal (settings : Settings)
    (partitioner : String → String → Nat) (history : BrokerHistory) : Prop :=
  ∀ sent ∈ Layout.appends history, sent.Placed settings partitioner

section Isolation

variable {settings : Settings} {partitioner : String → String → Nat}
  {history : BrokerHistory} {uid : String} {reader : Reader}

/-- The reader is one of the run's own drains. -/
def Reader.Of (reader : Reader) (settings : Settings) (uid : String) : Prop :=
  ∀ topic ∈ reader.topics, topic ∈ (settings.isolated uid).topics.all

theorem follows_received (history : BrokerHistory) (reader : Reader) :
    brokerLayout.Follows (Layout.appends history) reader
      ((brokerLayout.run history).consumers reader) := by
  have follows := Layout.run_follows brokerLayout history reader
  rwa [Layout.run_appended] at follows

/-- All a drain of a run can see was written by the run. -/
theorem visible_eq_written (legal : history.Legal settings partitioner)
    (own : reader.Of settings uid) :
    brokerLayout.visible reader (Layout.appends history) =
      history.written uid reader := by
  simp only [Layout.visible, BrokerHistory.written]
  apply List.filter_congr
  intro sent member
  simp only [brokerLayout]
  by_cases here : sent.topic ∈ reader.topics
  · have writer := writer_eq_of_isolated (own _ here)
      (legal sent member).topic
    simp [here, writer]
  · simp [here]

private theorem itemsAt_address_visible {topic key : String}
    (permitted : topic ∈ reader.topics) (items : List Sent) :
    itemsAt Sent.address (brokerLayout.visible reader items)
        (topic, some key) =
      itemsAt Sent.address items (topic, some key) := by
  simp only [itemsAt, Layout.visible, List.filter_filter]
  apply List.filter_congr
  intro sent _
  by_cases here : sent.address = (topic, some key)
  · have topicIs : sent.topic = topic := congrArg Prod.fst here
    simp [here, brokerLayout, topicIs, permitted]
  · simp [here]

theorem cell_of_address (legal : history.Legal settings partitioner)
    {topic key : String} :
    ∀ sent ∈ Layout.appends history, sent.address = (topic, some key) →
      brokerLayout.cell sent = (topic, partitioner topic key) := by
  intro sent member here
  have topicIs : sent.topic = topic := congrArg Prod.fst here
  have keyIs : sent.key = some key := congrArg Prod.snd here
  have partition := (legal sent member).partition key keyIs
  simp only [brokerLayout, partition, topicIs]

/-- A drain receives each record of its run at most once, and no other. -/
theorem received_subperm_written (legal : history.Legal settings partitioner)
    (own : reader.Of settings uid) :
    (history.received reader).Subperm (history.written uid reader) := by
  rw [← visible_eq_written legal own]
  exact (follows_received history reader).received_subperm

/-- What a reader has of a key starts what it can see of it. -/
theorem received_starts_visible (legal : history.Legal settings partitioner)
    (reader : Reader) (topic key : String) :
    itemsAt Sent.address (history.received reader) (topic, some key) <+:
      itemsAt Sent.address
        (brokerLayout.visible reader (Layout.appends history))
        (topic, some key) := by
  have follows := follows_received history reader
  by_cases permitted : topic ∈ reader.topics
  · rw [itemsAt_address_visible permitted]
    exact follows.key_initial Sent.address (cell_of_address legal)
  · have unread : itemsAt Sent.address (history.received reader)
        (topic, some key) = [] := by
      apply itemsAt_eq_nil
      intro sent member here
      have subscribed := follows.subscribed sent member
      have topicIs : sent.topic = topic := congrArg Prod.fst here
      simp only [brokerLayout, decide_eq_true_eq, topicIs] at subscribed
      exact permitted subscribed
    rw [unread]
    exact List.nil_prefix

/-- What a drain has of a key starts what the run wrote with it. -/
theorem received_starts (legal : history.Legal settings partitioner)
    (own : reader.Of settings uid) (topic key : String) :
    itemsAt Sent.address (history.received reader) (topic, some key) <+:
      itemsAt Sent.address (history.written uid reader)
        (topic, some key) := by
  rw [← visible_eq_written legal own]
  exact received_starts_visible legal reader topic key

theorem received_perm_of_caughtUp (legal : history.Legal settings partitioner)
    (own : reader.Of settings uid) (done : history.CaughtUp reader) :
    (history.received reader).Perm (history.written uid reader) := by
  rw [← visible_eq_written legal own]
  exact (follows_received history reader).received_perm done

theorem received_eq_of_caughtUp (legal : history.Legal settings partitioner)
    (own : reader.Of settings uid) (done : history.CaughtUp reader)
    (topic key : String) :
    itemsAt Sent.address (history.received reader) (topic, some key) =
      itemsAt Sent.address (history.written uid reader) (topic, some key) := by
  rw [← visible_eq_written legal own]
  apply (follows_received history reader).key_eq_of_caughtUp Sent.address done
  intro sent member
  exact cell_of_address legal sent (List.mem_of_mem_filter member)

/-- Whoever else uses the broker, a drain of a run receives each record of the
run's own at most once and no other, in order for every key; once it has caught
up it has received them all. -/
theorem run_reads_own_records (legal : history.Legal settings partitioner)
    (own : reader.Of settings uid) :
    (history.received reader).Subperm (history.written uid reader) ∧
    (∀ topic key,
      itemsAt Sent.address (history.received reader) (topic, some key) <+:
        itemsAt Sent.address (history.written uid reader)
          (topic, some key)) ∧
    (history.CaughtUp reader →
      (history.received reader).Perm (history.written uid reader) ∧
      ∀ topic key,
        itemsAt Sent.address (history.received reader) (topic, some key) =
          itemsAt Sent.address (history.written uid reader)
            (topic, some key)) :=
  ⟨received_subperm_written legal own, received_starts legal own,
    fun done => ⟨received_perm_of_caughtUp legal own done,
      received_eq_of_caughtUp legal own done⟩⟩

end Isolation

/-- Keys of even and odd length go to different partitions. -/
def samplePartitioner (_ key : String) : Nat := key.length % 2

/-- A trade as a run publishes it. -/
def sampleSent (uid : String) (value : MarketEvent Rat) : Sent where
  writer := .pipeline uid
  topic := "trades.raw." ++ uid
  key := some value.symbol
  partition := samplePartitioner ("trades.raw." ++ uid) value.symbol
  body := .event value

theorem sampleSent_placed (uid : String) (value : MarketEvent Rat) :
    (sampleSent uid value).Placed sampleSettings samplePartitioner := by
  refine ⟨?_, ?_, ?_⟩
  · simp [sampleSent, Writer.topics, Settings.isolated, Topics.all]
  · intro key same
    simp only [sampleSent, Option.some.injEq] at same ⊢
    rw [same]
  · intro other same
    simp only [sampleSent, Body.event.injEq] at same ⊢
    rw [same, MarketEvent.key]

def sampleReader : Reader := ⟨"bronze-a", ["trades.raw.a", "ticker.raw.a"]⟩

theorem sampleReader_of : sampleReader.Of sampleSettings "a" := by
  simp [Reader.Of, sampleReader, Settings.isolated, Topics.all]

/-- Two runs write in turns; the fetches of one go back and forth between the
two partitions. -/
def sampleHistory : BrokerHistory :=
  let other := { sampleTrade "4" 20 3 1 with symbol := "DOGE-USD" }
  [.append (sampleSent "a" (sampleTrade "1" 5 100 1)),
    .append (sampleSent "b" (sampleTrade "2" 6 100 1)),
    .append (sampleSent "a" other),
    .fetch sampleReader ("trades.raw.a", 0),
    .append (sampleSent "a" (sampleTrade "3" 70 100 1)),
    .fetch sampleReader ("trades.raw.b", 1),
    .fetch sampleReader ("trades.raw.a", 1),
    .fetch sampleReader ("trades.raw.a", 1),
    .fetch sampleReader ("trades.raw.a", 0)]

theorem sampleHistory_legal :
    sampleHistory.Legal sampleSettings samplePartitioner := by
  intro sent member
  simp only [sampleHistory, Layout.appends, List.filterMap_cons,
    List.filterMap_nil, List.mem_cons, List.not_mem_nil, or_false] at member
  rcases member with rfl | rfl | rfl | rfl <;> exact sampleSent_placed _ _

theorem sampleHistory_caughtUp : sampleHistory.CaughtUp sampleReader := by
  apply (follows_received sampleHistory sampleReader).caughtUp_of_length
  decide +kernel

/-- The other run's trade stays unseen; the rest arrives in another order. -/
theorem run_reads_own_records_sample :
    (sampleHistory.received sampleReader).Perm
      (sampleHistory.written "a" sampleReader) ∧
    (sampleHistory.received sampleReader).map Sent.key =
      [some "DOGE-USD", some "BTC-USD", some "BTC-USD"] ∧
    (sampleHistory.written "a" sampleReader).map Sent.key =
      [some "BTC-USD", some "DOGE-USD", some "BTC-USD"] := by
  have own := run_reads_own_records sampleHistory_legal sampleReader_of
  refine ⟨(own.2.2 sampleHistory_caughtUp).1, ?_, ?_⟩
  · decide +kernel
  · decide +kernel

/-- The event of a record on one topic. -/
def Sent.eventOn? (topic : String) (sent : Sent) : Option (MarketEvent Rat) :=
  match sent.body with
  | .event value => if sent.topic = topic then some value else none
  | _ => none

/-- The events of one topic, in the order of the records. -/
def eventsOn (topic : String) (records : List Sent) :
    List (MarketEvent Rat) :=
  records.filterMap (Sent.eventOn? topic)

section Windows

variable {settings : Settings} {partitioner : String → String → Nat}
  {history : BrokerHistory} {uid : String} {reader : Reader}

/-- The events of a symbol are those of the records with its key. -/
theorem itemsAt_eventsOn {records : List Sent}
    (placed : ∀ sent ∈ records, sent.Placed settings partitioner)
    (topic symbol : String) :
    itemsAt MarketEvent.key (eventsOn topic records) symbol =
      eventsOn topic
        (itemsAt Sent.address records (topic, some symbol)) := by
  apply itemsAt_filterMap
  intro sent member value seen
  simp only [Sent.eventOn?] at seen
  split at seen
  · rename_i carried body
    split_ifs at seen with onTopic
    cases seen
    have keyIs := (placed sent member).event value body
    simp [Sent.address, onTopic, keyIs]
  · cases seen

/-- A drain that has caught up has every symbol's events in the order the
broker took them. -/
private theorem eventsOn_sameKeyOrder
    (legal : history.Legal settings partitioner)
    (own : reader.Of settings uid) (done : history.CaughtUp reader)
    (topic : String) :
    SameKeyOrder MarketEvent.key (eventsOn topic (history.received reader))
      (eventsOn topic (history.written uid reader)) := by
  have perm := received_perm_of_caughtUp legal own done
  have placed : ∀ sent ∈ history.written uid reader,
      sent.Placed settings partitioner := by
    intro sent member
    exact legal sent (List.mem_of_mem_filter member)
  intro symbol
  rw [itemsAt_eventsOn placed,
    itemsAt_eventsOn (fun sent member => placed sent (perm.subset member)),
    received_eq_of_caughtUp legal own done]

/-- However many partitions a topic has and however the fetches interleave
with the writes, the processor emits the windows it would emit on the events
in the order the broker took them, and stops only if it would there. -/
theorem windows_independent_of_partitions
    (legal : history.Legal settings partitioner)
    (own : reader.Of settings uid) (done : history.CaughtUp reader)
    {C β : Type} (dataframe : Topic Rat C β) (topic : String)
    (graceSeconds : Nat) :
    ((dataframe.run graceSeconds
        (eventsOn topic (history.received reader))).stopped = none ↔
      (dataframe.run graceSeconds
        (eventsOn topic (history.written uid reader))).stopped = none) ∧
    ((dataframe.run graceSeconds
        (eventsOn topic (history.received reader))).stopped = none →
      (dataframe.run graceSeconds
          (eventsOn topic (history.received reader))).emitted.Perm
        (dataframe.run graceSeconds
          (eventsOn topic (history.written uid reader))).emitted) :=
  Topic.run_of_sameKeyOrder graceSeconds
    (eventsOn_sameKeyOrder legal own done topic)

end Windows

/-- A minute closes in both orders, with the same window. -/
theorem windows_independent_of_partitions_sample :
    ((tradesTopic.run 5
        (eventsOn "trades.raw.a" (sampleHistory.received
          sampleReader))).emitted).Perm
      (tradesTopic.run 5
        (eventsOn "trades.raw.a" (sampleHistory.written "a"
          sampleReader))).emitted ∧
    (tradesTopic.run 5
        (eventsOn "trades.raw.a" (sampleHistory.received
          sampleReader))).emitted.length = 1 := by
  refine ⟨?_, by decide +kernel⟩
  exact (windows_independent_of_partitions sampleHistory_legal sampleReader_of
    sampleHistory_caughtUp tradesTopic "trades.raw.a" 5).2 (by decide +kernel)

end TickStream
