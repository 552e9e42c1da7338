import TickStream.Broker
import TickStream.Dbt.Dedup
import TickStream.Producer.ReplayGate

/-!
# From the replay to the lake

A run publishes events and quarantine records on a broker it shares with
others; its drains and its processor read them back.  A run that returns has
every quarantine record.  Once its report counts every event, bronze holds the
published events partition by partition, and gold is their gold.  The windows
dataset never holds a window the published events would not give, however early
the processor or the drain stops.
-/

namespace TickStream

open Python Library

def quarantineReader (settings : Settings) (uid : String) : Reader :=
  ⟨"quar-" ++ uid, [(settings.isolated uid).topics.quarantine]⟩

def bronzeReader (settings : Settings) (uid : String) : Reader :=
  let topics := (settings.isolated uid).topics
  ⟨"bronze-" ++ uid, [topics.tradesRaw, topics.tickerRaw]⟩

def processorReader (settings : Settings) (uid : String) : Reader :=
  let topics := (settings.isolated uid).topics
  ⟨"pipeline-proc-" ++ uid, [topics.tradesRaw, topics.tickerRaw]⟩

def windowsReader (settings : Settings) (uid : String) : Reader :=
  ⟨"windows-" ++ uid, [(settings.isolated uid).topics.metricsWindowed]⟩

theorem quarantineReader_of (settings : Settings) (uid : String) :
    (quarantineReader settings uid).Of settings uid := by
  simp [Reader.Of, quarantineReader, Topics.all]

theorem bronzeReader_of (settings : Settings) (uid : String) :
    (bronzeReader settings uid).Of settings uid := by
  simp [Reader.Of, bronzeReader, Topics.all]

private theorem processorReader_of (settings : Settings) (uid : String) :
    (processorReader settings uid).Of settings uid := by
  simp [Reader.Of, processorReader, Topics.all]

private theorem windowsReader_of (settings : Settings) (uid : String) :
    (windowsReader settings uid).Of settings uid := by
  simp [Reader.Of, windowsReader, Topics.all]

/-- Topic and key of a raw message. -/
def RawMessage.address (message : RawMessage) : String × String :=
  (message.topic, message.key)

/-- The directory of a bronze row, `_PARTITION_COLS`. -/
def bronzePartition (row : BronzeRow) : EventType × String :=
  (row.eventType, row.symbol)

/-- The published events of one topic. -/
def publishedOn (settings : Settings)
    (fixture : Option (List RecordedMessage)) (env : Environment)
    (topic : String) : List (MarketEvent Rat) :=
  ((publishedRaw settings fixture env).filter
    (fun message => message.topic = topic)).map RawMessage.value

/-- The quarantine records the replay of a run produces. -/
def publishedQuarantine (settings : Settings)
    (fixture : Option (List RecordedMessage)) (env : Environment) :
    List QuarantineMessage :=
  match fixture with
  | none => []
  | some messages =>
      (replayLoop (settings.isolated env.uid) none env.clock 0
        messages).quarantined

/-- What the processor emits for one topic in a history. -/
def BrokerHistory.processed (history : BrokerHistory) (settings : Settings)
    (uid : String) {C β : Type} (dataframe : Topic Rat C β) (topic : String) :
    Outcome Rat :=
  dataframe.run 5
    (eventsOn topic (history.received (processorReader settings uid)))

/-- The environment of a run is what the run meets on a broker.  The producer
is idempotent: every acknowledged record is on the broker once, the events of a
key in the order they were produced. -/
structure Environment.OnBroker (env : Environment) (settings : Settings)
    (fixture : Option (List RecordedMessage))
    (partitioner : String → String → Nat) (history : BrokerHistory) :
    Prop where
  legal : history.Legal settings partitioner
  events : ∀ sent ∈ history.written env.uid (bronzeReader settings env.uid),
    ∃ message, sent.raw? = some message
  published : SameKeyOrder RawMessage.address
    ((history.written env.uid (bronzeReader settings env.uid)).filterMap
      Sent.raw?)
    (publishedRaw settings fixture env)
  quarantined :
    ((history.written env.uid (quarantineReader settings env.uid)).filterMap
      Sent.quarantine?).Perm (publishedQuarantine settings fixture env)
  quarantine : delivered env.quarantine.turns =
    (history.received (quarantineReader settings env.uid)).filterMap
      Sent.quarantine?
  bronze : delivered env.bronze.turns =
    (history.received (bronzeReader settings env.uid)).filterMap Sent.raw?
  windows : delivered env.windows.turns =
    (history.received (windowsReader settings env.uid)).filterMap Sent.window?
  emitted : env.processor = .ok () →
    ((history.written env.uid (windowsReader settings env.uid)).filterMap
      Sent.window?).Perm
      ((history.processed settings env.uid tradesTopic
          (settings.isolated env.uid).topics.tradesRaw).emitted ++
        (history.processed settings env.uid tickerTopic
          (settings.isolated env.uid).topics.tickerRaw).emitted)

section Run

variable {settings : Settings} {fixture : Option (List RecordedMessage)}
  {env : Environment} {partitioner : String → String → Nat}
  {history : BrokerHistory} {lake after : Lake} {result : PipelineResult}

theorem isolated_raw_ne (settings : Settings) (uid : String) :
    (settings.isolated uid).topics.tradesRaw ≠
      (settings.isolated uid).topics.tickerRaw := by
  simp [Settings.isolated, String.ext_iff]

/-- A published message has the topic of its kind and the key of its symbol. -/
theorem publishedRaw_addressed :
    ∀ message ∈ publishedRaw settings fixture env, message.address =
      (topicForEvent (settings.isolated env.uid).topics message.value,
        message.value.key) := by
  intro message member
  cases fixture with
  | none => cases member
  | some messages =>
      obtain ⟨valid, rfl⟩ := replayLoop_rawMessage _ _ _ _ _ message member
      rfl

/-- The address of a published message tells the partition of its row. -/
private theorem bronzePartition_eq_iff {message : RawMessage}
    (member : message ∈ publishedRaw settings fixture env)
    (selected : EventType × String) :
    bronzePartition message.value = selected ↔
      message.address =
        (if selected.1 = .ticker then
            (settings.isolated env.uid).topics.tickerRaw
          else (settings.isolated env.uid).topics.tradesRaw, selected.2) := by
  have apart := isolated_raw_ne settings env.uid
  obtain ⟨kind, symbol⟩ := selected
  rw [publishedRaw_addressed message member]
  simp only [bronzePartition, topicForEvent, MarketEvent.key, Prod.mk.injEq]
  cases message.value.eventType <;> cases kind <;> simp [apart, apart.symm]

/-- The raw messages a drain holds for an address. -/
theorem itemsAt_raw (records : List Sent) (topic key : String) :
    itemsAt RawMessage.address (records.filterMap Sent.raw?) (topic, key) =
      (itemsAt Sent.address records (topic, some key)).filterMap
        Sent.raw? := by
  apply itemsAt_filterMap
  intro sent _ message seen
  simp only [Sent.raw?] at seen
  split at seen
  · rename_i value sentKey _ keyIs
    cases seen
    simp [RawMessage.address, Sent.address, keyIs]
  · cases seen

theorem bronze_delivered_subperm
    (onBroker : env.OnBroker settings fixture partitioner history) :
    (delivered env.bronze.turns).Subperm
      (publishedRaw settings fixture env) := by
  have read := received_subperm_written onBroker.legal
    (bronzeReader_of settings env.uid)
  rw [onBroker.bronze]
  exact (subperm_filterMap read Sent.raw?).trans
    onBroker.published.perm.subperm

/-- A report that counts every event has read every record of the run. -/
private theorem caughtUp_of_counts
    (onBroker : env.OnBroker settings fixture partitioner history)
    (whole : (publishedRaw settings fixture env).length ≤
      (delivered env.bronze.turns).length) :
    history.CaughtUp (bronzeReader settings env.uid) := by
  have own := bronzeReader_of settings env.uid
  have seen := visible_eq_written onBroker.legal own
  have read := (received_subperm_written onBroker.legal own).length_le
  have decoded : ((history.written env.uid
      (bronzeReader settings env.uid)).filterMap Sent.raw?).length =
      (history.written env.uid (bronzeReader settings env.uid)).length := by
    rw [List.length_filterMap_eq_countP, List.countP_eq_length]
    intro sent member
    obtain ⟨message, seen⟩ := onBroker.events sent member
    simp [seen]
  have received := List.length_filterMap_le Sent.raw?
    (history.received (bronzeReader settings env.uid))
  have published := onBroker.published.perm.length_eq
  rw [onBroker.bronze] at whole
  apply (follows_received history (bronzeReader settings
    env.uid)).caughtUp_of_length
  rw [seen]
  change (history.received _).length = _
  omega

/-- A drain that has caught up has the published messages, those of an address
in their order. -/
theorem delivered_sameKeyOrder
    (onBroker : env.OnBroker settings fixture partitioner history)
    (done : history.CaughtUp (bronzeReader settings env.uid)) :
    SameKeyOrder RawMessage.address (delivered env.bronze.turns)
      (publishedRaw settings fixture env) := by
  have ordered := received_eq_of_caughtUp onBroker.legal
    (bronzeReader_of settings env.uid) done
  apply SameKeyOrder.trans _ onBroker.published
  rintro ⟨topic, key⟩
  rw [onBroker.bronze, itemsAt_raw, itemsAt_raw, ordered]

/-- A run that returns reports the gold of the bronze it leaves and the windows
of its drain. -/
theorem runPipeline_gold
    (ran : runPipeline settings fixture env lake = .ok (result, after)) :
    env.processor = .ok () ∧
      result.goldRows = (goldWindowMetrics after.bronze).length ∧
      result.windowRows = (env.windows.rows 30 3).length ∧
      (env.windows.rows 30 3 ≠ [] →
        after.windows = env.windows.rows 30 3) := by
  obtain ⟨messages, landed, _, completed⟩ := runPipeline_completed ran
  have windows :=
    (landWindows_count_and_frame env.windows landed.2).2.2.2
  rw [← completed.left] at windows
  refine ⟨completed.processed, ?_, ?_, windows⟩
  · rw [completed.report]
  · rw [completed.report]

/-- A run that reports every event and at least one has the published events in
bronze, those of a partition in their order. -/
theorem landed_of_counts
    (onBroker : env.OnBroker settings fixture partitioner history)
    (ran : runPipeline settings fixture env lake = .ok (result, after))
    (occupied : 0 < result.bronzeRows)
    (counted : result.bronzeRows = result.replayedEvents) :
    SameKeyOrder bronzePartition after.bronze
      ((publishedRaw settings fixture env).map RawMessage.value) := by
  have delivers := bronze_delivered_subperm onBroker
  obtain ⟨events, rows, bronze⟩ := runPipeline_eq_ok delivers ran
  have drained := env.bronze.rows_initial 30 3
  have fewer := delivers.length_le
  have lengths := drained.length_le
  have whole : env.bronze.rows 30 3 = delivered env.bronze.turns :=
    drained.eq_of_length (by omega)
  have done := caughtUp_of_counts onBroker (by omega)
  have nonempty : env.bronze.rows 30 3 ≠ [] := by
    intro empty
    rw [empty, List.length_nil] at rows
    omega
  have order := delivered_sameKeyOrder onBroker done
  rw [bronze nonempty, whole]
  apply order.map_located
  intro message member
  exact bronzePartition_eq_iff (order.perm.mem_iff.mp member)

/-- When a run reports as many bronze rows as replayed events, every bronze
partition holds its published events in their order, whoever else used the
broker, and gold is the gold of the published events. -/
theorem counted_run_lands_everything
    (onBroker : env.OnBroker settings fixture partitioner history)
    (ran : runPipeline settings fixture env lake = .ok (result, after))
    (occupied : 0 < result.bronzeRows)
    (counted : result.bronzeRows = result.replayedEvents) :
    let published :=
      (publishedRaw settings fixture env).map RawMessage.value
    SameKeyOrder bronzePartition after.bronze published ∧
      result.goldRows = (goldWindowMetrics published).length ∧
      ∀ gold direct, GoldOf after.bronze gold → GoldOf published direct →
        gold.Perm direct := by
  intro published
  have landed := landed_of_counts onBroker ran occupied counted
  have golds : ∀ gold direct, GoldOf after.bronze gold →
      GoldOf published direct → gold.Perm direct := by
    intro gold direct
    exact goldOf_perm landed.perm
  refine ⟨landed, ?_, golds⟩
  rw [(runPipeline_gold ran).2.1]
  exact (golds _ _ (goldOf_goldWindowMetrics _)
    (goldOf_goldWindowMetrics _)).length_eq

private theorem quarantineRejects_records {message : RecordedMessage}
    {rejects : List Reject} {records : List QuarantineMessage}
    (written : quarantineRejects message rejects = (records, .ok ())) :
    records = quarantineRecords message rejects := by
  induction rejects generalizing records with
  | nil =>
      cases written
      rfl
  | cons reject rest induction =>
      simp only [quarantineRejects] at written
      split_ifs at written
      · cases tail : quarantineRejects message rest with
        | mk others outcome =>
            simp only [tail, Prod.mk.injEq] at written
            obtain ⟨rfl, rfl⟩ := written
            rw [induction tail]
            rfl
      · cases written

/-- A replay that goes through normalizes every message, and produces the events
and the rejects of all of them. -/
theorem replayLoop_logs {run : Settings} {clock : Nat → Instant} {count : Nat}
    {messages : List RecordedMessage}
    (ended : (replayLoop run none clock count messages).outcome = .ok ()) :
    ∃ logs, Normalizes run clock count messages logs ∧
      (replayLoop run none clock count messages).raw =
        logs.flatMap (fun log =>
          log.done.map (fun valid => rawMessage run valid.event)) ∧
      (replayLoop run none clock count messages).quarantined =
        (messages.zip logs).flatMap (fun pair =>
          quarantineRecords pair.1 pair.2.refused) := by
  induction messages generalizing count with
  | nil => exact ⟨[], List.Forall₂.nil, rfl, rfl⟩
  | cons message rest induction =>
      have unfolded : replayLoop run none clock count (message :: rest) =
          (replayMessage run (clock count) message).andThen
            (replayLoop run none clock (count + 1) rest) := by
        simp [replayLoop]
      rw [unfolded] at ended ⊢
      cases normalized : normalizeMessage run (clock count) message with
      | error failure =>
          simp [replayMessage, normalized, ReplayRun.andThen] at ended
      | ok log =>
          cases written : quarantineRejects message log.refused with
          | mk records outcome =>
              cases outcome with
              | error failure =>
                  simp [replayMessage, normalized, publishLog, Log.view,
                    written, ReplayRun.andThen] at ended
              | ok _ =>
                  have all := quarantineRejects_records written
                  simp only [replayMessage, normalized, publishLog, Log.view,
                    written, ReplayRun.andThen] at ended ⊢
                  obtain ⟨logs, normalizes, raw, quarantined⟩ :=
                    induction ended
                  refine ⟨log :: logs, List.Forall₂.cons normalized normalizes,
                    ?_, ?_⟩
                  · rw [raw, List.flatMap_cons]
                  · rw [quarantined, all, List.zip_cons_cons,
                      List.flatMap_cons]

theorem runPipeline_quarantine
    (ran : runPipeline settings fixture env lake = .ok (result, after)) :
    ∃ messages, fixture = some messages ∧
      (replayLoop (settings.isolated env.uid) none env.clock 0
        messages).outcome = .ok () ∧
      (env.quarantine.rows 15 3).length =
        (publishedQuarantine settings fixture env).length ∧
      after.quarantine = env.quarantine.rows 15 3 := by
  obtain ⟨messages, landed, rfl, completed⟩ := runPipeline_completed ran
  refine ⟨messages, rfl, completed.replayed, completed.reconciled, ?_⟩
  have wrote := completed.wrote
  unfold writeBronze at wrote
  obtain ⟨rows, _, wrote⟩ := bind_eq_ok_iff.mp wrote
  have kept : landed.2.quarantine = env.quarantine.rows 15 3 := by
    split_ifs at wrote <;> cases wrote <;> rfl
  rw [completed.left,
    (landWindows_count_and_frame env.windows landed.2).2.2.1, kept]

/-- A run that returns has every reject of the fixture in the quarantine
dataset, once; if its report counts every event, bronze has every event
normalization made of the fixture, once. -/
theorem run_accounts_for_fixture
    (onBroker : env.OnBroker settings fixture partitioner history)
    (ran : runPipeline settings fixture env lake = .ok (result, after)) :
    ∃ messages logs, fixture = some messages ∧
      Normalizes (settings.isolated env.uid) env.clock 0 messages logs ∧
      after.quarantine.Perm ((messages.zip logs).flatMap (fun pair =>
        quarantineRecords pair.1 pair.2.refused)) ∧
      (0 < result.bronzeRows → result.bronzeRows = result.replayedEvents →
        after.bronze.Perm (logs.flatMap (fun log =>
          log.done.map (fun valid => valid.event.toJsonBytes)))) := by
  obtain ⟨messages, rfl, ended, reconciled, landed⟩ :=
    runPipeline_quarantine ran
  obtain ⟨logs, normalizes, raw, quarantined⟩ := replayLoop_logs ended
  refine ⟨messages, logs, rfl, normalizes, ?_, ?_⟩
  · have drained := (env.quarantine.rows_initial 15 3).sublist.subperm
    have read := received_subperm_written onBroker.legal
      (quarantineReader_of settings env.uid)
    rw [onBroker.quarantine] at drained
    have whole := (drained.trans (subperm_filterMap read
      Sent.quarantine?)).trans onBroker.quarantined.subperm
    rw [landed, ← quarantined]
    exact whole.perm_of_length_le (Nat.le_of_eq reconciled.symm)
  · intro occupied counted
    have bronze := (landed_of_counts onBroker ran occupied counted).perm
    simp only [publishedRaw, raw, List.map_flatMap, List.map_map] at bronze
    exact bronze

/-- The records of a run on a raw topic are the published events of it. -/
private theorem eventsOn_written
    (onBroker : env.OnBroker settings fixture partitioner history)
    (topic symbol : String) :
    eventsOn topic (itemsAt Sent.address (history.written env.uid
        (processorReader settings env.uid)) (topic, some symbol)) =
      itemsAt MarketEvent.key (publishedOn settings fixture env topic)
        symbol := by
  have view : ∀ sent : Sent, sent.address = (topic, some symbol) →
      Sent.eventOn? topic sent = sent.raw?.map RawMessage.value := by
    intro sent here
    have topicIs : sent.topic = topic := congrArg Prod.fst here
    have keyIs : sent.key = some symbol := congrArg Prod.snd here
    simp only [Sent.eventOn?, Sent.raw?, keyIs, topicIs, if_true]
    cases sent.body <;> rfl
  have ordered := onBroker.published (topic, symbol)
  rw [itemsAt_raw] at ordered
  have addressed : itemsAt MarketEvent.key
      (publishedOn settings fixture env topic) symbol =
      (itemsAt RawMessage.address (publishedRaw settings fixture env)
        (topic, symbol)).map RawMessage.value := by
    simp only [itemsAt, publishedOn, List.filter_map, List.filter_filter]
    congr 1
    apply List.filter_congr
    intro message member
    have located := publishedRaw_addressed message member
    simp only [RawMessage.address, Prod.mk.injEq] at located
    simp only [Function.comp_apply, RawMessage.address, Prod.mk.injEq,
      located.2, Bool.and_comm, Bool.decide_and]
  rw [addressed, ← ordered, List.map_filterMap]
  apply List.filterMap_congr
  intro sent member
  exact view sent ((mem_itemsAt _).mp member).2

/-- What the processor has read of a topic starts every symbol's published
events. -/
private theorem processed_starts
    (onBroker : env.OnBroker settings fixture partitioner history)
    (topic symbol : String) :
    itemsAt MarketEvent.key (eventsOn topic
        (history.received (processorReader settings env.uid))) symbol <+:
      itemsAt MarketEvent.key (publishedOn settings fixture env topic)
        symbol := by
  have own := processorReader_of settings env.uid
  have placed : ∀ sent ∈ history.received (processorReader settings env.uid),
      sent.Placed settings partitioner := by
    intro sent member
    exact onBroker.legal sent
      (List.mem_of_mem_filter
        ((received_subperm_written onBroker.legal own).subset member))
  rw [itemsAt_eventsOn placed, ← eventsOn_written onBroker]
  exact (received_starts onBroker.legal own topic symbol).filterMap _

/-- Events the processor can get through, none of them before the epoch. -/
structure Streamable {C β : Type} (dataframe : Topic Rat C β)
    (events : List (MarketEvent Rat)) : Prop where
  complete : ∀ event ∈ events, ∃ columns, dataframe.columns event = .ok columns
  afterEpoch : ∀ event ∈ events, 0 ≤ event.tsEvent

/-- A raw topic carries the events of its kind. -/
theorem publishedOn_kind {kind : EventType} {topic : String}
    (routed : ∀ value : MarketEvent Rat,
      topicForEvent (settings.isolated env.uid).topics value = topic →
        value.eventType = kind) :
    ∀ event ∈ publishedOn settings fixture env topic,
      event.eventType = kind := by
  intro event member
  obtain ⟨message, kept, rfl⟩ := List.mem_map.mp member
  obtain ⟨published, onTopic⟩ := List.mem_filter.mp kept
  have located := publishedRaw_addressed message published
  rw [decide_eq_true_iff] at onTopic
  simp only [RawMessage.address, Prod.mk.injEq, onTopic] at located
  exact routed message.value located.1.symm

private theorem publishedOn_trades :
    ∀ event ∈ publishedOn settings fixture env
      (settings.isolated env.uid).topics.tradesRaw,
      event.eventType = .trade := by
  apply publishedOn_kind
  intro value routed
  have apart := isolated_raw_ne settings env.uid
  simp only [topicForEvent] at routed
  cases kind : value.eventType with
  | trade => rfl
  | ticker =>
      rw [if_pos kind] at routed
      exact absurd routed.symm apart

private theorem publishedOn_tickers :
    ∀ event ∈ publishedOn settings fixture env
      (settings.isolated env.uid).topics.tickerRaw,
      event.eventType = .ticker := by
  apply publishedOn_kind
  intro value routed
  have apart := isolated_raw_ne settings env.uid
  simp only [topicForEvent] at routed
  cases kind : value.eventType with
  | trade =>
      rw [if_neg (by simp [kind])] at routed
      exact absurd routed apart
  | ticker => rfl

/-- Wherever the processor stops reading, it has emitted reference windows of
the published events only. -/
theorem processed_subperm_reference
    (onBroker : env.OnBroker settings fixture partitioner history)
    {C β : Type} {dataframe : Topic Rat C β}
    (projection : dataframe.Projection) {topic : String}
    (streamable : Streamable dataframe
      (publishedOn settings fixture env topic))
    (kind : ∀ event ∈ publishedOn settings fixture env topic,
      event.eventType = projection.kind) :
    ((history.processed settings env.uid dataframe topic).emitted.map
      WindowRecord.metrics).Subperm
      (Topic.referenceWindows 5 (publishedOn settings fixture env topic)) := by
  have all : (dataframe.rows
      (publishedOn settings fixture env topic)).map Row.value =
      publishedOn settings fixture env topic :=
    rows_complete_iff.mpr streamable.complete
  have whole : (dataframe.run 5
      (publishedOn settings fixture env topic)).stopped = none :=
    (dataframe.runFrom_stopped 5 _ _).mpr all
  have windows := (Topic.run_matchesReference projection 5 _ kind
    streamable.afterEpoch).windows
  rw [all] at windows
  obtain ⟨_, part⟩ := dataframe.run_of_starts 5
    (processed_starts onBroker topic) whole
  exact (subperm_map part _).trans windows.subperm

/-- The reference windows of all published events. -/
def publishedWindows (settings : Settings)
    (fixture : Option (List RecordedMessage)) (env : Environment) :
    List (WindowMetrics Rat) :=
  Topic.referenceWindows 5 (publishedOn settings fixture env
      (settings.isolated env.uid).topics.tradesRaw) ++
    Topic.referenceWindows 5 (publishedOn settings fixture env
      (settings.isolated env.uid).topics.tickerRaw)

private theorem windows_rows_subperm
    (onBroker : env.OnBroker settings fixture partitioner history)
    (went : env.processor = .ok ())
    (trades : Streamable (tradesTopic (F := Rat))
      (publishedOn settings fixture env
        (settings.isolated env.uid).topics.tradesRaw))
    (tickers : Streamable (tickerTopic (F := Rat))
      (publishedOn settings fixture env
        (settings.isolated env.uid).topics.tickerRaw)) :
    ((env.windows.rows 30 3).map WindowRecord.metrics).Subperm
      (publishedWindows settings fixture env) := by
  have drained := (env.windows.rows_initial 30 3).sublist.subperm
  have read := received_subperm_written onBroker.legal
    (windowsReader_of settings env.uid)
  have landed : (env.windows.rows 30 3).Subperm
      ((history.processed settings env.uid tradesTopic
          (settings.isolated env.uid).topics.tradesRaw).emitted ++
        (history.processed settings env.uid tickerTopic
          (settings.isolated env.uid).topics.tickerRaw).emitted) := by
    rw [onBroker.windows] at drained
    exact (drained.trans (subperm_filterMap read Sent.window?)).trans
      (onBroker.emitted went).subperm
  have mapped := subperm_map landed WindowRecord.metrics
  rw [List.map_append] at mapped
  exact mapped.trans
    ((processed_subperm_reference onBroker tradesProjection trades
      publishedOn_trades).append
    (processed_subperm_reference onBroker tickerProjection tickers
      publishedOn_tickers))

/-- The windows dataset of a run holds reference windows of the published
events only, each at most once, however early the processor or the drain
stopped; it holds all of them exactly when the report counts as many. -/
theorem landed_windows_in_reference
    (onBroker : env.OnBroker settings fixture partitioner history)
    (ran : runPipeline settings fixture env lake = .ok (result, after))
    (occupied : 0 < result.windowRows)
    (trades : Streamable (tradesTopic (F := Rat))
      (publishedOn settings fixture env
        (settings.isolated env.uid).topics.tradesRaw))
    (tickers : Streamable (tickerTopic (F := Rat))
      (publishedOn settings fixture env
        (settings.isolated env.uid).topics.tickerRaw)) :
    (after.windows.map WindowRecord.metrics).Subperm
      (publishedWindows settings fixture env) ∧
    ((after.windows.map WindowRecord.metrics).Perm
      (publishedWindows settings fixture env) ↔
        result.windowRows = (publishedWindows settings fixture env).length) := by
  obtain ⟨went, _, rows, written⟩ := runPipeline_gold ran
  have nonempty : env.windows.rows 30 3 ≠ [] := by
    intro empty
    rw [empty, List.length_nil] at rows
    omega
  have landed := windows_rows_subperm onBroker went trades tickers
  rw [written nonempty]
  refine ⟨landed, ?_⟩
  constructor
  · intro all
    rw [rows, ← all.length_eq, List.length_map]
  · intro counted
    apply landed.perm_of_length_le
    rw [List.length_map, ← rows, counted]

end Run

/-- Two trades of one symbol more than a minute apart, one of another, and one
without a price. -/
def minutesFixture : List RecordedMessage :=
  let trade (symbol id time : String) (price : String := "42000.5") : Json :=
    .obj [("product_id", .str symbol), ("trade_id", .str id),
      ("price", .str price), ("size", .str "0.01"), ("time", .str time),
      ("side", .str "BUY")]
  [{ seq := 1
     tsRecorded := 0
     exchange := "coinbase"
     payload :=
      [("channel", .str "market_trades"),
        ("events", .arr [.obj [("type", .str "update"), ("trades",
          .arr [trade "BTC-USD" "1" "2026-01-01T00:00:10Z",
            trade "ETH-USD" "2" "2026-01-01T00:00:20Z",
            trade "BTC-USD" "3" "2026-01-01T00:01:20Z",
            trade "BTC-USD" "4" "2026-01-01T00:01:30Z" ""])]])] }]

def minutesRaw : List RawMessage :=
  publishedRaw sampleSettings (some minutesFixture) quietEnvironment

def minutesQuarantine : List QuarantineMessage :=
  publishedQuarantine sampleSettings (some minutesFixture) quietEnvironment

def minutesWindows : List (WindowRecord Rat) :=
  (tradesTopic.run 5 (minutesRaw.map RawMessage.value)).emitted

def sentEvent (message : RawMessage) : Sent :=
  ⟨.pipeline "0", message.topic, some message.key,
    samplePartitioner message.topic message.key, .event message.value⟩

def sentQuarantine (message : QuarantineMessage) : Sent :=
  ⟨.pipeline "0", "contracts.quarantine.0", none, 0, .quarantine message⟩

def sentWindow (record : WindowRecord Rat) : Sent :=
  ⟨.pipeline "0", "metrics.windowed.0", some record.metrics.symbol,
    samplePartitioner "metrics.windowed.0" record.metrics.symbol,
    .window record⟩

/-- Polls that return these messages and then nothing for the idle time. -/
def drainOf {α : Type} (messages : List α) : DrainScript α :=
  ⟨0, 0, messages.map (fun message => ⟨0, .message message, 1⟩) ++
    [⟨1, .empty, 5⟩]⟩

theorem delivered_drainOf {α : Type} (messages : List α) :
    delivered (drainOf messages).turns = messages := by
  simp [drainOf, delivered, List.filterMap_map, Function.comp_def,
    Turn.message?, Poll.value?]

def minutesEnvironment : Environment :=
  { quietEnvironment with
    quarantine := drainOf minutesQuarantine
    bronze := drainOf minutesRaw
    windows := drainOf minutesWindows }

/-- A reader fetches the records, each from its partition. -/
def fetches (reader : Reader) (records : List Sent) : BrokerHistory :=
  records.map (fun sent => .fetch reader (sent.topic, sent.partition))

def minutesHistory : BrokerHistory :=
  let events := minutesRaw.map sentEvent
  let rejects := minutesQuarantine.map sentQuarantine
  let windows := minutesWindows.map sentWindow
  (sampleSent "b" (sampleTrade "4" 6 100 1) :: rejects ++ events).map .append ++
    fetches (quarantineReader sampleSettings "0") rejects ++
    fetches (processorReader sampleSettings "0") events ++
    windows.map .append ++
    fetches (bronzeReader sampleSettings "0") events ++
    fetches (windowsReader sampleSettings "0") windows

theorem minutesHistory_appends :
    Layout.appends minutesHistory =
      sampleSent "b" (sampleTrade "4" 6 100 1) ::
        (minutesQuarantine.map sentQuarantine ++ minutesRaw.map sentEvent ++
          minutesWindows.map sentWindow) := by
  have read : ∀ (reader : Reader) (records : List Sent),
      Layout.appends (fetches reader records) = [] := by
    intro reader records
    simp [Layout.appends, fetches]
  have wrote : ∀ records : List Sent,
      Layout.appends (records.map .append : BrokerHistory) = records := by
    intro records
    simp [Layout.appends]
  simp only [minutesHistory, Layout.appends_append, read, wrote,
    List.append_nil, List.cons_append]

theorem minutesHistory_legal :
    minutesHistory.Legal sampleSettings samplePartitioner := by
  intro sent member
  rw [minutesHistory_appends] at member
  rcases List.mem_cons.mp member with rfl | own
  · exact sampleSent_placed _ _
  rcases List.mem_append.mp own with raw | window
  rcases List.mem_append.mp raw with reject | event
  · obtain ⟨message, _, rfl⟩ := List.mem_map.mp reject
    refine ⟨?_, ?_, ?_⟩
    · simp [sentQuarantine, Writer.topics, Topics.all, Settings.isolated]
    · intro key same
      cases same
    · intro value same
      cases same
  · obtain ⟨message, published, rfl⟩ := List.mem_map.mp event
    have located := publishedRaw_addressed message published
    simp only [RawMessage.address, Prod.mk.injEq] at located
    refine ⟨?_, ?_, ?_⟩
    · simp only [sentEvent, located.1, topicForEvent, Writer.topics,
        Topics.all]
      split <;> simp [quietEnvironment]
    · intro key same
      cases same
      rfl
    · intro value same
      cases same
      simp [sentEvent, located.2]
  · obtain ⟨record, _, rfl⟩ := List.mem_map.mp window
    refine ⟨?_, ?_, ?_⟩
    · simp [sentWindow, Writer.topics, Topics.all, Settings.isolated]
    · intro key same
      cases same
      rfl
    · intro value same
      cases same

/-- The records of the run on its quarantine topic. -/
theorem minutes_rejects :
    (minutesHistory.written "0"
      (quarantineReader sampleSettings "0")).filterMap Sent.quarantine? =
        minutesQuarantine := by
  have topics : (quarantineReader sampleSettings "0").topics =
      ["contracts.quarantine.0"] := by
    decide +kernel
  have other : (sampleSent "b" (sampleTrade "4" 6 100 1)).writer ≠
      .pipeline "0" := by
    decide
  simp only [BrokerHistory.written, minutesHistory_appends, topics,
    List.filter_cons, other, List.filter_append, List.filter_map,
    List.mem_singleton, Function.comp_def, sentQuarantine, sentWindow]
  simp [Function.comp_def, sentQuarantine, sentEvent, Sent.quarantine?]

theorem minutes_onBroker :
    minutesEnvironment.OnBroker sampleSettings (some minutesFixture)
      samplePartitioner minutesHistory where
  legal := minutesHistory_legal
  events := by
    have all : (minutesHistory.written "0"
        (bronzeReader sampleSettings "0")).all
          (fun sent => sent.raw?.isSome) = true := by
      decide +kernel
    intro sent member
    exact Option.isSome_iff_exists.mp (List.all_eq_true.mp all sent member)
  published := by
    have same : (minutesHistory.written "0"
        (bronzeReader sampleSettings minutesEnvironment.uid)).filterMap
          Sent.raw? =
        publishedRaw sampleSettings (some minutesFixture)
          minutesEnvironment := by
      decide +kernel
    change SameKeyOrder _ ((minutesHistory.written "0" _).filterMap _) _
    rw [same]
    exact SameKeyOrder.refl _
  quarantined := List.Perm.of_eq minutes_rejects
  quarantine := by
    have read := subperm_filterMap (received_subperm_written
      minutesHistory_legal (quarantineReader_of sampleSettings "0"))
      Sent.quarantine?
    have whole := read.perm_of_length_le (by decide +kernel)
    obtain ⟨only, one⟩ : ∃ only, minutesQuarantine = [only] :=
      List.length_eq_one_iff.mp (by decide +kernel)
    rw [minutes_rejects, one, List.perm_singleton] at whole
    have polled : delivered minutesEnvironment.quarantine.turns =
        minutesQuarantine := delivered_drainOf minutesQuarantine
    rw [polled, one]
    exact whole.symm
  bronze := by decide +kernel
  windows := by decide +kernel
  emitted := by
    intro _
    have same : (minutesHistory.written "0"
        (windowsReader sampleSettings "0")).filterMap Sent.window? =
          (minutesHistory.processed sampleSettings "0" tradesTopic
            "trades.raw.0").emitted ++
          (minutesHistory.processed sampleSettings "0" tickerTopic
            "ticker.raw.0").emitted := by
      decide +kernel
    exact List.Perm.of_eq same

theorem minutes_reported :
    ∃ result after,
      runPipeline sampleSettings (some minutesFixture) minutesEnvironment
        ⟨[], [], []⟩ = .ok (result, after) ∧ result.bronzeRows = 3 ∧
        result.replayedEvents = 3 := by
  apply reportedCounts_eq_some
  decide +kernel

/-- Three events land, in one partition for each symbol. -/
theorem counted_run_lands_everything_sample :
    ∃ result after,
      runPipeline sampleSettings (some minutesFixture) minutesEnvironment
        ⟨[], [], []⟩ = .ok (result, after) ∧
      SameKeyOrder bronzePartition after.bronze
        (minutesRaw.map RawMessage.value) ∧
      result.goldRows =
        (goldWindowMetrics (minutesRaw.map RawMessage.value)).length := by
  obtain ⟨result, after, ran, rows, events⟩ := minutes_reported
  obtain ⟨landed, gold, _⟩ := counted_run_lands_everything minutes_onBroker ran
    (by omega) (by omega)
  exact ⟨result, after, ran, landed, gold⟩

/-- The trade without a price lands in quarantine. -/
theorem run_accounts_for_fixture_sample :
    ∃ result after logs,
      runPipeline sampleSettings (some minutesFixture) minutesEnvironment
        ⟨[], [], []⟩ = .ok (result, after) ∧
      Normalizes (sampleSettings.isolated "0") (fun _ => 0) 0 minutesFixture
        logs ∧
      after.quarantine.length = 1 ∧
      after.bronze.Perm (logs.flatMap (fun log =>
        log.done.map (fun valid => valid.event.toJsonBytes))) := by
  obtain ⟨result, after, ran, rows, events⟩ := minutes_reported
  obtain ⟨messages, logs, same, normalizes, _, bronze⟩ :=
    run_accounts_for_fixture minutes_onBroker ran
  rw [Option.some.injEq] at same
  subst same
  obtain ⟨_, _, _, count, landed⟩ := runPipeline_quarantine ran
  have one : (publishedQuarantine sampleSettings (some minutesFixture)
      minutesEnvironment).length = 1 := by
    decide +kernel
  refine ⟨result, after, logs, ran, normalizes, ?_,
    bronze (by omega) (by omega)⟩
  rw [landed, count, one]

theorem minutes_streamable :
    Streamable (tradesTopic (F := Rat))
      (publishedOn sampleSettings (some minutesFixture) minutesEnvironment
        "trades.raw.0") ∧
    Streamable (tickerTopic (F := Rat))
      (publishedOn sampleSettings (some minutesFixture) minutesEnvironment
        "ticker.raw.0") := by
  have trades : ∀ event ∈ publishedOn sampleSettings (some minutesFixture)
      minutesEnvironment "trades.raw.0",
      (event.price.isSome = true ∧ event.size.isSome = true) ∧
        0 ≤ event.tsEvent := by
    decide +kernel
  have tickers : publishedOn sampleSettings (some minutesFixture)
      minutesEnvironment "ticker.raw.0" = [] := by
    decide +kernel
  refine ⟨⟨?_, ?_⟩, ?_⟩
  · intro event member
    exact tradeColumns_ok_iff.mpr (trades event member).1
  · intro event member
    exact (trades event member).2
  · rw [tickers]
    exact ⟨by simp, by simp⟩

/-- The one minute that closes lands in the windows dataset. -/
theorem landed_windows_in_reference_sample :
    ∃ result after,
      runPipeline sampleSettings (some minutesFixture) minutesEnvironment
        ⟨[], [], []⟩ = .ok (result, after) ∧
      (after.windows.map WindowRecord.metrics).Perm
        (publishedWindows sampleSettings (some minutesFixture)
          minutesEnvironment) := by
  obtain ⟨result, after, ran, _⟩ := minutes_reported
  have windows := (runPipeline_gold ran).2.2.1
  have drained : (minutesEnvironment.windows.rows 30 3).length = 1 := by
    decide +kernel
  have reference : (publishedWindows sampleSettings (some minutesFixture)
      minutesEnvironment).length = 1 := by
    decide +kernel
  refine ⟨result, after, ran, ?_⟩
  apply (landed_windows_in_reference minutes_onBroker ran (by omega)
    minutes_streamable.1 minutes_streamable.2).2.mpr
  omega

end TickStream
