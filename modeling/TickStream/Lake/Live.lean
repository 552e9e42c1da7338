import TickStream.EndToEnd
import TickStream.Lake.Clearing
import TickStream.Quality.Verdict

/-!
# Bronze of a live stream

The `bronze` command drains the canonical topics while the live producer keeps
writing to them.  It commits no offset, so every call reads the topics from
their start, and what it drained replaces the dataset.  Wherever its drain ends,
every directory of the dataset starts what was published for it.
-/

namespace TickStream

open Python Library

/-- The consumer of a `bronze` call. -/
def rawReader (settings : Settings) : Reader :=
  ⟨"tickstream-bronze",
    [settings.topics.tradesRaw, settings.topics.tickerRaw]⟩

/-- A `bronze` call with its `drain` seconds.  Its history is that of the broker
up to the end of the call, in which its consumer starts with the call. -/
structure BronzeCall where
  drain : Rat
  script : DrainScript RawMessage
  history : BrokerHistory

namespace BronzeCall

def bronze (call : BronzeCall) (dest : List BronzeRow) :
    Result (Nat × List BronzeRow) :=
  writeBronzeAt call.drain 3 true none call.script dest

/-- Calls one after the other on one dataset. -/
def session (calls : List BronzeCall) (dest : List BronzeRow) :
    Result (List BronzeRow) :=
  calls.foldlM (fun dest call => do
    let landed ← call.bronze dest
    return landed.2) dest

end BronzeCall

/-- An accepted event on the topic of its type, under its key. -/
def Sent.Routed (settings : Settings) (sent : Sent) : Prop :=
  ∃ valid : ValidEvent,
    sent.body = .event valid.event.toJsonBytes ∧
      sent.topic = topicForEvent settings.topics valid.event.toJsonBytes ∧
        sent.key = some valid.event.toJsonBytes.key

/-- The row of a raw record. -/
def Sent.row? (sent : Sent) : Option BronzeRow :=
  sent.raw?.map RawMessage.value

/-- The rows of the records on the canonical raw topics. -/
def BronzeCall.logged (call : BronzeCall) (settings : Settings) :
    List BronzeRow :=
  (brokerLayout.visible (rawReader settings)
    (Layout.appends call.history)).filterMap Sent.row?

/-- What a call meets on the broker. -/
structure BronzeCall.OnBroker (call : BronzeCall) (settings : Settings)
    (partitioner : String → String → Nat) : Prop where
  legal : call.history.Legal settings partitioner
  routed : ∀ sent ∈ Layout.appends call.history,
    sent.topic ∈ (rawReader settings).topics → sent.Routed settings
  turns : delivered call.script.turns =
    (call.history.received (rawReader settings)).filterMap Sent.raw?

/-- The call has read everything and drained all it has read. -/
structure BronzeCall.Whole (call : BronzeCall) (settings : Settings) :
    Prop where
  caughtUp : call.history.CaughtUp (rawReader settings)
  uncut : call.script.Uncut call.drain 3

/-- The broker has kept its records between the calls. -/
def BronzeCall.Grows (earlier later : BronzeCall) : Prop :=
  Layout.appends earlier.history <+: Layout.appends later.history

section Call

variable {settings : Settings} {partitioner : String → String → Nat}
  {call : BronzeCall} {dest : List BronzeRow}

theorem Sent.Routed.row {sent : Sent} (routed : sent.Routed settings)
    {row : BronzeRow} (seen : sent.row? = some row) :
    sent.address = (topicForEvent settings.topics row, some row.key) := by
  obtain ⟨valid, body, topic, key⟩ := routed
  simp only [Sent.row?, Sent.raw?, body, key, Option.map_some,
    Option.some.injEq] at seen
  rw [← seen, Sent.address, topic, key]

/-- The address of the records a directory of bronze comes from. -/
def addressOf (settings : Settings) (selected : EventType × String) :
    String × Option String :=
  (if selected.1 = .ticker then settings.topics.tickerRaw
    else settings.topics.tradesRaw, some selected.2)

theorem BronzeCall.OnBroker.visible_routed
    (onBroker : call.OnBroker settings partitioner) :
    ∀ sent ∈ brokerLayout.visible (rawReader settings)
      (Layout.appends call.history), sent.Routed settings := by
  intro sent member
  obtain ⟨appended, subscribed⟩ := List.mem_filter.mp member
  apply onBroker.routed sent appended
  simpa [brokerLayout] using subscribed

/-- What the consumer has received starts, for every address, what stands on
the topics. -/
theorem BronzeCall.OnBroker.received_starts
    (onBroker : call.OnBroker settings partitioner) :
    KeyPrefix Sent.address (call.history.received (rawReader settings))
      (brokerLayout.visible (rawReader settings)
        (Layout.appends call.history)) := by
  have follows := follows_received call.history (rawReader settings)
  rintro ⟨topic, key⟩
  cases key with
  | some key => exact received_starts_visible onBroker.legal _ topic key
  | none =>
      have unread : itemsAt Sent.address
          (call.history.received (rawReader settings)) (topic, none) = [] := by
        apply itemsAt_eq_nil
        intro sent received here
        obtain ⟨valid, _, _, keyed⟩ := onBroker.visible_routed sent
          (follows.received_subperm.subset received)
        have unkeyed : sent.key = none := congrArg Prod.snd here
        rw [unkeyed] at keyed
        cases keyed
      rw [unread]
      exact List.nil_prefix

/-- The rows the drain was given start those of the topics in every
directory. -/
theorem BronzeCall.OnBroker.delivered_starts
    (onBroker : call.OnBroker settings partitioner) :
    KeyPrefix bronzePartition
      ((delivered call.script.turns).map RawMessage.value)
      (call.logged settings) := by
  have starts := onBroker.received_starts
  have rows : (delivered call.script.turns).map RawMessage.value =
      (call.history.received (rawReader settings)).filterMap Sent.row? := by
    rw [onBroker.turns, List.map_filterMap]
    rfl
  have located : ∀ sent ∈ brokerLayout.visible (rawReader settings)
      (Layout.appends call.history), ∀ row, sent.row? = some row →
        sent.address = addressOf settings (bronzePartition row) := by
    intro sent member row seen
    exact (onBroker.visible_routed sent member).row seen
  rw [rows]
  exact starts.filterMap located

/-- A drain of routed records decodes every message. -/
theorem BronzeCall.OnBroker.decodes
    (onBroker : call.OnBroker settings partitioner) :
    (call.script.rows call.drain 3).mapM bronzeRow =
      .ok ((call.script.rows call.drain 3).map RawMessage.value) := by
  apply mapM_bronzeRow
  intro message member
  have given := (call.script.rows_initial call.drain 3).subset member
  rw [onBroker.turns] at given
  obtain ⟨sent, received, seen⟩ := List.mem_filterMap.mp given
  have visible := (follows_received call.history
    (rawReader settings)).received_subperm.subset received
  obtain ⟨valid, body, _, key⟩ := onBroker.visible_routed sent visible
  simp only [Sent.raw?, body, key, Option.some.injEq] at seen
  exact ⟨valid, by rw [← seen]⟩

theorem BronzeCall.OnBroker.bronze_eq
    (onBroker : call.OnBroker settings partitioner) (dest : List BronzeRow) :
    call.bronze dest = .ok (landRows false true
      ((call.script.rows call.drain 3).map RawMessage.value) dest) := by
  apply writeBronzeAt_eq_ok_iff.mpr
  exact ⟨_, onBroker.decodes, rfl⟩

/-- The rows of the drain start those of the topics in every directory. -/
theorem BronzeCall.OnBroker.rows_start
    (onBroker : call.OnBroker settings partitioner) :
    KeyPrefix bronzePartition
      ((call.script.rows call.drain 3).map RawMessage.value)
      (call.logged settings) := by
  have drained := (call.script.rows_initial call.drain 3).map RawMessage.value
  exact (KeyPrefix.of_prefix drained).trans onBroker.delivered_starts

/-- A call keeps the dataset a start of the topics. -/
theorem BronzeCall.OnBroker.bronze_starts
    (onBroker : call.OnBroker settings partitioner)
    (starts : KeyPrefix bronzePartition dest (call.logged settings)) :
    ∃ landed, call.bronze dest = .ok landed ∧
      KeyPrefix bronzePartition landed.2 (call.logged settings) := by
  refine ⟨_, onBroker.bronze_eq dest, ?_⟩
  simp only [landRows]
  split
  · exact starts
  · exact onBroker.rows_start

/-- A whole call leaves all of it. -/
theorem BronzeCall.OnBroker.bronze_whole
    (onBroker : call.OnBroker settings partitioner)
    (whole : call.Whole settings)
    (starts : KeyPrefix bronzePartition dest (call.logged settings))
    {landed : Nat × List BronzeRow} (ran : call.bronze dest = .ok landed) :
    SameKeyOrder bronzePartition landed.2 (call.logged settings) := by
  have follows := follows_received call.history (rawReader settings)
  have all : call.script.rows call.drain 3 = delivered call.script.turns := by
    apply (call.script.rows_initial call.drain 3).eq_of_length
    exact (call.script.rows_length_iff call.drain 3).mpr whole.uncut
  have perm : ((call.script.rows call.drain 3).map RawMessage.value).Perm
      (call.logged settings) := by
    rw [all, onBroker.turns, List.map_filterMap]
    exact (follows.received_perm whole.caughtUp).filterMap _
  have same : SameKeyOrder bronzePartition
      ((call.script.rows call.drain 3).map RawMessage.value)
      (call.logged settings) := by
    apply SameKeyOrder.of_sublists _ perm
    intro selected
    exact (onBroker.rows_start selected).sublist
  rw [onBroker.bronze_eq] at ran
  cases ran
  simp only [landRows]
  split
  · rename_i empty
    rw [List.isEmpty_iff] at empty
    rw [empty] at perm
    have nothing := perm.symm.eq_nil
    rw [nothing] at starts ⊢
    have fresh : dest = [] := List.eq_nil_of_subset_nil starts.subset
    rw [fresh]
    exact SameKeyOrder.refl []
  · exact same

end Call

/-- Rows that join bronze take no window from gold, unless they bring a copy of
a trade in another minute. -/
private theorem goldKeys_grow {rows other : List BronzeRow}
    (part : rows ⊆ other)
    (share : CopiesShareMinute other) {gold newer : List GoldRow}
    (built : GoldOf rows gold) (rebuilt : GoldOf other newer) :
    gold.map (fun row => row.key) ⊆ newer.map (fun row => row.key) := by
  have old := (goldOf_perm (List.Perm.refl rows) built
    (goldOf_goldWindowMetrics rows)).map (fun row => row.key)
  have new := (goldOf_perm (List.Perm.refl other) rebuilt
    (goldOf_goldWindowMetrics other)).map (fun row => row.key)
  intro grain member
  obtain ⟨size, sizeMember, present⟩ := mem_goldKeys.mp (old.subset member)
  apply new.mem_iff.mpr
  refine mem_goldKeys.mpr ⟨size, sizeMember, ?_⟩
  rcases present with ⟨trade, tradeMember, rfl⟩ | ⟨ticker, tickerMember, rfl⟩
  · obtain ⟨row, rowMember, valid⟩ :=
      mem_validTrades.mp (silverTrades_subset tradeMember)
    have joined : trade ∈ validTrades other :=
      mem_validTrades.mpr ⟨row, part rowMember, valid⟩
    simp only [grainOf]
    rcases share.covered trade joined with
      ⟨kept, keptMember, sameSymbol, sameMinute⟩ |
      ⟨ticker, tickerMember, sameSymbol, sameMinute⟩
    · refine Or.inl ⟨kept, keptMember, ?_⟩
      rw [sameSymbol, windowStart_of_minute sameMinute sizeMember]
    · refine Or.inr ⟨ticker, tickerMember, ?_⟩
      rw [sameSymbol, windowStart_of_minute sameMinute sizeMember]
  · obtain ⟨row, rowMember, valid⟩ := mem_silverTicker.mp tickerMember
    exact Or.inr ⟨ticker, mem_silverTicker.mpr ⟨row, part rowMember, valid⟩,
      rfl⟩

section Session

variable {settings : Settings} {partitioner : String → String → Nat}
  {calls : List BronzeCall} {call : BronzeCall}

theorem BronzeCall.Grows.logged {earlier later : BronzeCall}
    (grows : earlier.Grows later) (settings : Settings) :
    earlier.logged settings <+: later.logged settings :=
  (grows.filter _).filterMap _

theorem BronzeCall.session_concat (calls : List BronzeCall) (call : BronzeCall)
    (dest : List BronzeRow) :
    session (calls ++ [call]) dest =
      (session calls dest).bind (fun before =>
        (call.bronze before).map Prod.snd) := by
  simp only [session, List.foldlM_append]
  apply congrArg
  funext before
  simp only [List.foldlM_cons, List.foldlM_nil, bind, Except.bind, pure,
    Except.pure, Except.map]
  cases call.bronze before <;> rfl

/-- From an empty dataset, no call fails, and what the calls leave starts what
stands on the topics for the next one. -/
theorem BronzeCall.session_starts
    (onBroker : ∀ each ∈ calls ++ [call], each.OnBroker settings partitioner)
    (grows : (calls ++ [call]).IsChain BronzeCall.Grows) :
    ∃ before, session calls [] = .ok before ∧
      KeyPrefix bronzePartition before (call.logged settings) := by
  induction calls using List.reverseRecOn generalizing call with
  | nil => exact ⟨[], rfl, KeyPrefix.nil _⟩
  | append_singleton calls previous induction =>
      obtain ⟨chain, _, joined⟩ := List.isChain_append.mp grows
      have longer : previous.Grows call := joined previous (by simp) call rfl
      have earlier : ∀ each ∈ calls ++ [previous],
          each.OnBroker settings partitioner :=
        fun each member => onBroker each (List.mem_append_left _ member)
      obtain ⟨before, ran, starts⟩ := induction earlier chain
      obtain ⟨landed, went, still⟩ :=
        (earlier previous (by simp)).bronze_starts starts
      refine ⟨landed.2, ?_, ?_⟩
      · rw [session_concat, ran]
        simp only [Except.bind]
        rw [went]
        rfl
      · exact still.trans (KeyPrefix.of_prefix (longer.logged settings))

/-- However the calls of the `bronze` command fall among the writes of the live
producer, none fails and every directory of the dataset starts what was
published for it, so two states of the dataset never disagree.  After a call
that read and drained everything the dataset holds all of it, no less than
before, and gold has no fewer windows unless copies of a trade lie in different
minutes. -/
theorem live_bronze_starts_topics
    (onBroker : ∀ each ∈ calls ++ [call], each.OnBroker settings partitioner)
    (grows : (calls ++ [call]).IsChain BronzeCall.Grows) :
    ∃ before count after,
      BronzeCall.session calls [] = .ok before ∧
      call.bronze before = .ok (count, after) ∧
      KeyPrefix bronzePartition after (call.logged settings) ∧
      (∀ selected,
        itemsAt bronzePartition before selected <+:
            itemsAt bronzePartition after selected ∨
          itemsAt bronzePartition after selected <+:
            itemsAt bronzePartition before selected) ∧
      (call.Whole settings →
        SameKeyOrder bronzePartition after (call.logged settings) ∧
        KeyPrefix bronzePartition before after ∧
        (CopiesShareMinute (call.logged settings) →
          ∀ gold newer, GoldOf before gold → GoldOf after newer →
            gold.map (fun row => row.key) ⊆
              newer.map (fun row => row.key))) := by
  obtain ⟨before, ran, starts⟩ := BronzeCall.session_starts onBroker grows
  have last : call.OnBroker settings partitioner := onBroker call (by simp)
  obtain ⟨⟨count, after⟩, went, still⟩ := last.bronze_starts starts
  refine ⟨before, count, after, ran, went, still, starts.comparable still, ?_⟩
  intro whole
  have same := last.bronze_whole whole starts went
  have part := starts.trans same.symm.keyPrefix
  refine ⟨same, part, ?_⟩
  intro share gold newer built rebuilt
  have inside : after ⊆ call.logged settings := same.perm.subset
  exact goldKeys_grow part.subset (share.of_subset inside) built rebuilt

end Session

def liveRaw (event : MarketEvent Rat) : RawMessage :=
  ⟨topicForEvent {} event, event.key, event⟩

/-- A record of the live producer. -/
def liveSent (event : MarketEvent Rat) : Sent :=
  ⟨.canonical, topicForEvent {} event, some event.key,
    samplePartitioner (topicForEvent {} event) event.key, .event event⟩

def liveCall (written read : List (MarketEvent Rat)) : BronzeCall where
  drain := 15
  script := drainOf (read.map liveRaw)
  history := (written.map liveSent).map .append ++
    fetches (rawReader sampleSettings) (read.map liveSent)

theorem liveCall_appends (written read : List (MarketEvent Rat)) :
    Layout.appends (liveCall written read).history = written.map liveSent := by
  simp [liveCall, Layout.appends, fetches]

theorem liveCall_onBroker {written read : List (MarketEvent Rat)}
    (accepted : ∀ event ∈ written, event.ofJson.basicContract = .ok ())
    (fetched : (((liveCall written read).history.received
      (rawReader sampleSettings)).filterMap Sent.raw?) = read.map liveRaw) :
    (liveCall written read).OnBroker sampleSettings samplePartitioner := by
  refine ⟨?_, ?_, ?_⟩
  · intro sent member
    rw [liveCall_appends] at member
    obtain ⟨event, _, rfl⟩ := List.mem_map.mp member
    refine ⟨?_, ?_, ?_⟩
    · simp only [liveSent, Writer.topics, Topics.all, topicForEvent]
      split <;> simp
    · intro key same
      cases same
      rfl
    · intro value same
      cases same
      rfl
  · intro sent member _
    rw [liveCall_appends] at member
    obtain ⟨event, written, rfl⟩ := List.mem_map.mp member
    refine ⟨⟨event.ofJson, accepted event written⟩, ?_, ?_, ?_⟩
    · simp only [liveSent, toJsonBytes_ofJson]
    · simp only [liveSent, toJsonBytes_ofJson, sampleSettings]
    · simp only [liveSent, toJsonBytes_ofJson]
  · rw [fetched]
    exact delivered_drainOf _

def otherTrade : MarketEvent Rat :=
  { sampleTrade "4" 20 3 1 with symbol := "DOGE-USD" }

/-- The call ends after one of two records. -/
def earlyCall : BronzeCall :=
  liveCall [sampleTrade "1" 5 100 1, otherTrade] [sampleTrade "1" 5 100 1]

/-- The call reads all three records, the later partition first. -/
def wholeCall : BronzeCall :=
  liveCall [sampleTrade "1" 5 100 1, otherTrade, sampleTrade "3" 70 100 1]
    [otherTrade, sampleTrade "1" 5 100 1, sampleTrade "3" 70 100 1]

private theorem calls_onBroker : ∀ each ∈ [earlyCall] ++ [wholeCall],
    each.OnBroker sampleSettings samplePartitioner := by
  intro each member
  simp only [List.cons_append, List.nil_append, List.mem_cons,
    List.not_mem_nil, or_false] at member
  rcases member with rfl | rfl
  · apply liveCall_onBroker
    · decide +kernel
    · decide +kernel
  · apply liveCall_onBroker
    · decide +kernel
    · decide +kernel

private theorem wholeCall_whole : wholeCall.Whole sampleSettings := by
  refine ⟨?_, ?_⟩
  · apply (follows_received wholeCall.history
      (rawReader sampleSettings)).caughtUp_of_length
    decide +kernel
  · apply (wholeCall.script.rows_length_iff 15 3).mp
    decide +kernel

/-- The dataset grows from one row to three, and the minute of the first trade
stays in gold. -/
theorem live_bronze_starts_topics_sample :
    ∃ before after,
      BronzeCall.session [earlyCall] [] = .ok before ∧
      BronzeCall.session [earlyCall, wholeCall] [] = .ok after ∧
      before.length = 1 ∧ after.length = 3 ∧
      (goldWindowMetrics before).map (fun row => row.key) ⊆
        (goldWindowMetrics after).map (fun row => row.key) := by
  have grows : ([earlyCall] ++ [wholeCall]).IsChain BronzeCall.Grows := by
    simp only [List.cons_append, List.nil_append, List.isChain_cons_cons,
      List.isChain_singleton, and_true, BronzeCall.Grows, earlyCall, wholeCall,
      liveCall_appends]
    exact ⟨[liveSent (sampleTrade "3" 70 100 1)], rfl⟩
  obtain ⟨before, count, after, ran, went, _, _, all⟩ :=
    live_bronze_starts_topics calls_onBroker grows
  obtain ⟨same, _, windows⟩ := all wholeCall_whole
  have first : BronzeCall.session [earlyCall] [] =
      .ok [sampleTrade "1" 5 100 1] := by
    decide +kernel
  have three : (wholeCall.logged sampleSettings).length = 3 := by
    decide +kernel
  have share : CopiesShareMinute (wholeCall.logged sampleSettings) := by
    unfold CopiesShareMinute
    decide +kernel
  refine ⟨before, after, ran, ?_, ?_, ?_, ?_⟩
  · rw [show [earlyCall, wholeCall] = [earlyCall] ++ [wholeCall] from rfl,
      BronzeCall.session_concat, ran]
    simp only [Except.bind, went, Except.map]
  · rw [first] at ran
    cases ran
    rfl
  · rw [same.perm.length_eq, three]
  · exact windows share _ _ (goldOf_goldWindowMetrics before)
      (goldOf_goldWindowMetrics after)

end TickStream
