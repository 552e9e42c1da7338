import TickStream.Producer.Service

/-!
# What a payload comes to

Normalization turns a payload into events and rejects.  Every reject is a part
of the payload.  If the rejects can be written, receiving the payload produces
all of both, one after the other.
-/

namespace TickStream

open Python Library

section Dumpable

theorem Listed.dumpable {record item : Json} {name : String}
    (listed : Listed record name item)
    (whole : TickStream.dumpable record = true) :
    TickStream.dumpable item = true := by
  obtain ⟨found, items, got, iterated, member⟩ := listed
  exact dumpable_iterate iterated (dumpable_get got whole rfl) member

/-- A visited record is a part of its payload. -/
theorem Visits.dumpable {room : Room} {exchange : String}
    {symbolMap : Option SymbolMap}
    {tsIngest : Instant} {payload record : Json}
    {body : Result (Option ValidEvent)}
    (visits : Visits room exchange symbolMap tsIngest payload record body)
    (whole : TickStream.dumpable payload = true) :
    TickStream.dumpable record = true := by
  cases visits with
  | trade _ _ listed _ inside => exact inside.dumpable (listed.dumpable whole)
  | badEnvelope _ _ _ => exact whole
  | tick _ _ _ listed inside => exact inside.dumpable (listed.dumpable whole)
  | message _ got _ => exact dumpable_get got whole whole

theorem refused_dumpable {exchange : String} {payload : Payload}
    {tsIngest : Instant} {symbolMap : Option SymbolMap} {log : NormalizeLog}
    (whole : TickStream.dumpable (.obj payload.members) = true)
    (ran : normalizeSafe exchange (.obj payload.members) tsIngest symbolMap =
      .ok log) :
    ∀ reject ∈ log.refused, dumpable reject.2 = true := by
  intro reject member
  obtain ⟨record, failure, visited, same⟩ :=
    ((normalizeSafe_log ran).refused reject).mp member
  rw [same]
  exact visited.dumpable whole

end Dumpable

/-- Payloads with the clock readings of their turns. -/
def readAt (clock : Nat → Instant) (count : Nat) (payloads : List Payload) :
    List (Instant × Payload) :=
  (payloads.zipIdx count).map (fun entry => (clock entry.2, entry.1))

theorem readAt_append (clock : Nat → Instant) (count : Nat)
    (first second : List Payload) :
    readAt clock count (first ++ second) =
      readAt clock count first ++
        readAt clock (count + first.length) second := by
  rw [readAt, List.zipIdx_append, List.map_append]
  rfl

namespace Service

variable (service : Service)

/-- What a payload comes to when it is read at a given time. -/
def emitted (symbolMap : SymbolMap) (receipt : Instant × Payload) :
    List RawMessage :=
  match normalizeSafe service.exchange (.obj receipt.2.members) receipt.1
      (some symbolMap) with
  | .ok log =>
      log.done.map (fun valid => rawMessage service.settings valid.event)
  | .error _ => []

def rejected (symbolMap : SymbolMap) (receipt : Instant × Payload) :
    List QuarantineMessage :=
  match normalizeSafe service.exchange (.obj receipt.2.members) receipt.1
      (some symbolMap) with
  | .ok log =>
      log.refused.map (fun reject =>
        ⟨service.exchange, 0, reject.1, reject.2⟩)
  | .error _ => []

/-- Every reject of the payload can be written. -/
def Written (symbolMap : SymbolMap) (receipt : Instant × Payload) : Prop :=
  ∀ message ∈ service.rejected symbolMap receipt,
    dumpable message.payload = true

/-- What is done with a payload. -/
def payloadActions (symbolMap : SymbolMap) (receipt : Instant × Payload) :
    History :=
  .receive receipt.1 receipt.2 ::
    ((service.rejected symbolMap receipt).map .quarantine ++
      (service.emitted symbolMap receipt).map .produce)

variable {service} {state : ProducerState}

/-- The rejects are parts of the payload. -/
theorem written_of_dumpable {symbolMap : SymbolMap} {tsIngest : Instant}
    {payload : Payload}
    (whole : dumpable (.obj payload.members) = true) :
    service.Written symbolMap (tsIngest, payload) := by
  simp only [Written, rejected]
  split
  · rename_i log ran
    rw [List.forall_mem_map]
    exact refused_dumpable whole ran
  · simp

private theorem quarantineReject_each {rejects : List Reject}
    (written : ∀ reject ∈ rejects, dumpable reject.2 = true) :
    runEach service.quarantineReject state rejects =
      ⟨(rejects.map (fun reject => (⟨service.exchange, 0, reject.1, reject.2⟩ :
        QuarantineMessage))).map .quarantine, state, none⟩ := by
  induction rejects with
  | nil => rfl
  | cons reject rest induction =>
      have first := written reject (by simp)
      have others := induction
        (fun other member => written other (by simp [member]))
      simp only [runEach, quarantineReject, if_pos first, Run.andThen, Run.act,
        others]
      rfl

private theorem produceEvent_each {events : List ValidEvent} :
    runEach service.produceEvent state events =
      ⟨(events.map (fun valid =>
          rawMessage service.settings valid.event)).map .produce,
        { state with
          published := state.published + events.length
          producedThisConn := state.producedThisConn + events.length },
        none⟩ := by
  induction events generalizing state with
  | nil => rfl
  | cons valid rest induction =>
      simp only [runEach, produceEvent, Run.andThen, Run.act, induction,
        List.map_cons, List.length_cons, Nat.add_assoc, Nat.add_comm 1]
      rfl

/-- Receiving a payload on which normalization returns and whose rejects can be
written. -/
theorem receivePayload_eq {symbolMap : SymbolMap} {payload : Payload}
    {log : NormalizeLog}
    (ran : normalizeSafe service.exchange (.obj payload.members)
      (service.clock state.received) (some symbolMap) = .ok log)
    (writes : service.Written symbolMap
      (service.clock state.received, payload)) :
    let receipt := (service.clock state.received, payload)
    let actions := service.payloadActions symbolMap receipt
    let later : ProducerState :=
      { state with
        received := state.received + 1
        published := state.published +
          (service.emitted symbolMap receipt).length
        producedThisConn := state.producedThisConn +
          (service.emitted symbolMap receipt).length }
    service.receivePayload symbolMap state payload =
      if service.limitReached later.published then
        ⟨actions ++ [.flush], later, some (.returned later.published)⟩
      else ⟨actions, later, none⟩ := by
  intro receipt actions later
  have written : ∀ reject ∈ log.refused, dumpable reject.2 = true := by
    simp only [Written, rejected, ran, List.forall_mem_map] at writes
    exact writes
  have size : (service.emitted symbolMap receipt).length = log.done.length := by
    simp only [receipt, emitted, ran, List.length_map]
  simp only [receivePayload, ran, Run.andThen, Run.act, publishPayload,
    quarantineReject_each written, produceEvent_each]
  by_cases reached : service.limitReached later.published = true
  · have reached' := reached
    simp only [later, size] at reached'
    rw [if_pos reached, if_pos reached']
    simp [actions, payloadActions, later, receipt, rejected, emitted, ran,
      Run.stop]
  · have reached' := reached
    simp only [later, size] at reached'
    rw [if_neg reached, if_neg reached']
    simp [actions, payloadActions, later, receipt, rejected, emitted, ran,
      Run.done]

/-- The rule for a connection that ends without another exception than a
disconnect: the invariant holds of the payloads still to come, and a payload
may bring the run to its end. -/
theorem readStream_meets {symbolMap : SymbolMap} {connection : Connection}
    {history : History} (inside : List Payload → History → ProducerState → Prop)
    {exits : History → ProducerState → Exit → Prop}
    (ending : ∀ failure, connection.failure = some failure →
      disconnects failure = true)
    (received : ∀ payload ∈ connection.payloads, ∀ rest history state,
      inside (payload :: rest) history state →
        (service.receivePayload symbolMap state payload).Meets history
          (inside rest) exits)
    (returned : ∀ history state exit, exits history state exit →
      ∃ published, exit = .returned published)
    (flushed : ∀ history state, inside [] history state →
      inside [] (history ++ [.flush]) state)
    (holds : inside connection.payloads history state) :
    ((service.readStream symbolMap connection state).handle onException).Meets
      history (inside []) exits := by
  have loop : (runEach (service.receivePayload symbolMap) state
      connection.payloads).Meets history (inside []) exits :=
    runEach_meets inside received holds
  have stream : (service.readStream symbolMap connection state).Meets history
      (inside []) (fun history state exit => exits history state exit ∨
        ∃ failure, exit = .raised failure ∧ disconnects failure = true ∧
          inside [] history state) := by
    apply (loop.mono (fun _ _ drained => drained)
      (fun _ _ _ ended => Or.inl ended)).andThen
    intro history state drained
    cases failed : connection.failure with
    | none => exact Run.done_meets drained
    | some failure =>
        exact Run.stop_meets
          (Or.inr ⟨failure, rfl, ending failure failed, drained⟩)
  apply stream.handle
  intro history state exit ended
  rcases ended with ended | ⟨failure, same, disconnected, drained⟩
  · obtain ⟨published, same⟩ := returned history state exit ended
    subst same
    exact Run.stop_meets ended
  · subst same
    simp only [onException, if_pos disconnected]
    exact Run.act_meets (flushed history state drained)

end Service

namespace History

variable (first second : History)

@[simp] theorem receipts_append :
    receipts (first ++ second) = first.receipts ++ second.receipts :=
  List.filterMap_append

@[simp] theorem produced_append :
    produced (first ++ second) = first.produced ++ second.produced :=
  List.filterMap_append

@[simp] theorem quarantined_append :
    quarantined (first ++ second) = first.quarantined ++ second.quarantined :=
  List.filterMap_append

@[simp] theorem connections_append :
    connections (first ++ second) = first.connections + second.connections :=
  List.countP_append

theorem standing_append :
    standing (first ++ second) = second.foldl Standing.next first.standing :=
  List.foldl_append

end History

section Payloads

variable {service : Service} {symbolMap : SymbolMap}
  {receipt : Instant × Payload}

@[simp] theorem receipts_payloadActions :
    History.receipts (service.payloadActions symbolMap receipt) =
      [receipt] := by
  simp [History.receipts, Service.payloadActions, Action.receipt?,
    List.filterMap_append, List.filterMap_map, Function.comp_def]

@[simp] theorem produced_payloadActions :
    History.produced (service.payloadActions symbolMap receipt) =
      service.emitted symbolMap receipt := by
  simp [History.produced, Service.payloadActions, Action.produced?,
    List.filterMap_cons, List.filterMap_append, List.filterMap_map,
    Function.comp_def]

@[simp] theorem quarantined_payloadActions :
    History.quarantined (service.payloadActions symbolMap receipt) =
      service.rejected symbolMap receipt := by
  simp [History.quarantined, Service.payloadActions, Action.quarantined?,
    List.filterMap_cons, List.filterMap_append, List.filterMap_map,
    Function.comp_def]

@[simp] theorem connections_payloadActions :
    History.connections (service.payloadActions symbolMap receipt) = 0 := by
  simp [History.connections, Service.payloadActions, List.countP_eq_zero,
    Action.isConnect]

private theorem next_quarantines (standing : Standing)
    (messages : List QuarantineMessage) :
    (messages.map Action.quarantine).foldl Standing.next standing =
      standing := by
  induction messages with
  | nil => rfl
  | cons message rest induction => exact induction

private theorem next_produces (standing : Standing)
    (messages : List RawMessage) :
    (messages.map Action.produce).foldl Standing.next standing =
      if messages = [] then standing
      else
        { standing with
          producing := true
          productive :=
            if standing.producing then standing.productive
            else standing.productive + 1
          sleeps := 0 } := by
  induction messages generalizing standing with
  | nil => rfl
  | cons message rest induction =>
      rw [List.map_cons, List.foldl_cons, induction,
        if_neg (List.cons_ne_nil _ _)]
      split <;> rfl

theorem next_payloadActions (standing : Standing) :
    (service.payloadActions symbolMap receipt).foldl Standing.next standing =
      if service.emitted symbolMap receipt = [] then standing
      else
        { standing with
          producing := true
          productive :=
            if standing.producing then standing.productive
            else standing.productive + 1
          sleeps := 0 } := by
  simp only [Service.payloadActions, List.foldl_cons, List.foldl_append,
    next_quarantines, next_produces, Standing.next]

end Payloads

end TickStream
