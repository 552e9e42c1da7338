import TickStream.Library.Fallback
import TickStream.Producer.Frames
import TickStream.Producer.Recording

/-!
# Recording a fixture

`record` tries the exchanges in turn and writes what the first one delivers.
An exchange whose stream raises before the message budget is reached counts as
failed, with all it had delivered.  What a socket delivers within the time is a
parameter, and so is the clock.
-/

namespace TickStream

open Python Library

/-- The arguments of `record` and what it is given from outside.  The socket of
an exchange ends without a failure when the time is up. -/
structure Recorder where
  settings : Settings
  requested : Option String := none
  maxMessages : Option Int := none
  fallback : Bool := true
  clock : String → Nat → Instant
  sockets : String → Socket
  decoder : Decoder
  codec : FixtureCodec

/-- The field `channel` of a recorded message. -/
def channelField : Json → Result (Option String)
  | .null => .ok none
  | .str name => .ok (some name)
  | _ => raise .validationError "channel: Input should be a valid string"

/-- What a frame adds to a recording. -/
def captureFrame (client : Client) (decoder : Decoder) (raw : Bytes) :
    Result (Option (Option String × List (String × Json))) := do
  match ← client.frame decoder raw with
  | none => return none
  | some (channel, payload) =>
      let name ← channelField channel
      return some (name, payload.members)

namespace Recorder

variable (recorder : Recorder)

/-- `exchange or settings.source.exchange`. -/
def primary : String :=
  match recorder.requested with
  | none => recorder.settings.source.exchange
  | some name =>
      if name = "" then recorder.settings.source.exchange else name

def candidates : List String :=
  recorder.primary ::
    if recorder.fallback then
      recorder.settings.source.exchanges.keys.filter
        (fun name => name ≠ recorder.primary)
    else []

/-- What the stream of an exchange yields, and what it raises at its end. -/
def stream (name : String) :
    List (Option String × List (String × Json)) × Option Exc :=
  readFrames (captureFrame (clientOf name) recorder.decoder)
    (recorder.sockets name).failure (recorder.sockets name).frames

/-- `_record_once`, with its client. -/
def once (name : String) : Result (List RecordedMessage) := do
  Service.buildClient recorder.settings name
  recordOnce name recorder.maxMessages (recorder.clock name)
    (recorder.stream name).2 (recorder.stream name).1

/-- One turn of the loop; an empty capture is passed over. -/
def tryRecord (name : String) : Result (Option (List RecordedMessage)) := do
  let messages ← recorder.once name
  return if messages = [] then none else some messages

def nothingRecorded : Exc :=
  ⟨.runtimeError,
    "recording produced no messages from any configured exchange"⟩

/-- `record`: the fixture afterwards, and what is returned. -/
def record (file : Option Bytes) : Option Bytes × Result (String × Nat) :=
  match firstSuccess recorder.tryRecord none recorder.candidates with
  | .ok (name, messages) =>
      let (content, outcome) := recorder.codec.writeFixture messages
      (some content, (fun count => (name, count)) <$> outcome)
  | .error (some failure) => (file, .error failure)
  | .error none => (file, .error nothingRecorded)

end Recorder

/-- The messages of a recording, numbered from `count` on. -/
def recordedAt (exchange : String) (clock : Nat → Instant) (count : Nat)
    (items : List (Option String × List (String × Json))) :
    List RecordedMessage :=
  (items.zipIdx count).map (fun entry =>
    { seq := entry.2
      tsRecorded := clock entry.2
      exchange := exchange
      channel := entry.1.1
      payload := entry.1.2 })

section Capture

variable {exchange : String} {maxMessages : Option Int}
  {clock : Nat → Instant} {failure : Option Exc}
  {stream : List (Option String × List (String × Json))}
  {captured : List RecordedMessage}

/-- The items a recording takes from number `count` on: the whole stream, if it
ends without a failure, or the first ones up to the budget. -/
structure Captures (maxMessages : Option Int) (failure : Option Exc)
    (stream items : List (Option String × List (String × Json)))
    (count : Nat) : Prop where
  first : items <+: stream
  ended : (items = stream ∧ failure = none) ∨
    ∃ budget, maxMessages = some budget ∧ budget ≠ 0 ∧
      budget ≤ ((count + items.length : Nat) : Int)
  within : ∀ budget, maxMessages = some budget → (count : Int) < budget →
    ((count + items.length : Nat) : Int) ≤ budget

theorem budget_reached {count : Nat} :
    maxMessages.any (fun limit => limit ≠ 0 && limit ≤ (count : Int)) = true ↔
      ∃ budget, maxMessages = some budget ∧ budget ≠ 0 ∧
        budget ≤ (count : Int) := by
  cases maxMessages with
  | none => simp
  | some budget => simp

private theorem recordLoop_eq_ok {count : Nat}
    (recorded : recordLoop exchange maxMessages clock failure count stream =
      .ok captured) :
    ∃ items, Captures maxMessages failure stream items count ∧
      captured = recordedAt exchange clock count items := by
  induction stream generalizing count captured with
  | nil =>
      cases failure with
      | none =>
          cases recorded
          refine ⟨[], ⟨List.prefix_refl _, Or.inl ⟨rfl, rfl⟩, ?_⟩, rfl⟩
          intro budget _ below
          exact below.le
      | some raised => cases recorded
  | cons head rest induction =>
      simp only [recordLoop] at recorded
      split at recorded
      · rename_i reached
        cases recorded
        refine ⟨[head], ⟨⟨rest, rfl⟩, Or.inr (budget_reached.mp reached), ?_⟩,
          rfl⟩
        intro budget _ below
        simp only [List.length_singleton]
        omega
      · rename_i unreached
        obtain ⟨others, ran, same⟩ := bind_eq_ok_iff.mp recorded
        cases same
        obtain ⟨items, captures, rfl⟩ := induction ran
        refine ⟨head :: items, ⟨?_, ?_, ?_⟩, ?_⟩
        · exact List.cons_prefix_cons.mpr ⟨rfl, captures.first⟩
        · rcases captures.ended with ⟨whole, quiet⟩ |
            ⟨budget, bounded, nonzero, reached⟩
          · exact Or.inl ⟨by rw [whole], quiet⟩
          · refine Or.inr ⟨budget, bounded, nonzero, ?_⟩
            simp only [List.length_cons]
            omega
        · intro budget bounded below
          have next : ((count + 1 : Nat) : Int) < budget := by
            by_contra above
            exact unreached (budget_reached.mpr
              ⟨budget, bounded, by omega, not_lt.mp above⟩)
          have rest := captures.within budget bounded next
          simp only [List.length_cons]
          omega
        · simp only [recordedAt, List.zipIdx_cons, List.map_cons]

end Capture

namespace Recorder

variable {recorder : Recorder} {name : String}
  {messages : List RecordedMessage}

private theorem tryRecord_eq_some :
    recorder.tryRecord name = .ok (some messages) ↔
      recorder.once name = .ok messages ∧ messages ≠ [] := by
  simp only [tryRecord, bind_eq_ok_iff]
  constructor
  · intro tried
    obtain ⟨captured, ran, same⟩ := tried
    by_cases empty : captured = []
    · rw [if_pos empty] at same
      cases same
    · rw [if_neg empty] at same
      cases same
      exact ⟨ran, empty⟩
  · intro delivered
    exact ⟨messages, delivered.1, by rw [if_neg delivered.2]; rfl⟩

/-- What an exchange delivers are the first items of its stream. -/
private theorem once_eq_ok (ran : recorder.once name = .ok messages) :
    ∃ items, Captures recorder.maxMessages (recorder.stream name).2
        (recorder.stream name).1 items 0 ∧
      messages = recordedAt name (recorder.clock name) 0 items := by
  obtain ⟨_, _, recorded⟩ := bind_eq_ok_iff.mp ran
  exact recordLoop_eq_ok recorded

end Recorder

/-- The fixture holds exactly what the first exchange delivered that delivered
anything, be it its whole stream or the first messages up to the budget.
Without such an exchange the fixture stays as it was and the last failure is
raised, or a general one if no exchange failed. -/
theorem record_keeps_first_capture (recorder : Recorder)
    (file : Option Bytes) :
    (∃ earlier name later items,
      recorder.candidates = earlier ++ name :: later ∧
      (∀ other ∈ earlier, Fruitless recorder.tryRecord other) ∧
      items ≠ [] ∧ Captures recorder.maxMessages (recorder.stream name).2
        (recorder.stream name).1 items 0 ∧
      let messages := recordedAt name (recorder.clock name) 0 items
      (recorder.record file).1 =
        some (recorder.codec.writeFixture messages).1 ∧
      ((∀ message ∈ messages, recorder.codec.Carries message) →
        (recorder.record file).2 = .ok (name, items.length) ∧
        recorder.codec.readFixture (recorder.codec.writeFixture messages).1 =
          .ok messages)) ∨
    ((∀ name ∈ recorder.candidates, Fruitless recorder.tryRecord name) ∧
      recorder.record file = (file, .error
        ((lastFailure recorder.tryRecord none recorder.candidates).getD
          Recorder.nothingRecorded))) := by
  rcases fruitless_or_delivered recorder.tryRecord recorder.candidates with
    fruitless | ⟨earlier, name, later, messages, split, fruitless, delivered⟩
  · refine Or.inr ⟨fruitless, ?_⟩
    simp only [Recorder.record, firstSuccess_fruitless fruitless]
    cases lastFailure recorder.tryRecord none recorder.candidates with
    | none => rfl
    | some failure => rfl
  · obtain ⟨ran, nonempty⟩ := Recorder.tryRecord_eq_some.mp delivered
    obtain ⟨items, captures, rfl⟩ := Recorder.once_eq_ok ran
    have taken : firstSuccess recorder.tryRecord none recorder.candidates =
        .ok (name, recordedAt name (recorder.clock name) 0 items) := by
      rw [split]
      exact firstSuccess_delivered fruitless delivered
    have size : (recordedAt name (recorder.clock name) 0 items).length =
        items.length := by simp [recordedAt]
    refine Or.inl ⟨earlier, name, later, items, split, fruitless, ?_, captures,
      ?_, ?_⟩
    · intro empty
      subst empty
      exact nonempty rfl
    · simp only [Recorder.record, taken]
    · intro carries
      obtain ⟨wrote, read, _⟩ := fixture_roundTrip carries
      refine ⟨?_, read⟩
      simp only [Recorder.record, taken, wrote, size]
      rfl

end TickStream
