import TickStream.Dbt.Tests
import TickStream.Library.DrainLoop
import TickStream.Producer.Replay
import TickStream.Quality.Sla

/-!
# The sinks of the lake

Three drains land a topic in the lake: quarantine records, bronze rows and
window rows.  A drain that saw nothing leaves bronze and windows as they were.
The row cap of `write_bronze`, which the pipeline does not set, is left out.
-/

namespace TickStream

open Python Library

/-- What a drain meets: the clock when its two limits are set, in seconds, and
then its turns. -/
structure DrainScript (α : Type) where
  deadlineFrom : Rat
  idleFrom : Rat
  turns : List (Turn Rat α)

namespace DrainScript

variable {α : Type} (script : DrainScript α) (timeout idle : Rat)

def limits : Limits Rat := ⟨script.deadlineFrom + timeout, idle⟩

def rows : List α :=
  drain (script.limits timeout idle) (script.idleFrom + idle) script.turns

/-- The drain is not ended before the last message. -/
def Uncut : Prop :=
  StaysOpen (script.limits timeout idle) (script.idleFrom + idle) script.turns

theorem rows_length_iff :
    (script.rows timeout idle).length = (delivered script.turns).length ↔
      script.Uncut timeout idle :=
  drain_length_iff _ _

theorem rows_initial :
    script.rows timeout idle <+: delivered script.turns :=
  drain_initial _ _ _

end DrainScript

/-- The datasets on disk. -/
structure Lake where
  quarantine : List QuarantineMessage
  bronze : List BronzeRow
  windows : List (WindowRecord Rat)

/-- `land_quarantine`, with the rows of the drain and the cleared lake. -/
def landQuarantine (script : DrainScript QuarantineMessage) (lake : Lake) :
    Nat × Lake :=
  let rows := script.rows 15 3
  (rows.length, { lake with quarantine := rows })

/-- The row of a decoded event.  Its numbers come from JSON and are finite. -/
def bronzeRow (message : RawMessage) : Result BronzeRow := do
  let valid ← MarketEvent.fromJsonBytes message.value
  return valid.event.toJsonBytes

def writeBronze (script : DrainScript RawMessage) (lake : Lake) :
    Result (Nat × Lake) := do
  let rows ← (script.rows 30 3).mapM bronzeRow
  if rows.isEmpty then return (0, lake)
  else return (rows.length, { lake with bronze := rows })

def landWindows (script : DrainScript (WindowRecord Rat)) (lake : Lake) :
    Nat × Lake :=
  let rows := script.rows 30 3
  if rows.isEmpty then (0, lake)
  else (rows.length, { lake with windows := rows })

/-- The message is the record of an accepted event. -/
def IsPublished (message : RawMessage) : Prop :=
  ∃ valid : ValidEvent, message.value = valid.event.toJsonBytes

private theorem toJson_fin_roundtrip (field : Option Rat) :
    (field.map PyFloat.fin).bind PyFloat.toJson = field := by
  cases field <;> rfl

theorem toJsonBytes_ofJson (record : MarketEvent Rat) :
    record.ofJson.toJsonBytes = record := by
  simp only [MarketEvent.ofJson, MarketEvent.toJsonBytes, toJson_fin_roundtrip]

private theorem bronzeRow_published {message : RawMessage}
    (published : IsPublished message) :
    bronzeRow message = .ok message.value := by
  obtain ⟨valid, same⟩ := published
  obtain ⟨decoded, decodes, event⟩ :=
    MarketEvent.fromJsonBytes_toJsonBytes valid
  simp only [bronzeRow]
  rw [same, decodes]
  change Except.ok decoded.event.toJsonBytes = _
  rw [event, toJsonBytes_ofJson]

theorem mapM_bronzeRow {messages : List RawMessage}
    (published : ∀ message ∈ messages, IsPublished message) :
    messages.mapM bronzeRow = .ok (messages.map RawMessage.value) := by
  induction messages with
  | nil => rfl
  | cons message rest induction =>
      rw [List.mapM_cons, bronzeRow_published (published message (by simp)),
        induction (fun other member => published other (by simp [member]))]
      rfl

/-- What a drain of published records writes to bronze. -/
theorem writeBronze_eq {script : DrainScript RawMessage}
    (published : ∀ message ∈ delivered script.turns, IsPublished message)
    (lake : Lake) :
    writeBronze script lake =
      .ok ((script.rows 30 3).length,
        if (script.rows 30 3).isEmpty then lake
        else { lake with bronze := (script.rows 30 3).map RawMessage.value }) := by
  have decoded : (script.rows 30 3).mapM bronzeRow =
      .ok ((script.rows 30 3).map RawMessage.value) := mapM_bronzeRow
    (fun message member =>
      published message ((script.rows_initial 30 3).subset member))
  simp only [writeBronze]
  rw [decoded]
  cases script.rows 30 3 with
  | nil => rfl
  | cons message rest => simp [bind, Except.bind, pure, Except.pure]

/-- Everything a replay puts on the raw topics is the message of an accepted
event. -/
theorem replayLoop_rawMessage (settings : Settings) (limit : Option Int)
    (clock : Nat → Instant) (count : Nat) (fixture : List RecordedMessage) :
    ∀ message ∈ (replayLoop settings limit clock count fixture).raw,
      ∃ valid : ValidEvent, message = rawMessage settings valid.event := by
  have one : ∀ (tsIngest : Instant) (recorded : RecordedMessage),
      ∀ message ∈ (replayMessage settings tsIngest recorded).raw,
        ∃ valid : ValidEvent, message = rawMessage settings valid.event := by
    intro tsIngest recorded message member
    simp only [replayMessage] at member
    cases ran : normalizeMessage settings tsIngest recorded with
    | error failure =>
        rw [ran] at member
        cases member
    | ok log =>
        rw [ran] at member
        dsimp only [publishLog] at member
        split at member
        · obtain ⟨valid, _, same⟩ := List.mem_map.mp member
          exact ⟨valid, same.symm⟩
        · cases member
  induction fixture generalizing count with
  | nil =>
      intro message member
      cases member
  | cons recorded rest induction =>
      intro message member
      simp only [replayLoop] at member
      split_ifs at member
      · cases member
      · simp only [ReplayRun.andThen] at member
        split at member
        · rcases List.mem_append.mp member with now | later
          · exact one _ _ message now
          · exact induction _ message later
        · exact one _ _ message member

/-- Everything a replay puts on the raw topics is published. -/
theorem replayLoop_published (settings : Settings) (limit : Option Int)
    (clock : Nat → Instant) (count : Nat) (fixture : List RecordedMessage) :
    ∀ message ∈ (replayLoop settings limit clock count fixture).raw,
      IsPublished message := by
  intro message member
  obtain ⟨valid, same⟩ := replayLoop_rawMessage settings limit clock count
    fixture message member
  exact ⟨valid, by rw [same]; rfl⟩

end TickStream
