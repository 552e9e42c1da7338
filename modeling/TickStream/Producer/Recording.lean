import TickStream.Library.Lines
import TickStream.Library.TryEach
import TickStream.Producer.Dumps
import TickStream.Python.DateTime

/-!
# Recorded streams

A fixture holds one recorded message on a line.  `orjson` writes the messages
and pydantic reads them back; both are parameters here, with what a message
needs of them stated by `FixtureCodec.Carries`.
-/

namespace TickStream

open Python Library

structure RecordedMessage where
  seq : Int
  tsRecorded : Instant
  exchange : String
  channel : Option String := none
  payload : List (String × Json)

/-- `\n`. -/
def newlineByte : UInt8 := 10

/-- The bytes `bytes.strip` takes off. -/
def isBlankByte (byte : UInt8) : Bool :=
  byte = 32 || (9 ≤ byte && byte ≤ 13)

/-- How a message is written to JSON and read from it.  A message that is
written has a payload `orjson` can write. -/
structure FixtureCodec where
  dumps : RecordedMessage → Result Bytes
  modelValidateJson : Bytes → Result RecordedMessage
  writes : ∀ {message text}, dumps message = .ok text →
    dumpable (.obj message.payload) = true

namespace FixtureCodec

variable (codec : FixtureCodec)

/-- The codec writes a message as a JSON object without a raw newline and
reads the same message from it. -/
structure Carries (message : RecordedMessage) : Prop where
  written : ∃ middle : Bytes,
    codec.dumps message = .ok (123 :: (middle ++ [125])) ∧
      newlineByte ∉ middle ∧
        codec.modelValidateJson (123 :: (middle ++ [125])) = .ok message

def toJsonLine (message : RecordedMessage) : Result Bytes := do
  let text ← codec.dumps message
  return text ++ [newlineByte]

def fromJsonLine (line : Bytes) : Result RecordedMessage :=
  codec.modelValidateJson line

/-- Write the messages one after the other from the count `written` on: what
the file holds when the loop ends, and the count it returns. -/
def writeLines : Nat → List RecordedMessage → Bytes × Result Nat
  | written, [] => ([], .ok written)
  | written, message :: rest =>
      match codec.toJsonLine message with
      | .ok line =>
          let (content, outcome) := writeLines (written + 1) rest
          (line ++ content, outcome)
      | .error failure => ([], .error failure)

def writeFixture (messages : List RecordedMessage) : Bytes × Result Nat :=
  codec.writeLines 0 messages

def readLines : List Bytes → Result (List RecordedMessage)
  | [] => .ok []
  | line :: rest =>
      let text := strip isBlankByte line
      if text = [] then readLines rest
      else do
        let message ← codec.fromJsonLine text
        let others ← readLines rest
        return message :: others

def readFixture (content : Bytes) : Result (List RecordedMessage) :=
  codec.readLines (splitLines newlineByte content)

end FixtureCodec

/-- The lines that are not blank. -/
def countFixture (content : Bytes) : Nat :=
  (splitLines newlineByte content).countP
    (fun line => strip isBlankByte line ≠ [])

/-- The messages of a stream from number `count` on.  The stream ends with a
failure, or without one when it is closed or the time is up. -/
def recordLoop (exchange : String) (maxMessages : Option Int)
    (clock : Nat → Instant) (failure : Option Exc) :
    Nat → List (Option String × List (String × Json)) →
      Result (List RecordedMessage)
  | _, [] =>
      match failure with
      | none => .ok []
      | some raised => .error raised
  | count, (channel, payload) :: rest =>
      let message : RecordedMessage :=
        { seq := count
          tsRecorded := clock count
          exchange := exchange
          channel := channel
          payload := payload }
      if maxMessages.any
          (fun limit => limit ≠ 0 && limit ≤ ((count + 1 : Nat) : Int))
      then .ok [message]
      else do
        let others ← recordLoop exchange maxMessages clock failure
          (count + 1) rest
        return message :: others

/-- `_record_once`. -/
def recordOnce (exchange : String) (maxMessages : Option Int)
    (clock : Nat → Instant) (failure : Option Exc)
    (stream : List (Option String × List (String × Json))) :
    Result (List RecordedMessage) :=
  recordLoop exchange maxMessages clock failure 0 stream

section RoundTrip

variable {codec : FixtureCodec}

theorem FixtureCodec.Carries.line {message : RecordedMessage}
    (carries : codec.Carries message) :
    ∃ text, codec.toJsonLine message = .ok (text ++ [newlineByte]) ∧
      Framable newlineByte isBlankByte text ∧
      codec.modelValidateJson text = .ok message := by
  obtain ⟨middle, dumped, fresh, validated⟩ := carries.written
  refine ⟨_, ?_, ⟨?_, ⟨_, middle, _, rfl, by decide, by decide⟩⟩, validated⟩
  · simp only [FixtureCodec.toJsonLine, dumped]
    rfl
  · have notBrace : newlineByte ≠ 123 ∧ newlineByte ≠ 125 := by decide
    simp only [List.mem_cons, List.mem_append, List.not_mem_nil, or_false,
      not_or]
    exact ⟨notBrace.1, fresh, notBrace.2⟩

/-- The texts of the messages a file holds. -/
private theorem writeLines_frame {messages : List RecordedMessage}
    (carries : ∀ message ∈ messages, codec.Carries message) (written : Nat) :
    ∃ texts : List Bytes,
      codec.writeLines written messages =
        (texts.flatMap (fun text => text ++ [newlineByte]),
          .ok (written + messages.length)) ∧
      List.Forall₂ (fun text message =>
        Framable newlineByte isBlankByte text ∧
          codec.modelValidateJson text = .ok message) texts messages := by
  induction messages generalizing written with
  | nil => exact ⟨[], rfl, List.Forall₂.nil⟩
  | cons message rest induction =>
      obtain ⟨texts, wrote, matched⟩ := induction
        (fun other member => carries other (by simp [member])) (written + 1)
      obtain ⟨text, line, framable, validated⟩ :=
        (carries message (by simp)).line
      refine ⟨text :: texts, ?_,
        List.Forall₂.cons ⟨framable, validated⟩ matched⟩
      simp only [FixtureCodec.writeLines, line, wrote, List.flatMap_cons,
        List.length_cons, Nat.add_assoc, Nat.add_comm 1]

private theorem readLines_frame {texts : List Bytes}
    {messages : List RecordedMessage}
    (matched : List.Forall₂ (fun text message =>
      Framable newlineByte isBlankByte text ∧
        codec.modelValidateJson text = .ok message) texts messages) :
    codec.readLines (texts.map (fun text => text ++ [newlineByte])) =
      .ok messages := by
  induction matched with
  | nil => rfl
  | cons head _ induction =>
      obtain ⟨framable, validated⟩ := head
      have stripped := framable.strip_line (by decide)
      simp only [List.map_cons, FixtureCodec.readLines, stripped,
        if_neg framable.ne_nil, FixtureCodec.fromJsonLine, validated,
        induction]
      rfl

private theorem countFixture_frame {texts : List Bytes}
    (framable : ∀ text ∈ texts, Framable newlineByte isBlankByte text) :
    (texts.map (fun text => text ++ [newlineByte])).countP
      (fun line => strip isBlankByte line ≠ []) = texts.length := by
  rw [← List.length_map (fun text => text ++ [newlineByte]),
    List.countP_eq_length]
  intro line member
  obtain ⟨text, textMember, same⟩ := List.mem_map.mp member
  have stripped := (framable text textMember).strip_line (by decide)
  rw [← same, stripped]
  simpa using (framable text textMember).ne_nil

/-- What is written is read back, message by message, and counted. -/
theorem fixture_roundTrip {messages : List RecordedMessage}
    (carries : ∀ message ∈ messages, codec.Carries message) :
    (codec.writeFixture messages).2 = .ok messages.length ∧
      codec.readFixture (codec.writeFixture messages).1 = .ok messages ∧
      countFixture (codec.writeFixture messages).1 = messages.length := by
  obtain ⟨texts, wrote, matched⟩ := writeLines_frame carries 0
  have framable : ∀ text ∈ texts, Framable newlineByte isBlankByte text := by
    intro text member
    obtain ⟨index, within, same⟩ := List.getElem_of_mem member
    have paired := (List.forall₂_iff_get.mp matched).2 index within
      (matched.length_eq ▸ within)
    rw [← same]
    exact paired.1
  have lines : splitLines newlineByte
      (texts.flatMap (fun text => text ++ [newlineByte])) =
        texts.map (fun text => text ++ [newlineByte]) :=
    splitLines_frame (fun text member => (framable text member).fresh)
  simp only [FixtureCodec.writeFixture, wrote, Nat.zero_add,
    FixtureCodec.readFixture, countFixture, lines, true_and]
  exact ⟨readLines_frame matched,
    (countFixture_frame framable).trans matched.length_eq⟩

end RoundTrip

end TickStream
