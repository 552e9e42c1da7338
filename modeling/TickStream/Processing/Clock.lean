import TickStream.Processing.Finality
import TickStream.Processing.Refinement

/-!
# The processor in doubles

The source reads event times as milliseconds of doubles, writes window bounds
back as datetimes and stops at the first record it cannot build.  Windows,
graces and watermarks only ask which whole seconds have been reached, so it
emits what the exact processor emits on the readings of the messages.
-/

namespace TickStream

open Python Library

/-- A message with its event time in milliseconds. -/
structure Timed (α : Type) where
  item : α
  time : Int

/-- `timedelta(seconds=n)`. -/
def timedelta (seconds : Nat) : Result Nat :=
  let days := seconds / 86400
  if days < 10 ^ 9 then .ok seconds
  else if days < 2 ^ 31 then
    raise .overflowError
      ("days=" ++ toString days ++ "; must have magnitude <= 999999999")
  else raise .overflowError "Python int too large to convert to C int"

theorem timedelta_eq_ok_iff {seconds grace : Nat} :
    timedelta seconds = .ok grace ↔
      seconds < 86400 * 10 ^ 9 ∧ grace = seconds := by
  simp only [timedelta]
  by_cases fits : seconds / 86400 < 10 ^ 9
  · rw [if_pos fits, Except.ok.injEq]
    constructor
    · intro same
      exact ⟨by omega, same.symm⟩
    · intro same
      exact same.2.symm
  · rw [if_neg fits]
    constructor
    · intro returned
      split_ifs at returned <;> cases returned
    · intro small
      omega

namespace Double

section Messages

variable {F : Type}

/-- `_extract_ts`. -/
def extractTs (value : MarketEvent F) : Result Int :=
  timestampMillis value.tsEvent

def timed (value : MarketEvent F) : Result (Timed (MarketEvent F)) := do
  let time ← extractTs value
  return ⟨value, time⟩

/-- The events that reach their window before it has expired. -/
def withoutLate (secs graceSeconds : Nat) (events : List (MarketEvent F)) :
    Result (List (MarketEvent F)) := do
  let messages ← events.mapM timed
  let onTime := (tumblingWindow
    (fun message : Timed (MarketEvent F) => message.item.key) Timed.time
    secs graceSeconds () (fun _ _ => ())).onTime messages
  return onTime.map Timed.item

end Messages

section Topic

variable {F C β : Type} (topic : Topic F C β) (graceSeconds : Nat)

/-- What the dataframe holds for a message. -/
def timedRow (value : MarketEvent F) : Result (Timed (Row F C)) := do
  let time ← extractTs value
  let columns ← topic.columns value
  return ⟨⟨value, columns⟩, time⟩

/-- The record of a closed window, with its bounds as datetimes. -/
def finalize (size : String × Nat) (window : String × Int) (agg : β) :
    Result (WindowRecord F) := do
  let opening ← msToIso window.2
  let closing ← msToIso (window.2 + 1000 * size.2)
  let record :=
    topic.finalize size.1 window.1 window.2 (window.2 + 1000 * size.2) agg
  return { record with
    metrics := { record.metrics with
      windowStart := opening, windowEnd := closing } }

def branch (size : String × Nat) :
    Branch (Timed (Row F C)) String β (Result (WindowRecord F)) where
  fold := tumblingWindow (fun message => message.item.value.key) Timed.time
    size.2 graceSeconds topic.init
    (fun agg message => topic.step agg message.item.columns)
  finalize := finalize topic size

def branches :
    List (Branch (Timed (Row F C)) String β (Result (WindowRecord F))) :=
  windowSizes.map (branch topic graceSeconds)

/-- Emit records before going on; the first that cannot be built stops the
processor. -/
def emitThen :
    List (Result (WindowRecord F)) → Outcome F → Outcome F
  | [], later => later
  | .error failure :: _, _ => ⟨[], some failure⟩
  | .ok record :: rest, later =>
      let next := emitThen rest later
      ⟨record :: next.emitted, next.stopped⟩

def runFrom (states : List (WindowedFold.State String β)) :
    List (MarketEvent F) → Outcome F
  | [] => ⟨[], none⟩
  | value :: rest =>
      match timedRow topic value with
      | .error failure => ⟨[], some failure⟩
      | .ok message =>
          let next :=
            Branch.receiveAll (branches topic graceSeconds) states message
          emitThen next.2 (runFrom next.1 rest)

/-- Build the pipeline of a topic, and process its messages in order. -/
def run (values : List (MarketEvent F)) : Result (Outcome F) := do
  let grace ← timedelta graceSeconds
  return runFrom topic grace
    ((branches topic grace).map (fun _ => WindowedFold.State.initial)) values

end Topic

end Double

section Time

variable {F : Type} {event : MarketEvent F}

private theorem extractTs_reaches_iff (afterEpoch : 0 ≤ event.tsEvent)
    (second : Int) :
    1000 * second ≤ extractTs event ↔
      second * microsPerSecond ≤ event.tsEvent := by
  rw [le_extractTs_iff afterEpoch]
  have sameInstant : msToIso (1000 * second) = second * microsPerSecond := by
    simp only [msToIso, microsPerSecond]
    ring
  rw [sameInstant]

/-- A whole second of the datetimes is written exactly. -/
theorem msToIso_double {second : Int}
    (lower : minInstant ≤ msToIso (1000 * second))
    (upper : msToIso (1000 * second) ≤ maxInstant) :
    Double.msToIso (1000 * second) = .ok (msToIso (1000 * second)) := by
  have sameInstant : msToIso (1000 * second) = second * microsPerSecond := by
    simp only [msToIso, microsPerSecond]
    ring
  rw [sameInstant] at lower upper ⊢
  exact msToIso_second lower upper

/-- Windows start at whole seconds. -/
theorem windowStartMs_eq (ms : Int) (secs : Nat) :
    ms - ms % (1000 * secs) = 1000 * (ms / 1000 / secs * secs) := by
  rw [Int.ediv_ediv_of_nonneg (by decide), Int.emod_def]
  ring

/-- The window lies in the years datetimes have. -/
structure InYears (secs : Nat) (event : MarketEvent F) : Prop where
  opening : minInstant ≤ (windowBounds event.tsEvent secs).1
  closing : (windowBounds event.tsEvent secs).2 ≤ maxInstant

instance (secs : Nat) (event : MarketEvent F) :
    Decidable (InYears secs event) :=
  decidable_of_iff
    (minInstant ≤ (windowBounds event.tsEvent secs).1 ∧
      (windowBounds event.tsEvent secs).2 ≤ maxInstant)
    ⟨fun inside => ⟨inside.1, inside.2⟩,
      fun inside => ⟨inside.opening, inside.closing⟩⟩

/-- The bounds of such a window are written as the reference has them. -/
theorem InYears.bounds {secs : Nat} (inside : InYears secs event)
    (afterEpoch : 0 ≤ event.tsEvent) :
    Double.msToIso (extractTs event - extractTs event % (1000 * secs)) =
        .ok (windowBounds event.tsEvent secs).1 ∧
      Double.msToIso
          (extractTs event - extractTs event % (1000 * secs) + 1000 * secs) =
        .ok (windowBounds event.tsEvent secs).2 := by
  have room : (0 : Int) ≤ secs * microsPerSecond := by
    have positive := microsPerSecond_pos
    positivity
  have width := windowBounds_snd_eq event.tsEvent secs
  have lower := inside.opening
  have upper := inside.closing
  have opening := windowBounds_fst_eq_msToIso afterEpoch secs
  have closing := windowBounds_snd_eq_msToIso afterEpoch secs
  rw [← opening, windowBounds_start] at closing
  have whole := windowStartMs_eq (extractTs event) secs
  generalize extractTs event / 1000 / secs * secs = second at whole
  rw [whole] at opening closing ⊢
  have next : 1000 * second + 1000 * secs = 1000 * (second + secs) := by ring
  rw [next] at closing ⊢
  rw [opening] at lower width ⊢
  rw [closing] at upper width ⊢
  have ordered : msToIso (1000 * second) ≤ msToIso (1000 * (second + secs)) := by
    linarith
  exact ⟨msToIso_double lower (ordered.trans upper),
    msToIso_double (lower.trans ordered) upper⟩

/-- Where a window starts depends on the whole seconds reached only. -/
private theorem windowStartMs_congr {left right : Int} (secs : Nat)
    (sameSeconds : ∀ second : Int,
      1000 * second ≤ left ↔ 1000 * second ≤ right) :
    left - left % (1000 * secs) = right - right % (1000 * secs) := by
  have seconds : left / 1000 = right / 1000 := by
    apply eq_of_forall_le_iff
    intro second
    rw [Int.le_ediv_iff_mul_le (by decide), Int.le_ediv_iff_mul_le (by decide),
      Int.mul_comm second, sameSeconds]
  rw [windowStartMs_eq, windowStartMs_eq, seconds]

/-- An event from the epoch to the end of the datetimes. -/
structure Datable (event : MarketEvent F) : Prop where
  afterEpoch : 0 ≤ event.tsEvent
  inRange : inDatetimeRange event.tsEvent = true

instance (event : MarketEvent F) : Decidable (Datable event) :=
  decidable_of_iff
    (0 ≤ event.tsEvent ∧ inDatetimeRange event.tsEvent = true)
    ⟨fun datable => ⟨datable.1, datable.2⟩,
      fun datable => ⟨datable.afterEpoch, datable.inRange⟩⟩

theorem Datable.reading_nonneg (datable : Datable event) :
    0 ≤ event.reading.tsEvent := by
  obtain ⟨micros, same⟩ := Int.eq_ofNat_of_zero_le datable.afterEpoch
  simp only [MarketEvent.reading, same, carried_natCast]
  positivity

/-- The milliseconds of a datable event. -/
def clock (event : MarketEvent F) : Int :=
  (Double.extractTs event).toOption.getD 0

/-- They are read, and reach the seconds of the reading. -/
theorem Datable.extractTs_eq (datable : Datable event) :
    Double.extractTs event = .ok (clock event) ∧
      ∀ second : Int, 1000 * second ≤ clock event ↔
        1000 * second ≤ extractTs event.reading := by
  obtain ⟨micros, same⟩ := Int.eq_ofNat_of_zero_le datable.afterEpoch
  have small := natAbs_lt_of_inDatetimeRange datable.inRange
  rw [same, Int.natAbs_natCast] at small
  obtain ⟨millis, read, _, reaches, _⟩ := timestampMillis_reads small
  have known : Double.extractTs event = .ok millis := by
    rw [Double.extractTs, same]
    exact read
  have value : clock event = millis := by
    simp only [clock, known]
    rfl
  rw [value]
  refine ⟨known, ?_⟩
  intro second
  rw [extractTs_reaches_iff datable.reading_nonneg, reaches,
    MarketEvent.reading, same]

end Time

section Clocks

variable {F C α β : Type} (value : α → MarketEvent F) (secs graceSeconds : Nat)
  (init : β) (step : β → α → β)

/-- On the milliseconds of the doubles a window decides as it does on the
readings. -/
theorem sameDecisions {messages : List α}
    (datable : ∀ message ∈ messages, Datable (value message)) :
    WindowedFold.SameDecisions
      (tumblingWindow (fun message => (value message).key)
        (fun message => extractTs (value message).reading) secs graceSeconds
        init step)
      (tumblingWindow (fun message => (value message).key)
        (fun message => clock (value message)) secs graceSeconds init step)
      messages := by
  have sameStart : ∀ message ∈ messages,
      clock (value message) - clock (value message) % (1000 * secs) =
        extractTs (value message).reading -
          extractTs (value message).reading % (1000 * secs) :=
    fun message member => windowStartMs_congr secs
      (datable message member).extractTs_eq.2
  refine ⟨?_, ?_, rfl, rfl⟩
  · intro message member
    exact congrArg (Prod.mk (value message).key) (sameStart message member)
  · intro message member seen seenMember
    have wholeSecond : extractTs (value message).reading -
        extractTs (value message).reading % (1000 * secs) + 1000 * secs +
          1000 * graceSeconds =
          1000 * (extractTs (value message).reading / 1000 / secs * secs +
            secs + graceSeconds) := by
      rw [windowStartMs_eq]
      ring
    simp only [tumblingWindow, sameStart message member, wholeSecond]
    exact (datable seen seenMember).extractTs_eq.2 _

/-- The messages that are not late are those whose readings are not. -/
theorem withoutLate_reading {events : List (MarketEvent F)}
    (datable : ∀ event ∈ events, Datable event) :
    ∃ onTime, Double.withoutLate secs graceSeconds events = .ok onTime ∧
      onTime.Sublist events ∧
      onTime.map MarketEvent.reading =
        withoutLate secs graceSeconds (events.map MarketEvent.reading) := by
  let timedOf := fun event : MarketEvent F => Timed.mk event (clock event)
  let fold := tumblingWindow MarketEvent.key (clock (F := F)) secs
    graceSeconds () (fun _ _ => ())
  have messages : events.mapM Double.timed = .ok (events.map timedOf) := by
    apply mapM_ok
    intro event member
    rw [Double.timed, (datable event member).extractTs_eq.1]
    rfl
  have relabelled : (tumblingWindow
      (fun message : Timed (MarketEvent F) => message.item.key) Timed.time
      secs graceSeconds () (fun _ _ => ())).onTime (events.map timedOf) =
        (fold.onTime events).map timedOf := by
    apply WindowedFold.SameWindows.onTime_map
    exact ⟨fun _ => rfl, fun _ => rfl, fun _ => rfl, rfl⟩
  have items : ((fold.onTime events).map timedOf).map Timed.item =
      fold.onTime events := by
    rw [List.map_map]
    exact List.map_id _
  refine ⟨fold.onTime events, ?_, fold.onTime_sublist events, ?_⟩
  · rw [Double.withoutLate, messages]
    change Except.ok _ = Except.ok _
    rw [relabelled, items]
  · have alike : fold.onTime events = _ :=
      (sameDecisions id secs graceSeconds () (fun _ _ => ()) datable).onTime
    rw [alike]
    symm
    apply WindowedFold.SameWindows.onTime_map
    exact ⟨fun _ => rfl, fun _ => rfl, fun _ => rfl, rfl⟩

end Clocks

section Processor

variable {F C β : Type} (topic : Topic F C β) (graceSeconds : Nat)
  (size : String × Nat)

/-- A row at the instant its timestamp reads. -/
def Row.reading (row : Row F C) : Row F C :=
  { row with value := row.value.reading }

/-- A row with the milliseconds of its event. -/
def Row.timed (row : Row F C) : Timed (Row F C) :=
  { item := row, time := clock row.value }

/-- A branch closes the windows that the exact one closes on the readings. -/
private theorem double_clock_emits_alike {rows : List (Row F C)}
    (datable : ∀ row ∈ rows, Datable row.value) :
    ((Double.branch topic graceSeconds size).fold.run
        (rows.map Row.timed)).2.Perm
      ((topic.branch graceSeconds size).fold.run
        (rows.map Row.reading)).2 := by
  rw [← WindowedFold.run_relabel, ← WindowedFold.run_relabel]
  exact (sameDecisions Row.value size.2 graceSeconds topic.init
    (fun agg row => topic.step agg row.columns) datable).emitted_perm

variable {topic}

variable [Zero F] [Add F] [Sub F] [Mul F] [Div F] [NatCast F] [LT F]
  [DecidableLT F]

/-- Every closed window has its record. -/
private theorem finalize_double (projection : Topic.Projection topic)
    {rows : List (Row F C)}
    (afterEpoch : ∀ row ∈ rows, 0 ≤ row.value.tsEvent)
    (inside : ∀ event ∈ withoutLate size.2 graceSeconds (rows.map Row.value),
      InYears size.2 event)
    {entry : (String × Int) × β}
    (member : entry ∈ ((topic.branch graceSeconds size).fold.run rows).2) :
    Double.finalize topic size entry.1 entry.2 =
      .ok ((topic.branch graceSeconds size).finalize entry.1 entry.2) := by
  rw [Topic.withoutLate_rows topic] at inside
  rw [((topic.branch graceSeconds size).fold.run_emitted_perm rows).mem_iff,
    Dict.entries_filter] at member
  have grouped := List.mem_of_mem_filter member
  have kept : ∀ row ∈ (topic.branch graceSeconds size).fold.onTime rows,
      0 ≤ row.value.tsEvent := fun row onTime => afterEpoch row
    (((topic.branch graceSeconds size).fold.onTime_sublist rows).subset onTime)
  have metrics := Topic.finalize_eq_windowRow projection graceSeconds size kept
    grouped
  obtain ⟨window, agg⟩ := entry
  obtain ⟨⟨row, rowMember, sameWindow⟩, _⟩ :=
    (mem_foldKeyed _ _ _).mp grouped
  obtain ⟨opens, closes⟩ := (inside row.value
    (List.mem_map_of_mem rowMember)).bounds (kept row rowMember)
  have start : msToIso window.2 = (windowBounds row.value.tsEvent size.2).1 := by
    rw [windowBounds_fst_eq_msToIso (kept row rowMember), ← sameWindow]
    rfl
  have rowStart := congrArg WindowMetrics.windowStart metrics
  have rowEnd := congrArg WindowMetrics.windowEnd metrics
  simp only [windowRow, Prod.map, Topic.bucketOfWindow, start,
    windowBounds_start] at rowStart rowEnd
  subst sameWindow
  simp only [WindowedFold.window, Topic.branch, tumblingWindow] at rowStart rowEnd ⊢
  simp only [Double.finalize, opens, closes]
  change Except.ok _ = Except.ok _
  rw [← rowStart, ← rowEnd]

/-- A branch sends the records of the exact one on the readings. -/
private theorem sent_double (projection : Topic.Projection topic)
    {rows : List (Row F C)}
    (datable : ∀ row ∈ rows, Datable row.value)
    (inside : ∀ event ∈ withoutLate size.2 graceSeconds
        ((rows.map Row.reading).map Row.value), InYears size.2 event) :
    ((Double.branch topic graceSeconds size).sent (rows.map Row.timed)).Perm
      (((topic.branch graceSeconds size).sent (rows.map Row.reading)).map
        Except.ok) := by
  have afterEpoch : ∀ row ∈ rows.map Row.reading, 0 ≤ row.value.tsEvent := by
    intro row member
    obtain ⟨original, originalMember, rfl⟩ := List.mem_map.mp member
    exact (datable original originalMember).reading_nonneg
  simp only [Branch.sent, List.map_map]
  refine ((double_clock_emits_alike topic graceSeconds size datable).map
    _).trans (List.Perm.of_eq ?_)
  apply List.map_congr_left
  intro entry member
  exact finalize_double graceSeconds size projection afterEpoch inside member

omit [Zero F] [Add F] [Sub F] [Mul F] [Div F] [NatCast F] [LT F]
  [DecidableLT F] in
/-- What is emitted before records that can all be built. -/
private theorem emitThen_emitted {records : List (Result (WindowRecord F))}
    (built : ∀ record ∈ records, Returns record) (later : Outcome F) :
    (Double.emitThen records later).emitted.map Except.ok =
      records ++ later.emitted.map Except.ok := by
  induction records with
  | nil => rfl
  | cons record rest induction =>
      obtain ⟨value, rfl⟩ := built record (by simp)
      simp only [Double.emitThen, List.map_cons, List.cons_append]
      rw [induction (fun other member => built other (by simp [member]))]

omit [Zero F] [Add F] [Sub F] [Mul F] [Div F] [NatCast F] [LT F]
  [DecidableLT F] in
/-- A run whose records can all be built emits all it sends. -/
private theorem runFrom_emitted_double
    (states : List (WindowedFold.State String β))
    (earlier : List (Result (WindowRecord F))) (values : List (MarketEvent F))
    (datable : ∀ value ∈ values, Datable value)
    {sent : List (Result (WindowRecord F))}
    (sends : (((topic.rows values).map Row.timed).foldl
      (fun outcome row =>
        let next := Branch.receiveAll (Double.branches topic graceSeconds)
          outcome.1 row
        (next.1, outcome.2 ++ next.2))
      (states, earlier)).2 = sent)
    (built : ∀ record ∈ sent, Returns record) :
    sent = earlier ++
      (Double.runFrom topic graceSeconds states values).emitted.map
        Except.ok := by
  induction values generalizing states earlier with
  | nil =>
      rw [← sends]
      simp [Double.runFrom, Topic.rows]
  | cons value rest induction =>
      have time := (datable value (by simp)).extractTs_eq.1
      have tail := fun states earlier => induction states earlier
        (fun other member => datable other (by simp [member]))
      cases defined : topic.columns value with
      | error failure =>
          have raised : Double.timedRow topic value = .error failure := by
            rw [Double.timedRow, time, defined]
            rfl
          rw [← sends]
          simp [Double.runFrom, Topic.rows, defined, raised]
      | ok columns =>
          have derived : Double.timedRow topic value =
              .ok (Row.timed ⟨value, columns⟩) := by
            rw [Double.timedRow, time, defined]
            rfl
          simp only [Topic.rows, defined, List.map_cons, List.foldl_cons]
            at sends
          have all := tail _ _ sends
          have next : ∀ record ∈ (Branch.receiveAll
              (Double.branches topic graceSeconds) states
              (Row.timed ⟨value, columns⟩)).2, Returns record := by
            intro record member
            apply built
            rw [all]
            simp [member]
          simp only [Double.runFrom, derived]
          rw [emitThen_emitted next, ← List.append_assoc]
          exact all

omit [Zero F] [Add F] [Sub F] [Mul F] [Div F] [NatCast F] [LT F]
  [DecidableLT F] in
theorem rows_reading
    (timeless : ∀ value : MarketEvent F,
      topic.columns value.reading = topic.columns value)
    (events : List (MarketEvent F)) :
    topic.rows (events.map MarketEvent.reading) =
      (topic.rows events).map Row.reading := by
  induction events with
  | nil => rfl
  | cons event rest induction =>
      simp only [List.map_cons, Topic.rows, timeless]
      cases topic.columns event with
      | error failure => rfl
      | ok columns =>
          simp only [List.map_cons, induction]
          rfl

/-- What a topic emits is what the exact one emits on the readings. -/
theorem run_double (projection : Topic.Projection topic)
    (timeless : ∀ value : MarketEvent F,
      topic.columns value.reading = topic.columns value)
    {events : List (MarketEvent F)}
    (datable : ∀ event ∈ events, Datable event)
    (inside : ∀ size ∈ windowSizes, ∀ event ∈ withoutLate size.2 graceSeconds
      (events.map MarketEvent.reading), InYears size.2 event)
    (fits : graceSeconds < 86400 * 10 ^ 9) :
    ∃ outcome, Double.run topic graceSeconds events = .ok outcome ∧
      outcome.emitted.Perm
        (topic.run graceSeconds (events.map MarketEvent.reading)).emitted := by
  have rowDatable : ∀ row ∈ topic.rows events, Datable row.value := by
    intro row member
    exact datable row.value
      ((topic.rows_initial events).subset (List.mem_map_of_mem member))
  have sizeSends : ∀ size ∈ windowSizes,
      ((Double.branch topic graceSeconds size).sent
        ((topic.rows events).map Row.timed)).Perm
        (((topic.branch graceSeconds size).sent
          ((topic.rows events).map Row.reading)).map Except.ok) := by
    intro size sizeMember
    apply sent_double graceSeconds size projection rowDatable
    intro event member
    apply inside size sizeMember event
    obtain ⟨rest, split⟩ :=
      topic.rows_initial (events.map MarketEvent.reading)
    rw [rows_reading timeless] at split
    rw [← split, withoutLate_append]
    exact List.mem_append_left _ member
  let branches := Double.branches topic graceSeconds
  have sent : (Branch.runAll branches
      ((topic.rows events).map Row.timed)).2.Perm
        (((topic.branches graceSeconds).flatMap (fun branch => branch.sent
          ((topic.rows events).map Row.reading))).map Except.ok) := by
    apply (Branch.runAll_tracks branches _).2.trans
    simp only [branches, Double.branches, Topic.branches, List.flatMap_map,
      List.map_flatMap]
    exact List.Perm.flatMap_left _ sizeSends
  have built : ∀ record ∈ (Branch.runAll branches
      ((topic.rows events).map Row.timed)).2, Returns record := by
    intro record member
    obtain ⟨value, _, rfl⟩ := List.mem_map.mp (sent.subset member)
    exact ⟨value, rfl⟩
  have emitted := runFrom_emitted_double graceSeconds _ [] events datable rfl
    built
  rw [List.nil_append] at emitted
  refine ⟨Double.runFrom topic graceSeconds
    (branches.map (fun _ => WindowedFold.State.initial)) events, ?_, ?_⟩
  · rw [Double.run, timedelta_eq_ok_iff.mpr ⟨fits, rfl⟩]
    rfl
  · have exact := topic.run_emitted_perm graceSeconds
      (events.map MarketEvent.reading)
    rw [rows_reading timeless] at exact
    refine List.Perm.trans ?_ exact.symm
    rw [← List.map_perm_map_iff (f := Except.ok (ε := Exc))
      (fun _ _ same => Except.ok.inj same), ← emitted]
    exact sent

end Processor

end TickStream
