import TickStream.Pipeline

/-!
# Clearing sinks

Called with `clear=True` a sink is to leave exactly the rows of its own drain.
The quarantine sink clears before it looks at what it drained; bronze and
windows return early from an empty drain and keep the rows of an earlier run.
-/

namespace TickStream

open Python Library

/-- A sink that drained `rows`: the count it returns and the dataset it leaves.
`clearsEmpty` tells whether an empty drain clears too. -/
def landRows {α : Type} (clearsEmpty clear : Bool) (rows dest : List α) :
    Nat × List α :=
  if rows.isEmpty then (0, if clearsEmpty && clear then [] else dest)
  else (rows.length, if clear then rows else dest ++ rows)

/-- The messages a drain with a row cap reads. -/
def upTo {α : Type} (maxMessages : Option Int) (messages : List α) : List α :=
  match maxMessages with
  | none => messages
  | some cap => messages.take cap.toNat

section Sinks

variable (timeout idle : Rat) (clear : Bool)

def landQuarantineAt (script : DrainScript QuarantineMessage)
    (dest : List QuarantineMessage) : Nat × List QuarantineMessage :=
  landRows true clear (script.rows timeout idle) dest

def writeBronzeAt (maxMessages : Option Int)
    (script : DrainScript RawMessage) (dest : List BronzeRow) :
    Result (Nat × List BronzeRow) := do
  let rows ← (upTo maxMessages (script.rows timeout idle)).mapM bronzeRow
  return landRows false clear rows dest

def landWindowsAt (script : DrainScript (WindowRecord Rat))
    (dest : List (WindowRecord Rat)) : Nat × List (WindowRecord Rat) :=
  landRows false clear (script.rows timeout idle) dest

end Sinks

private theorem landWindows_eq (script : DrainScript (WindowRecord Rat))
    (lake : Lake) :
    landWindows script lake =
      ((landWindowsAt 30 3 true script lake.windows).1,
        { lake with
          windows := (landWindowsAt 30 3 true script lake.windows).2 }) := by
  simp only [landWindows, landWindowsAt, landRows]
  cases script.rows 30 3 <;> rfl

/-- The sink returned the number of the drained rows and left exactly these. -/
structure Replaces {α : Type} (rows : List α) (landed : Nat × List α) :
    Prop where
  count : landed.1 = rows.length
  dataset : landed.2 = rows

private theorem landRows_clears_replaces {α : Type} (rows dest : List α) :
    Replaces rows (landRows true true rows dest) := by
  cases rows with
  | nil => exact ⟨rfl, rfl⟩
  | cons row rest => exact ⟨rfl, rfl⟩

/-- A sink that skips the clearing after an empty drain. -/
theorem landRows_replaces_iff {α : Type} (rows dest : List α) :
    Replaces rows (landRows false true rows dest) ↔ rows ≠ [] ∨ dest = [] := by
  cases rows with
  | nil =>
      constructor
      · intro replaces
        exact Or.inr replaces.dataset
      · intro condition
        rcases condition with drained | fresh
        · exact absurd rfl drained
        · exact ⟨rfl, fresh⟩
  | cons row rest =>
      constructor
      · intro _
        exact Or.inl (List.cons_ne_nil row rest)
      · intro _
        exact ⟨rfl, rfl⟩

theorem writeBronzeAt_eq_ok_iff {timeout idle : Rat} {clear : Bool}
    {maxMessages : Option Int} {script : DrainScript RawMessage}
    {dest : List BronzeRow} {landed : Nat × List BronzeRow} :
    writeBronzeAt timeout idle clear maxMessages script dest = .ok landed ↔
      ∃ rows,
        (upTo maxMessages (script.rows timeout idle)).mapM bronzeRow =
          .ok rows ∧
        landRows false clear rows dest = landed := by
  simp only [writeBronzeAt]
  cases (upTo maxMessages (script.rows timeout idle)).mapM bronzeRow with
  | error failure => simp [bind, Except.bind]
  | ok rows => simp [bind, Except.bind, pure, Except.pure]

/-- What a run reports and the bronze its mart and its SLA come from. -/
def reading (outcome : PipelineResult × Lake) :
    PipelineResult × List BronzeRow :=
  (outcome.1, outcome.2.bronze)

section Run

variable {settings : Settings} {fixture : Option (List RecordedMessage)}
  {env : Environment} {lake other after : Lake} {result : PipelineResult}

theorem landWindows_bronze (script : DrainScript (WindowRecord Rat))
    (lake : Lake) : (landWindows script lake).2.bronze = lake.bronze := by
  rw [landWindows_eq]

private theorem landWindows_count (script : DrainScript (WindowRecord Rat))
    (lake other : Lake) :
    (landWindows script lake).1 = (landWindows script other).1 := by
  simp only [landWindows]
  split <;> rfl

/-- The marts are built from bronze alone. -/
private theorem buildMarts_congr (same : lake.bronze = other.bronze) :
    buildMarts lake = buildMarts other := by
  simp only [buildMarts]
  rw [same]

private theorem finishPipeline_congr (same : lake.bronze = other.bronze)
    (summary : ReplaySummary) (bronzeRows : Nat) :
    (finishPipeline env summary bronzeRows lake).map reading =
      (finishPipeline env summary bronzeRows other).map reading := by
  have left := landWindows_bronze env.windows lake
  have right := landWindows_bronze env.windows other
  have marts : buildMarts (landWindows env.windows lake).2 =
      buildMarts (landWindows env.windows other).2 := by
    apply buildMarts_congr
    rw [left, right, same]
  have count := landWindows_count env.windows lake other
  simp only [finishPipeline]
  rw [marts, count, left, right, same]
  cases env.processor with
  | error failure => rfl
  | ok done =>
      cases buildMarts (landWindows env.windows other).2 with
      | error failure => rfl
      | ok built =>
          simp only [bind, Except.bind, pure, Except.pure, Except.map,
            reading]
          rw [left, right, same]

private theorem mapM_bronzeRow_eq_nil {messages : List RawMessage}
    (decoded : messages.mapM bronzeRow = .ok []) : messages = [] := by
  cases messages with
  | nil => rfl
  | cons message rest =>
      rw [List.mapM_cons] at decoded
      obtain ⟨row, _, decoded⟩ := bind_eq_ok_iff.mp decoded
      obtain ⟨rows, _, decoded⟩ := bind_eq_ok_iff.mp decoded
      cases decoded

/-- What a bronze drain that decodes leaves in the lake. -/
theorem writeBronze_of_decoded {script : DrainScript RawMessage}
    {rows : List BronzeRow}
    (decoded : (script.rows 30 3).mapM bronzeRow = .ok rows) (lake : Lake) :
    writeBronze script lake =
      .ok (rows.length,
        { lake with bronze := if rows = [] then lake.bronze else rows }) := by
  simp only [writeBronze]
  rw [decoded]
  cases rows <;> rfl

theorem writeBronze_of_error {script : DrainScript RawMessage} {failure : Exc}
    (refused : (script.rows 30 3).mapM bronzeRow = .error failure)
    (lake : Lake) : writeBronze script lake = .error failure := by
  simp only [writeBronze]
  rw [refused]
  rfl

/-- A run whose bronze drain got something reads nothing an earlier run left. -/
private theorem runPipeline_forgets (drained : env.bronze.rows 30 3 ≠ []) :
    (runPipeline settings fixture env lake).map reading =
      (runPipeline settings fixture env other).map reading := by
  have landed : (landQuarantine env.quarantine lake).1 =
      (landQuarantine env.quarantine other).1 := rfl
  simp only [runPipeline]
  rw [landed]
  cases replay (settings.isolated env.uid) none env.clock fixture
      env.delivery with
  | error failure => rfl
  | ok summary =>
      simp only [bind, Except.bind]
      by_cases short :
          (landQuarantine env.quarantine other).1 ≠ summary.quarantined
      · rw [if_pos short, if_pos short]
      · rw [if_neg short, if_neg short]
        cases decoded : (env.bronze.rows 30 3).mapM bronzeRow with
        | error failure =>
            rw [writeBronze_of_error decoded, writeBronze_of_error decoded]
        | ok rows =>
            have occupied : rows ≠ [] := by
              intro empty
              rw [empty] at decoded
              exact drained (mapM_bronzeRow_eq_nil decoded)
            rw [writeBronze_of_decoded decoded,
              writeBronze_of_decoded decoded, if_neg occupied,
              if_neg occupied]
            dsimp only
            apply finishPipeline_congr
            rfl

private theorem buildMarts_eq_ok {marts : MartsResult}
    (built : buildMarts lake = .ok marts) : lake.bronze ≠ [] := by
  intro empty
  simp only [buildMarts] at built
  rw [empty] at built
  cases built

/-- The marts refuse an empty bronze, so a run that returns built them from
the rows of its own drain or, if it drained none, from an earlier run's. -/
private theorem runPipeline_bronze {rows : List BronzeRow}
    (ran : runPipeline settings fixture env lake = .ok (result, after))
    (decoded : (env.bronze.rows 30 3).mapM bronzeRow = .ok rows) :
    after.bronze ≠ [] ∧
      after.bronze = if rows = [] then lake.bronze else rows := by
  simp only [runPipeline] at ran
  obtain ⟨summary, _, ran⟩ := bind_eq_ok_iff.mp ran
  split_ifs at ran with short
  · cases ran
  · obtain ⟨bronze, wrote, ran⟩ := bind_eq_ok_iff.mp ran
    rw [writeBronze_of_decoded decoded] at wrote
    cases wrote
    have kept := (finishPipeline_eq_ok ran).2.2
    refine ⟨?_, kept⟩
    simp only [finishPipeline] at ran
    obtain ⟨_, _, ran⟩ := bind_eq_ok_iff.mp ran
    obtain ⟨marts, built, ran⟩ := bind_eq_ok_iff.mp ran
    cases ran
    exact buildMarts_eq_ok built

private theorem runPipeline_bronze_own_iff {rows : List BronzeRow}
    (ran : runPipeline settings fixture env lake = .ok (result, after))
    (decoded : (env.bronze.rows 30 3).mapM bronzeRow = .ok rows) :
    after.bronze = rows ↔ rows ≠ [] := by
  obtain ⟨occupied, kept⟩ := runPipeline_bronze ran decoded
  constructor
  · intro own empty
    rw [empty] at own
    exact occupied own
  · intro drained
    rw [kept, if_neg drained]

end Run

/-- Every call of the quarantine sink replaces its dataset.  Bronze and windows
do so exactly when the drain got a row or the destination held none; a run then
owes its mart to its own drain exactly when that got a row. -/
theorem clearing_sinks_replace_iff (timeout idle : Rat)
    (maxMessages : Option Int) :
    (∀ script dest, Replaces (script.rows timeout idle)
      (landQuarantineAt timeout idle true script dest)) ∧
    (∀ script dest, Replaces (script.rows timeout idle)
        (landWindowsAt timeout idle true script dest) ↔
      script.rows timeout idle ≠ [] ∨ dest = []) ∧
    (∀ script dest landed rows,
      (upTo maxMessages (script.rows timeout idle)).mapM bronzeRow =
        .ok rows →
      writeBronzeAt timeout idle true maxMessages script dest = .ok landed →
      (Replaces rows landed ↔ rows ≠ [] ∨ dest = [])) ∧
    (∀ settings fixture env lake result after rows,
      (env.bronze.rows 30 3).mapM bronzeRow = .ok rows →
      runPipeline settings fixture env lake = .ok (result, after) →
      (after.bronze = rows ↔ rows ≠ [])) ∧
    ∀ settings fixture env lake other, env.bronze.rows 30 3 ≠ [] →
      (runPipeline settings fixture env lake).map reading =
        (runPipeline settings fixture env other).map reading := by
  refine ⟨?_, ?_, ?_, ?_, ?_⟩
  · intro script dest
    exact landRows_clears_replaces _ dest
  · intro script dest
    exact landRows_replaces_iff _ dest
  · intro script dest landed rows decoded wrote
    obtain ⟨drained, sameDecoded, rfl⟩ := writeBronzeAt_eq_ok_iff.mp wrote
    rw [decoded] at sameDecoded
    cases sameDecoded
    exact landRows_replaces_iff rows dest
  · intro settings fixture env lake result after rows decoded ran
    exact runPipeline_bronze_own_iff ran decoded
  · intro settings fixture env lake other drained
    exact runPipeline_forgets drained

/-- The row of an earlier run. -/
def staleRow : BronzeRow := sampleTrade "1" 5 100 1

/-- An empty drain leaves the rows of an earlier run: the sink reports no row,
the dataset has one, and the run builds its mart from it. -/
theorem writeBronze_keeps_stale_row :
    (∃ landed,
      writeBronzeAt 30 3 true none silentDrain [staleRow] = .ok landed ∧
        landed = (0, [staleRow]) ∧ ¬ Replaces [] landed) ∧
      ((runPipeline sampleSettings (some twoTradesFixture) quietEnvironment
          ⟨[], [staleRow], []⟩).toOption.map
        (fun outcome => (outcome.1.bronzeRows, outcome.1.goldRows))) =
        some (0, 2) := by
  constructor
  · refine ⟨(0, [staleRow]), by decide +kernel, rfl, ?_⟩
    intro replaces
    have empty := replaces.dataset
    cases empty
  · decide +kernel

/-- The sinks over a lake that holds an earlier row, and runs from two such
lakes. -/
theorem clearing_sinks_replace_sample :
    landWindowsAt 30 3 true silentDrain [] = (0, []) ∧
      Replaces [] (landWindowsAt 30 3 true silentDrain []) ∧
      (runPipeline sampleSettings (some twoTradesFixture)
          truncatedEnvironment ⟨[], [], []⟩).map reading =
        (runPipeline sampleSettings (some twoTradesFixture)
          truncatedEnvironment ⟨[], [staleRow], []⟩).map reading := by
  obtain ⟨_, windows, _, _, forgets⟩ := clearing_sinks_replace_iff 30 3 none
  have empty : (silentDrain (α := WindowRecord Rat)).rows 30 3 = [] := by
    decide +kernel
  have drained : truncatedEnvironment.bronze.rows 30 3 ≠ [] := by
    decide +kernel
  have replaces := (windows silentDrain []).mpr (Or.inr rfl)
  rw [empty] at replaces
  exact ⟨by decide +kernel, replaces,
    forgets sampleSettings (some twoTradesFixture) truncatedEnvironment
      ⟨[], [], []⟩ ⟨[], [staleRow], []⟩ drained⟩

end TickStream
