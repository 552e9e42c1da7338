import TickStream.Library.Percentile
import TickStream.Quality.CompletenessGate

/-!
# The latency gate

The latency of a bronze row is the time from its ingest to the moment gold was
built.  The gate compares the 95th percentile, in seconds rounded to three
decimals, with the target.  The numbers are doubles, of which 59.9995 is not
one: a row is slow from one microsecond more on.  How the percentile
interpolates is left open, but it stays between its neighbours.
-/

namespace TickStream

open Python Library

def SLAReport.latencyOk (report : SLAReport) : Bool :=
  report.latencyP95 < latencyTarget

theorem SLAReport.latencyOk_of_passed {report : SLAReport}
    (passed : report.passed = true) : report.latencyOk = true := by
  simp only [SLAReport.passed, Bool.and_eq_true] at passed
  exact passed.1.1

/-- Seconds from the ingest of a row to gold, `total_seconds`: the microseconds
become a double before they are divided. -/
def latency (goldBuiltAt : Instant) (row : BronzeRow) : Rat :=
  nearestMultiple (nearestMultiple (goldBuiltAt - row.tsIngest : Int) /
    microsPerSecond)

/-- `round(value, 3)`. -/
def roundThousandth (value : Rat) : Rat :=
  nearestMultiple ((roundHalfEven (value * 1000) : Rat) / 1000)

def latencyP95 (interpolate : Rat → Rat → Rat → Rat) (goldBuiltAt : Instant)
    (bronze : List BronzeRow) : Rat :=
  if bronze.isEmpty then 0
  else roundThousandth
    (percentile interpolate 95 (bronze.map (latency goldBuiltAt)))

/-- The rows that took more than 59.9995 s. -/
def slowRows (goldBuiltAt : Instant) (bronze : List BronzeRow) : Nat :=
  bronze.countP (fun row => 59999500 < goldBuiltAt - row.tsIngest)

section Gate

variable {interpolate : Rat → Rat → Rat → Rat} {goldBuiltAt : Instant}
  {bronze other : List BronzeRow}

/-- The order of the bronze files does not matter. -/
private theorem latencyP95_perm (same : bronze.Perm other) :
    latencyP95 interpolate goldBuiltAt bronze =
      latencyP95 interpolate goldBuiltAt other := by
  have empty : bronze.isEmpty = other.isEmpty := by
    rw [Bool.eq_iff_iff, List.isEmpty_iff, List.isEmpty_iff]
    exact nil_iff_of_perm same
  simp only [latencyP95, empty,
    percentile_perm (same.map (latency goldBuiltAt))]

/-- A percentile reaches the target from half a millisecond below. -/
theorem target_le_roundThousandth_iff {value : Rat} :
    latencyTarget ≤ roundThousandth value ↔ (599995 / 10000 : Rat) ≤ value := by
  have target : nearestMultiple 60 = latencyTarget := by decide +kernel
  have before : nearestMultiple (59999 / 1000) < latencyTarget := by
    decide +kernel
  have scaled : latencyTarget ≤ roundThousandth value ↔
      (60000 : Int) ≤ roundHalfEven (value * 1000) := by
    rw [roundThousandth]
    constructor
    · intro reached
      by_contra below
      have steps : roundHalfEven (value * 1000) ≤ 59999 := by omega
      have cast : (roundHalfEven (value * 1000) : Rat) ≤ 59999 := by
        exact_mod_cast steps
      have thousandths := div_le_div_of_nonneg_right cast
        (by norm_num : (0 : Rat) ≤ 1000)
      have rounded := nearestMultiple_mono thousandths
      exact absurd (reached.trans rounded) (not_le.mpr before)
    · intro reached
      have cast : (60000 : Rat) ≤ roundHalfEven (value * 1000) := by
        exact_mod_cast reached
      rw [← target]
      apply nearestMultiple_mono
      rw [le_div_iff₀ (by norm_num)]
      linarith
  rw [scaled, le_roundHalfEven_iff (by norm_num)]
  constructor
  · intro reached
    norm_num at reached ⊢
    linarith
  · intro reached
    norm_num at reached ⊢
    linarith

/-- Seconds keep the order of the microseconds. -/
theorem seconds_mono {early late : Int} (le : early ≤ late) :
    nearestMultiple (nearestMultiple early / microsPerSecond) ≤
      nearestMultiple (nearestMultiple late / microsPerSecond) := by
  have cast : (early : Rat) ≤ late := by exact_mod_cast le
  apply nearestMultiple_mono
  exact div_le_div_of_nonneg_right (nearestMultiple_mono cast)
    (by norm_num [microsPerSecond])

theorem slow_iff {row : BronzeRow} :
    (599995 / 10000 : Rat) ≤ latency goldBuiltAt row ↔
      59999500 < goldBuiltAt - row.tsIngest := by
  have before : nearestMultiple (nearestMultiple (59999500 : Int) /
      microsPerSecond) < (599995 / 10000 : Rat) := by decide +kernel
  have after : (599995 / 10000 : Rat) ≤ nearestMultiple
      (nearestMultiple (59999501 : Int) / microsPerSecond) := by decide +kernel
  constructor
  · intro slow
    by_contra early
    exact absurd (slow.trans (seconds_mono (not_lt.mp early)))
      (not_le.mpr before)
  · intro slow
    exact after.trans (seconds_mono (Int.add_one_le_iff.mpr slow))

theorem latencyP95_of_occupied (occupied : bronze ≠ []) :
    latencyP95 interpolate goldBuiltAt bronze = roundThousandth
      (percentile interpolate 95 (bronze.map (latency goldBuiltAt))) := by
  rw [latencyP95, if_neg]
  simpa using occupied

/-- Below the target at most every twentieth row is late, up to one. -/
private theorem slowRows_le_of_ok (interpolates : Interpolates interpolate)
    (occupied : bronze ≠ [])
    (ok : latencyP95 interpolate goldBuiltAt bronze < latencyTarget) :
    20 * slowRows goldBuiltAt bronze ≤ bronze.length + 18 := by
  rw [latencyP95_of_occupied occupied, ← not_le,
    target_le_roundThousandth_iff, not_le] at ok
  have timely := countP_lt_of_percentile interpolates (by norm_num)
    (by norm_num) (by simpa using occupied) ok
  have split : slowRows goldBuiltAt bronze +
      (bronze.map (latency goldBuiltAt)).countP
        (fun value => value < 599995 / 10000) = bronze.length := by
    rw [List.countP_map, List.length_eq_countP_add_countP
      (fun row => decide (59999500 < goldBuiltAt - row.tsIngest)), slowRows]
    congr 1
    apply List.countP_congr
    intro row _
    simp only [Function.comp_apply, decide_eq_true_eq, ← slow_iff, not_le]
  have position := Int.lt_floor_add_one
    (percentileIndex 95 (bronze.map (latency goldBuiltAt)).length)
  generalize ⌊percentileIndex 95 (bronze.map
    (latency goldBuiltAt)).length⌋ = index at timely position
  rw [percentileIndex, List.length_map] at position
  have steps : 19 * ((bronze.length : Int) - 1) < 20 * (index + 1) := by
    have scaled : (19 : Rat) * ((bronze.length : Rat) - 1) <
        20 * ((index : Rat) + 1) := by linarith
    exact_mod_cast scaled
  omega

/-- From the target on at least one row in twenty is late. -/
theorem le_slowRows_of_missed (interpolates : Interpolates interpolate)
    (occupied : bronze ≠ [])
    (missed : latencyTarget ≤ latencyP95 interpolate goldBuiltAt bronze) :
    bronze.length ≤ 20 * slowRows goldBuiltAt bronze := by
  rw [latencyP95_of_occupied occupied, target_le_roundThousandth_iff]
    at missed
  have late := countP_le_of_percentile interpolates (by norm_num)
    (by norm_num) (by simpa using occupied) missed
  have counted : (bronze.map (latency goldBuiltAt)).countP
      (fun value => 599995 / 10000 ≤ value) = slowRows goldBuiltAt bronze := by
    rw [List.countP_map, slowRows]
    apply List.countP_congr
    intro row _
    simp only [Function.comp_apply, decide_eq_true_eq, slow_iff]
  have position := Int.ceil_lt_add_one
    (percentileIndex 95 (bronze.map (latency goldBuiltAt)).length)
  rw [counted] at late
  generalize ⌈percentileIndex 95 (bronze.map
    (latency goldBuiltAt)).length⌉ = index at late position
  rw [percentileIndex, List.length_map] at position
  rw [List.length_map] at late
  have steps : 20 * (index - 1) < 19 * ((bronze.length : Int) - 1) := by
    have scaled : (20 : Rat) * ((index : Rat) - 1) <
        19 * ((bronze.length : Rat) - 1) := by linarith
    exact_mod_cast scaled
  omega

end Gate

theorem normalizeMessage_ingested {settings : Settings} {tsIngest : Instant}
    {message : RecordedMessage} {log : NormalizeLog}
    (ran : normalizeMessage settings tsIngest message = .ok log) :
    ∀ valid ∈ log.done, valid.event.tsIngest = tsIngest := by
  intro valid member
  obtain ⟨symbolMap, _, ran⟩ := bind_eq_ok_iff.mp ran
  rcases (mem_done_iff ran).mp member with ⟨fields, _, same⟩ |
    ⟨fields, _, same⟩
  · rw [same]
    rfl
  · rw [same]
    rfl

private theorem replayMessage_ingested {settings : Settings}
    {tsIngest : Instant}
    {recorded : RecordedMessage} :
    ∀ message ∈ (replayMessage settings tsIngest recorded).raw,
      message.value.tsIngest = tsIngest := by
  intro message member
  simp only [replayMessage] at member
  cases ran : normalizeMessage settings tsIngest recorded with
  | error failure =>
      rw [ran] at member
      cases member
  | ok log =>
      rw [ran] at member
      dsimp only [publishLog] at member
      split at member
      · obtain ⟨valid, inside, same⟩ := List.mem_map.mp member
        rw [← same]
        exact normalizeMessage_ingested ran valid inside
      · cases member

/-- The events of a recorded message carry the reading of its turn. -/
private theorem replayLoop_ingested (settings : Settings) (limit : Option Int)
    (clock : Nat → Instant) (count : Nat) (fixture : List RecordedMessage) :
    ∀ message ∈ (replayLoop settings limit clock count fixture).raw,
      ∃ turn, turn < count + fixture.length ∧
        message.value.tsIngest = clock turn := by
  induction fixture generalizing count with
  | nil =>
      intro message member
      cases member
  | cons recorded rest induction =>
      intro message member
      have now : message ∈ (replayMessage settings (clock count) recorded).raw →
          ∃ turn, turn < count + (recorded :: rest).length ∧
            message.value.tsIngest = clock turn := by
        intro inside
        exact ⟨count, by simp, replayMessage_ingested message inside⟩
      simp only [replayLoop] at member
      split_ifs at member
      · cases member
      · simp only [ReplayRun.andThen] at member
        split at member
        · rcases List.mem_append.mp member with inside | later
          · exact now inside
          · obtain ⟨turn, early, reading⟩ := induction _ message later
            refine ⟨turn, ?_, reading⟩
            rw [List.length_cons]
            omega
        · exact now member

section Run

variable {settings : Settings} {fixture : Option (List RecordedMessage)}
  {env : Environment} {lake after : Lake} {result : PipelineResult}

/-- The SLA of a successful run is measured on the bronze it leaves, which has
rows. -/
private theorem runPipeline_latency
    (ran : runPipeline settings fixture env lake = .ok (result, after)) :
    after.bronze ≠ [] ∧ result.latencyP95 = env.latencyP95 after.bronze ∧
      (result.slaPassed = true → result.latencyP95 < latencyTarget) := by
  obtain ⟨messages, landed, _, completed⟩ := runPipeline_completed ran
  rw [completed.report]
  refine ⟨completed.occupied, rfl, ?_⟩
  intro passed
  exact of_decide_eq_true (SLAReport.latencyOk_of_passed passed)

end Run

/-- The latency a run reports does not depend on the order of the rows, and
tells how many of them were late: at most one in twenty, up to one, if the run
passes, and at least one in twenty if the target is missed.  A run of fresh
rows whose replay began at most 59.9995 s before gold was built meets the
target. -/
theorem latency_gate {interpolate : Rat → Rat → Rat → Rat}
    (interpolates : Interpolates interpolate) {settings : Settings}
    {messages : List RecordedMessage}
    {env : Environment} {lake after : Lake} {result : PipelineResult}
    {goldBuiltAt : Instant}
    (measured : env.latencyP95 = latencyP95 interpolate goldBuiltAt)
    (ran : runPipeline settings (some messages) env lake =
      .ok (result, after)) :
    (∀ other, other.Perm after.bronze →
      latencyP95 interpolate goldBuiltAt other = result.latencyP95) ∧
    (result.slaPassed = true →
      20 * slowRows goldBuiltAt after.bronze ≤ after.bronze.length + 18) ∧
    (latencyTarget ≤ result.latencyP95 →
      after.bronze.length ≤ 20 * slowRows goldBuiltAt after.bronze) ∧
    ((delivered env.bronze.turns).Subperm
        (publishedRaw settings (some messages) env) →
      env.bronze.rows 30 3 ≠ [] →
      (∀ turn < messages.length, goldBuiltAt - env.clock turn ≤ 59999500) →
        result.latencyP95 < latencyTarget) := by
  obtain ⟨occupied, reported, passes⟩ := runPipeline_latency ran
  rw [measured] at reported
  refine ⟨?_, ?_, ?_, ?_⟩
  · intro other same
    rw [reported, latencyP95_perm same]
  · intro passed
    apply slowRows_le_of_ok interpolates occupied
    rw [← reported]
    exact passes passed
  · intro missed
    apply le_slowRows_of_missed interpolates occupied
    rwa [← reported]
  · intro delivers fresh quick
    by_contra missed
    rw [not_lt, reported] at missed
    have late := le_slowRows_of_missed interpolates occupied missed
    have none : slowRows goldBuiltAt after.bronze = 0 := by
      rw [slowRows, List.countP_eq_zero]
      intro row member
      rw [(runPipeline_eq_ok delivers ran).2.2 fresh] at member
      obtain ⟨message, inside, same⟩ := List.mem_map.mp member
      have published := delivers.subset
        ((env.bronze.rows_initial 30 3).subset inside)
      obtain ⟨turn, early, reading⟩ :=
        replayLoop_ingested _ _ _ _ _ message published
      rw [Nat.zero_add] at early
      have bound := quick turn early
      rw [← same, reading]
      simp only [decide_eq_true_eq, not_lt]
      exact bound
    rw [none] at late
    exact occupied (List.eq_nil_of_length_eq_zero (by omega))

/-- Both trades are in bronze half a minute before gold is built. -/
def promptEnvironment : Environment :=
  { quietEnvironment with
    bronze :=
      ⟨0, 0, (publishedRaw sampleSettings (some twoTradesFixture)
          quietEnvironment).map (fun message =>
            ⟨0, .message message, 1⟩) ++ [⟨1, .empty, 5⟩]⟩
    latencyP95 := latencyP95 interpolateLinearly 30000000 }

private theorem promptEnvironment_delivers :
    delivered promptEnvironment.bronze.turns =
      publishedRaw sampleSettings (some twoTradesFixture)
        promptEnvironment := by
  simp [promptEnvironment, delivered, List.filterMap_map, Function.comp_def,
    Turn.message?, Poll.value?, publishedRaw]

theorem latency_gate_sample :
    ∃ result after, runPipeline sampleSettings (some twoTradesFixture)
        promptEnvironment ⟨[], [], []⟩ = .ok (result, after) ∧
      result.bronzeRows = 2 ∧ result.latencyP95 < latencyTarget := by
  have reported : reportedCounts (runPipeline sampleSettings
      (some twoTradesFixture) promptEnvironment ⟨[], [], []⟩) =
        some (2, 2) := by
    decide +kernel
  obtain ⟨result, after, ran, rows, _⟩ := reportedCounts_eq_some reported
  have measured : promptEnvironment.latencyP95 =
      latencyP95 interpolateLinearly 30000000 := rfl
  have delivers : (delivered promptEnvironment.bronze.turns).Subperm
      (publishedRaw sampleSettings (some twoTradesFixture)
        promptEnvironment) := by
    rw [promptEnvironment_delivers]
  refine ⟨result, after, ran, rows, ?_⟩
  apply (latency_gate interpolateLinearly_interpolates measured ran).2.2.2
    delivers
  · intro empty
    have landed := (runPipeline_eq_ok delivers ran).2.1
    rw [rows, empty] at landed
    cases landed
  · intro turn _
    change (30000000 : Int) - 0 ≤ 59999500
    decide

end TickStream
