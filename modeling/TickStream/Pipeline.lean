import TickStream.Lake.Sinks

/-!
# The offline pipeline

Replay, the three sinks, the marts and the SLA in the order `run_pipeline`
runs them.  The broker, the stream engine and the latency statistics are the
environment's.
-/

namespace TickStream

open Python Library

structure MartsResult where
  gold : List GoldRow
  snapshots : Nat

/-- Gold is appended in two steps, the 1-minute windows first.  The second
snapshot counts when the second step had rows. -/
def goldSnapshots (gold : List GoldRow) : Nat :=
  if gold.any (fun row => row.windowSize ≠ "1m") then 2 else 1

/-- `build_marts`: the dbt models with their tests, then the gold table. -/
def buildMarts (lake : Lake) : Result MartsResult :=
  if lake.bronze.isEmpty then
    raise .runtimeError "no bronze Parquet — run `make replay` first"
  else if GoldTestsPass lake.bronze then
    let gold := goldWindowMetrics lake.bronze
    .ok ⟨gold, goldSnapshots gold⟩
  else raise .runtimeError "dbt build failed"

structure SLAReport where
  latencyP95 : Rat
  completenessPct : Rat
  completenessBySymbol : List (String × Rat)
  goldViolations : Nat

def latencyTarget : Rat := 60
def completenessTarget : Rat := 99

def SLAReport.passed (report : SLAReport) : Bool :=
  report.latencyP95 < latencyTarget &&
    completenessTarget ≤ report.completenessPct && report.goldViolations = 0

/-- The worst symbol's completeness. -/
def worstCompleteness (bySymbol : List (String × Rat)) : Rat :=
  match bySymbol with
  | [] => 100
  | first :: rest => (rest.map Prod.snd).foldl min first.2

def measureSla (bronze : List BronzeRow) (gold : List GoldRow)
    (latencyP95 : Rat) : SLAReport :=
  let bySymbol := completenessBySymbol bronze gold
  { latencyP95 := latencyP95
    completenessPct := worstCompleteness bySymbol
    completenessBySymbol := bySymbol
    goldViolations := goldViolations gold }

/-- What the run meets outside the repository's code. -/
structure Environment where
  uid : String
  clock : Nat → Instant
  delivery : Delivery
  quarantine : DrainScript QuarantineMessage
  bronze : DrainScript RawMessage
  processor : Result Unit
  windows : DrainScript (WindowRecord Rat)
  latencyP95 : List BronzeRow → Rat

structure PipelineResult where
  replayedEvents : Nat
  bronzeRows : Nat
  windowRows : Nat
  goldRows : Nat
  goldSnapshots : Nat
  quarantined : Nat
  latencyP95 : Rat
  completenessPct : Rat
  goldViolations : Nat
  slaPassed : Bool

/-- Topic names of one run. -/
def Settings.isolated (settings : Settings) (uid : String) : Settings :=
  { settings with
    topics :=
      { tradesRaw := "trades.raw." ++ uid
        tickerRaw := "ticker.raw." ++ uid
        metricsWindowed := "metrics.windowed." ++ uid
        quarantine := "contracts.quarantine." ++ uid } }

/-- The stages after the bronze sink. -/
def finishPipeline (env : Environment) (summary : ReplaySummary)
    (bronzeRows : Nat) (lake : Lake) : Result (PipelineResult × Lake) := do
  env.processor
  let landed := landWindows env.windows lake
  let marts ← buildMarts landed.2
  let sla := measureSla landed.2.bronze marts.gold
    (env.latencyP95 landed.2.bronze)
  return (
    { replayedEvents := summary.events
      bronzeRows := bronzeRows
      windowRows := landed.1
      goldRows := marts.gold.length
      goldSnapshots := marts.snapshots
      quarantined := summary.quarantined
      latencyP95 := sla.latencyP95
      completenessPct := sla.completenessPct
      goldViolations := sla.goldViolations
      slaPassed := sla.passed }, landed.2)

/-- Only the quarantine drain is checked against what replay produced. -/
def runPipeline (settings : Settings)
    (fixture : Option (List RecordedMessage)) (env : Environment)
    (lake : Lake) : Result (PipelineResult × Lake) := do
  let run := settings.isolated env.uid
  let summary ← replay run none env.clock fixture env.delivery
  let landed := landQuarantine env.quarantine lake
  if landed.1 ≠ summary.quarantined then
    raise .runtimeError
      ("quarantine landing incomplete: landed " ++ toString landed.1 ++
        " != produced " ++ toString summary.quarantined)
  else do
    let bronze ← writeBronze env.bronze landed.2
    finishPipeline env summary bronze.1 bronze.2

/-- The raw messages the replay of a run publishes. -/
def publishedRaw (settings : Settings)
    (fixture : Option (List RecordedMessage)) (env : Environment) :
    List RawMessage :=
  match fixture with
  | none => []
  | some messages =>
      (replayLoop (settings.isolated env.uid) none env.clock 0 messages).raw

section Stages

variable {settings : Settings} {fixture : Option (List RecordedMessage)}
  {env : Environment} {lake after : Lake} {result : PipelineResult}

theorem replay_eq_ok {summary : ReplaySummary}
    (ran : replay (settings.isolated env.uid) none env.clock fixture
      env.delivery = .ok summary) :
    summary.events = (publishedRaw settings fixture env).length := by
  cases fixture with
  | none => cases ran
  | some messages =>
      unfold replay at ran
      obtain ⟨_, _, ran⟩ := bind_eq_ok_iff.mp ran
      dsimp only at ran
      split_ifs at ran
      · cases ran
      · cases ran
        exact ReplayRun.summary_events _

private theorem publishedRaw_published :
    ∀ message ∈ publishedRaw settings fixture env, IsPublished message := by
  cases fixture with
  | none =>
      intro message member
      cases member
  | some messages => exact replayLoop_published _ _ _ _ _

/-- The later stages keep bronze and pass its row count on. -/
theorem finishPipeline_eq_ok {summary : ReplaySummary} {bronzeRows : Nat}
    (ran : finishPipeline env summary bronzeRows lake =
      .ok (result, after)) :
    result.replayedEvents = summary.events ∧
      result.bronzeRows = bronzeRows ∧ after.bronze = lake.bronze := by
  have kept : (landWindows env.windows lake).2.bronze = lake.bronze := by
    unfold landWindows
    dsimp only
    split_ifs <;> rfl
  unfold finishPipeline at ran
  obtain ⟨_, _, ran⟩ := bind_eq_ok_iff.mp ran
  dsimp only at ran
  obtain ⟨marts, _, ran⟩ := bind_eq_ok_iff.mp ran
  cases ran
  exact ⟨rfl, rfl, kept⟩

/-- What a successful run reports, and what it leaves in bronze. -/
theorem runPipeline_eq_ok
    (delivers : (delivered env.bronze.turns).Subperm
      (publishedRaw settings fixture env))
    (ran : runPipeline settings fixture env lake = .ok (result, after)) :
    result.replayedEvents = (publishedRaw settings fixture env).length ∧
      result.bronzeRows = (env.bronze.rows 30 3).length ∧
        (env.bronze.rows 30 3 ≠ [] →
          after.bronze = (env.bronze.rows 30 3).map RawMessage.value) := by
  have published : ∀ message ∈ delivered env.bronze.turns,
      IsPublished message :=
    fun message member => publishedRaw_published message
      (delivers.subset member)
  unfold runPipeline at ran
  obtain ⟨summary, replayed, ran⟩ := bind_eq_ok_iff.mp ran
  dsimp only at ran
  split_ifs at ran with reconciled
  · cases ran
  rw [writeBronze_eq published] at ran
  obtain ⟨events, rows, bronze⟩ := finishPipeline_eq_ok ran
  refine ⟨events.trans (replay_eq_ok replayed), rows, ?_⟩
  intro occupied
  rw [bronze]
  have notEmpty : (env.bronze.rows 30 3).isEmpty = false := by
    rw [List.isEmpty_eq_false_iff]
    exact occupied
  simp [notEmpty]

/-- The window sink counts its rows and touches no other dataset. -/
theorem landWindows_count_and_frame (script : DrainScript (WindowRecord Rat))
    (lake : Lake) :
    (landWindows script lake).1 = (script.rows 30 3).length ∧
      (landWindows script lake).2.bronze = lake.bronze ∧
      (landWindows script lake).2.quarantine = lake.quarantine ∧
      (script.rows 30 3 ≠ [] →
        (landWindows script lake).2.windows = script.rows 30 3) := by
  simp only [landWindows]
  cases script.rows 30 3 with
  | nil => exact ⟨rfl, rfl, rfl, fun occupied => absurd rfl occupied⟩
  | cons row rest => exact ⟨rfl, rfl, rfl, fun _ => rfl⟩

private theorem buildMarts_eq_ok_iff {marts : MartsResult} :
    buildMarts lake = .ok marts ↔
      lake.bronze ≠ [] ∧ GoldTestsPass lake.bronze ∧
        marts = ⟨goldWindowMetrics lake.bronze,
          goldSnapshots (goldWindowMetrics lake.bronze)⟩ := by
  simp only [buildMarts]
  cases lake.bronze with
  | nil => simp [raise]
  | cons row rest =>
      by_cases pass : GoldTestsPass (row :: rest)
      · simp [pass, eq_comm]
      · simp [pass, raise]

/-- What a run that returns went through: the replay of its fixture, the
reconciled quarantine, the bronze it landed, the processor and the windows, and
the marts and the SLA of the bronze it leaves. -/
structure Completed (settings : Settings) (env : Environment)
    (lake after : Lake) (result : PipelineResult)
    (messages : List RecordedMessage) (landed : Nat × Lake) : Prop where
  replayed : (replayLoop (settings.isolated env.uid) none env.clock 0
    messages).outcome = .ok ()
  reconciled : (env.quarantine.rows 15 3).length =
    (replayLoop (settings.isolated env.uid) none env.clock 0
      messages).quarantined.length
  wrote : writeBronze env.bronze
    { lake with quarantine := env.quarantine.rows 15 3 } = .ok landed
  processed : env.processor = .ok ()
  left : after = (landWindows env.windows landed.2).2
  occupied : after.bronze ≠ []
  tested : GoldTestsPass after.bronze
  report : result =
    { replayedEvents := (publishedRaw settings (some messages) env).length
      bronzeRows := landed.1
      windowRows := (env.windows.rows 30 3).length
      goldRows := (goldWindowMetrics after.bronze).length
      goldSnapshots := goldSnapshots (goldWindowMetrics after.bronze)
      quarantined := (env.quarantine.rows 15 3).length
      latencyP95 := env.latencyP95 after.bronze
      completenessPct := worstCompleteness (completenessBySymbol
        after.bronze (goldWindowMetrics after.bronze))
      goldViolations := goldViolations (goldWindowMetrics after.bronze)
      slaPassed := (measureSla after.bronze (goldWindowMetrics after.bronze)
        (env.latencyP95 after.bronze)).passed }

private theorem replay_completed {summary : ReplaySummary}
    (ran : replay (settings.isolated env.uid) none env.clock fixture
      env.delivery = .ok summary) :
    ∃ messages, fixture = some messages ∧
      (replayLoop (settings.isolated env.uid) none env.clock 0
        messages).outcome = .ok () ∧
      summary = (replayLoop (settings.isolated env.uid) none env.clock 0
        messages).summary := by
  cases fixture with
  | none => cases ran
  | some messages =>
      unfold replay at ran
      obtain ⟨_, ended, ran⟩ := bind_eq_ok_iff.mp ran
      dsimp only at ran
      split_ifs at ran
      · cases ran
      · cases ran
        exact ⟨messages, rfl, ended, rfl⟩

private theorem finishPipeline_completed {summary : ReplaySummary}
    {bronzeRows : Nat}
    (ran : finishPipeline env summary bronzeRows lake =
      .ok (result, after)) :
    env.processor = .ok () ∧
      after = (landWindows env.windows lake).2 ∧
      after.bronze ≠ [] ∧ GoldTestsPass after.bronze ∧
      result =
        { replayedEvents := summary.events
          bronzeRows := bronzeRows
          windowRows := (env.windows.rows 30 3).length
          goldRows := (goldWindowMetrics after.bronze).length
          goldSnapshots := goldSnapshots (goldWindowMetrics after.bronze)
          quarantined := summary.quarantined
          latencyP95 := env.latencyP95 after.bronze
          completenessPct := worstCompleteness (completenessBySymbol
            after.bronze (goldWindowMetrics after.bronze))
          goldViolations := goldViolations (goldWindowMetrics after.bronze)
          slaPassed := (measureSla after.bronze
            (goldWindowMetrics after.bronze)
            (env.latencyP95 after.bronze)).passed } := by
  unfold finishPipeline at ran
  obtain ⟨_, processed, ran⟩ := bind_eq_ok_iff.mp ran
  dsimp only at ran
  obtain ⟨marts, built, ran⟩ := bind_eq_ok_iff.mp ran
  obtain ⟨occupied, tested, rfl⟩ := buildMarts_eq_ok_iff.mp built
  have count := (landWindows_count_and_frame env.windows lake).1
  simp only [pure, Except.pure, Except.ok.injEq, Prod.mk.injEq] at ran
  obtain ⟨reported, rfl⟩ := ran
  refine ⟨processed, rfl, occupied, tested, ?_⟩
  rw [← reported, count]
  simp only [measureSla]

theorem runPipeline_completed
    (ran : runPipeline settings fixture env lake = .ok (result, after)) :
    ∃ messages landed, fixture = some messages ∧
      Completed settings env lake after result messages landed := by
  unfold runPipeline at ran
  obtain ⟨summary, replayed, ran⟩ := bind_eq_ok_iff.mp ran
  have events := replay_eq_ok replayed
  obtain ⟨messages, rfl, ended, rfl⟩ := replay_completed replayed
  dsimp only at ran
  split_ifs at ran with reconciled
  · cases ran
  rw [ne_eq, not_not] at reconciled
  obtain ⟨landed, wrote, ran⟩ := bind_eq_ok_iff.mp ran
  obtain ⟨processed, left, occupied, tested, reported⟩ :=
    finishPipeline_completed ran
  refine ⟨messages, landed, rfl,
    ⟨ended, reconciled, wrote, processed, left, occupied, tested, ?_⟩⟩
  rw [reported, events, ← reconciled]
  rfl

end Stages

/-- The bronze drain gets every published event: the polls deliver them all,
and nothing ends the drain before the last one. -/
def BronzeDrainComplete (settings : Settings)
    (fixture : Option (List RecordedMessage)) (env : Environment) : Prop :=
  (delivered env.bronze.turns).length =
      (publishedRaw settings fixture env).length ∧
    env.bronze.Uncut 30 3

/-- A successful run has every published event in bronze exactly when the
bronze drain was complete. -/
theorem runPipeline_lossless_iff (settings : Settings)
    (fixture : Option (List RecordedMessage)) (env : Environment)
    (lake after : Lake) (result : PipelineResult)
    (delivers : (delivered env.bronze.turns).Subperm
      (publishedRaw settings fixture env))
    (ran : runPipeline settings fixture env lake = .ok (result, after)) :
    (result.bronzeRows = result.replayedEvents ∧
      ((publishedRaw settings fixture env).map RawMessage.value).Subperm
        after.bronze) ↔
      BronzeDrainComplete settings fixture env := by
  obtain ⟨events, rows, bronze⟩ := runPipeline_eq_ok delivers ran
  have fewer := delivers.length_le
  have prefixLength := (env.bronze.rows_initial 30 3).length_le
  simp only [BronzeDrainComplete]
  rw [← env.bronze.rows_length_iff, events, rows]
  constructor
  · intro reconciled
    rcases reconciled with ⟨lengths, _⟩
    exact ⟨by omega, by omega⟩
  · intro delivers
    rcases delivers with ⟨all, uncut⟩
    refine ⟨by omega, ?_⟩
    have whole : env.bronze.rows 30 3 = delivered env.bronze.turns :=
      (env.bronze.rows_initial 30 3).eq_of_length uncut
    have same : (delivered env.bronze.turns).Perm
        (publishedRaw settings fixture env) :=
      delivers.perm_of_length_le (by omega)
    by_cases empty : env.bronze.rows 30 3 = []
    · have nothing : publishedRaw settings fixture env = [] := by
        rw [whole] at empty
        rw [empty] at same
        exact List.nil_perm.mp same
      rw [nothing]
      exact List.nil_subperm
    · rw [bronze empty, whole]
      exact (same.symm.map RawMessage.value).subperm

/-- A fixture of one message with two trades. -/
def twoTradesFixture : List RecordedMessage :=
  let trade (id time : String) : Json :=
    .obj [("product_id", .str "BTC-USD"), ("trade_id", .str id),
      ("price", .str "42000.5"), ("size", .str "0.01"), ("time", .str time),
      ("side", .str "BUY")]
  [{ seq := 1
     tsRecorded := 0
     exchange := "coinbase"
     payload :=
      [("channel", .str "market_trades"),
        ("events", .arr [.obj [("type", .str "update"), ("trades",
          .arr [trade "1" "2026-01-01T00:00:10Z",
            trade "2" "2026-01-01T00:00:20Z"])]])] }]

/-- A drain whose only poll comes back empty after the idle limit. -/
def silentDrain {α : Type} : DrainScript α := ⟨0, 0, [⟨0, .empty, 4⟩]⟩

def quietEnvironment : Environment :=
  { uid := "0"
    clock := fun _ => 0
    delivery := ⟨0, 0, 2⟩
    quarantine := silentDrain
    bronze := silentDrain
    processor := .ok ()
    windows := silentDrain
    latencyP95 := fun _ => 0 }

/-- The bronze drain polls the first event and then nothing for the idle
time. -/
def truncatedEnvironment : Environment :=
  { quietEnvironment with
    bronze :=
      ⟨0, 0, ((publishedRaw sampleSettings (some twoTradesFixture)
          quietEnvironment).take 1).map (fun message =>
            ⟨0, .message message, 1⟩) ++ [⟨1, .empty, 5⟩]⟩ }

/-- The counts a successful run reports: bronze rows and replayed events. -/
def reportedCounts : Result (PipelineResult × Lake) → Option (Nat × Nat)
  | .ok (result, _) => some (result.bronzeRows, result.replayedEvents)
  | .error _ => none

theorem reportedCounts_eq_some {run : Result (PipelineResult × Lake)}
    {rows events : Nat} (reported : reportedCounts run = some (rows, events)) :
    ∃ result after, run = .ok (result, after) ∧ result.bronzeRows = rows ∧
      result.replayedEvents = events := by
  cases run with
  | error failure => cases reported
  | ok outcome =>
      obtain ⟨result, after⟩ := outcome
      cases reported
      exact ⟨result, after, rfl, rfl, rfl⟩

theorem truncated_reported :
    reportedCounts (runPipeline sampleSettings (some twoTradesFixture)
      truncatedEnvironment ⟨[], [], []⟩) = some (1, 2) := by
  decide +kernel

theorem truncated_delivers :
    (delivered truncatedEnvironment.bronze.turns).Subperm
      (publishedRaw sampleSettings (some twoTradesFixture)
        truncatedEnvironment) := by
  have first : delivered truncatedEnvironment.bronze.turns =
      (publishedRaw sampleSettings (some twoTradesFixture)
        truncatedEnvironment).take 1 := by
    decide +kernel
  rw [first]
  exact (List.take_sublist 1 _).subperm

theorem runPipeline_lossless_sample :
    ¬ BronzeDrainComplete sampleSettings (some twoTradesFixture)
      truncatedEnvironment := by
  obtain ⟨result, after, ran, rows, events⟩ :=
    reportedCounts_eq_some truncated_reported
  intro complete
  have lossless := (runPipeline_lossless_iff sampleSettings
    (some twoTradesFixture) truncatedEnvironment ⟨[], [], []⟩ after result
    truncated_delivers ran).mpr complete
  omega

/-- The idle limit ends the bronze drain after one of two published events,
and the run still succeeds. -/
theorem runPipeline_truncated :
    ∃ result after, runPipeline sampleSettings (some twoTradesFixture)
      truncatedEnvironment ⟨[], [], []⟩ = .ok (result, after) ∧
        result.bronzeRows = 1 ∧ result.replayedEvents = 2 :=
  reportedCounts_eq_some truncated_reported

end TickStream
