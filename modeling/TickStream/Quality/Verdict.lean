import TickStream.Pipeline
import TickStream.Quality.Baseline
import TickStream.Quality.GoldInvariants

/-!
# The verdict of a run

A run measures its SLA on the bronze that landed.  The gold tests raise before
the SLA is measured, so a run that returns has no violation to report.  Unless
copies of a trade lie in different minutes it also reports full completeness,
whatever the drain lost; then its verdict is that of the latency.
-/

namespace TickStream

open Python Library

section Tests

variable {bronze : List BronzeRow}

theorem GoldTestsPass.not_missing (pass : GoldTestsPass bronze) :
    ∀ row ∈ goldWindowMetrics bronze,
      ¬ (0 < row.tradeCount && row.vwap.all (fun vwap => vwap ≤ 0)) = true :=
  List.filter_eq_nil_iff.mp pass.vwapPositive

/-- The three violations the SLA counts are three of the gold tests. -/
theorem GoldTestsPass.no_violations (pass : GoldTestsPass bronze) :
    goldViolations (goldWindowMetrics bronze) = 0 := by
  simp only [goldViolations]
  rw [List.countP_eq_zero]
  intro row member violated
  rw [Bool.or_eq_true, Bool.or_eq_true] at violated
  rcases violated with (negative | missing) | miscounted
  · exact List.filter_eq_nil_iff.mp pass.spreadNonNegative row member negative
  · exact pass.not_missing row member missing
  · exact List.filter_eq_nil_iff.mp pass.eventCount row member miscounted

/-- The vwap test fails on a minute of trades without volume. -/
theorem GoldTestsPass.everyMinuteHasVolume (pass : GoldTestsPass bronze) :
    EveryMinuteHasVolume (silverTrades bronze) := by
  apply joinWindows_vwap_iff.mp
  intro row member counted
  have present := pass.not_missing row member
  cases vwap : row.vwap with
  | none => simp [counted, vwap] at present
  | some value =>
      simp only [counted, vwap, decide_true, Option.all_some, Bool.true_and,
        decide_eq_true_eq, not_le] at present
      exact ⟨value, rfl, present⟩

end Tests

/-- The valid trades of one symbol and id lie in one minute. -/
def CopiesShareMinute (rows : List BronzeRow) : Prop :=
  ∀ first ∈ validTrades rows, ∀ second ∈ validTrades rows,
    first.partition = second.partition →
      windowStart first.tsEvent 60 = windowStart second.tsEvent 60

theorem CopiesShareMinute.of_subset {rows other : List BronzeRow}
    (share : CopiesShareMinute rows) (subset : other ⊆ rows) :
    CopiesShareMinute other := by
  have kept : ∀ trade ∈ validTrades other, trade ∈ validTrades rows := by
    intro trade member
    obtain ⟨row, rowMember, valid⟩ := mem_validTrades.mp member
    exact mem_validTrades.mpr ⟨row, subset rowMember, valid⟩
  intro first firstMember second secondMember
  exact share first (kept first firstMember) second (kept second secondMember)

/-- The row silver keeps of a trade then covers its minute. -/
theorem CopiesShareMinute.covered {bronze : List BronzeRow}
    (share : CopiesShareMinute bronze) : EveryValidTradeCovered bronze := by
  intro trade member
  obtain ⟨kept, keptMember, same⟩ :=
    exists_rowNumberOne SilverTrade.partition SilverTrade.precedes member
  have sameSymbol : kept.symbol = trade.symbol := congrArg Prod.fst same
  have sameMinute := share kept (silverTrades_subset keptMember) trade member
    same
  exact Or.inl ⟨kept, keptMember, sameSymbol, sameMinute⟩

private theorem worstCompleteness_hundred {bySymbol : List (String × Rat)}
    (complete : ∀ entry ∈ bySymbol, entry.2 = 100) :
    worstCompleteness bySymbol = 100 := by
  cases bySymbol with
  | nil => rfl
  | cons first rest =>
      simp only [worstCompleteness, complete first (by simp)]
      have others : ∀ entry ∈ rest, entry.2 = 100 := by
        intro entry member
        exact complete entry (List.mem_cons_of_mem first member)
      clear complete
      induction rest with
      | nil => rfl
      | cons entry rest induction =>
          rw [List.map_cons, List.foldl_cons, others entry (by simp), min_self]
          exact induction (fun other member =>
            others other (List.mem_cons_of_mem entry member))

section Run

variable {settings : Settings} {fixture : Option (List RecordedMessage)}
  {env : Environment} {lake after : Lake} {result : PipelineResult}

/-- The SLA of a run that returns is measured on bronze and its gold, which
passes its tests. -/
private theorem runPipeline_sla
    (ran : runPipeline settings fixture env lake = .ok (result, after)) :
    GoldTestsPass after.bronze ∧
      result.completenessPct = worstCompleteness
        (completenessBySymbol after.bronze (goldWindowMetrics after.bronze)) ∧
      result.goldViolations =
        goldViolations (goldWindowMetrics after.bronze) ∧
      result.slaPassed = (result.latencyP95 < latencyTarget &&
        completenessTarget ≤ result.completenessPct &&
          result.goldViolations = 0) := by
  obtain ⟨messages, landed, _, completed⟩ := runPipeline_completed ran
  refine ⟨completed.tested, ?_, ?_, ?_⟩
  · rw [completed.report]
  · rw [completed.report]
  · rw [completed.report]
    rfl

/-- A run that returns reports no violation, and no minute of its silver trades
is without volume.  If its drains deliver what was published, some of it landed,
and the copies of every published trade share a minute, it reports full
completeness and passes exactly when the latency does, whatever part of the
published events it landed. -/
theorem verdict_ignores_losses
    (ran : runPipeline settings fixture env lake = .ok (result, after)) :
    (result.goldViolations = 0 ∧
      EveryMinuteHasVolume (silverTrades after.bronze)) ∧
    ((delivered env.bronze.turns).Subperm (publishedRaw settings fixture env) →
      0 < result.bronzeRows →
      (∀ message ∈ publishedRaw settings fixture env,
        SecondsExact message.value.tsEvent) →
      CopiesShareMinute
        ((publishedRaw settings fixture env).map RawMessage.value) →
      result.completenessPct = 100 ∧
        (result.slaPassed = true ↔ result.latencyP95 < latencyTarget)) := by
  obtain ⟨pass, completeness, violations, passed⟩ := runPipeline_sla ran
  rw [pass.no_violations] at violations
  refine ⟨⟨violations, pass.everyMinuteHasVolume⟩, ?_⟩
  intro delivers occupied exact share
  obtain ⟨_, rows, bronze⟩ := runPipeline_eq_ok delivers ran
  have nonempty : env.bronze.rows 30 3 ≠ [] := by
    intro empty
    rw [empty, List.length_nil] at rows
    omega
  have landed : after.bronze ⊆
      (publishedRaw settings fixture env).map RawMessage.value := by
    rw [bronze nonempty]
    apply List.map_subset
    intro message member
    exact delivers.subset ((env.bronze.rows_initial 30 3).subset member)
  have later : ∀ row ∈ after.bronze, 0 ≤ row.tsEvent := by
    intro row member
    obtain ⟨message, published, rfl⟩ := List.mem_map.mp (landed member)
    exact (exact message published).1
  have covered := (share.of_subset landed).covered
  have full : result.completenessPct = 100 := by
    rw [completeness]
    exact worstCompleteness_hundred (completeness_hundred
      ((expectedWindows_match_iff later).mpr covered))
  have reached : completenessTarget ≤ result.completenessPct := by
    rw [full]
    norm_num [completenessTarget]
  refine ⟨full, ?_⟩
  rw [passed]
  simp [reached, violations]

end Run

/-- The drain that loses one of two events: the run passes. -/
theorem verdict_ignores_losses_sample :
    ∃ result after, runPipeline sampleSettings (some twoTradesFixture)
        truncatedEnvironment ⟨[], [], []⟩ = .ok (result, after) ∧
      result.bronzeRows = 1 ∧ result.replayedEvents = 2 ∧
      result.completenessPct = 100 := by
  obtain ⟨result, after, ran, rows, events⟩ :=
    reportedCounts_eq_some truncated_reported
  have early : ∀ message ∈ publishedRaw sampleSettings
      (some twoTradesFixture) truncatedEnvironment,
      SecondsExact message.value.tsEvent := by
    decide +kernel
  have share : CopiesShareMinute ((publishedRaw sampleSettings
      (some twoTradesFixture) truncatedEnvironment).map RawMessage.value) := by
    simp only [CopiesShareMinute]
    decide +kernel
  exact ⟨result, after, ran, rows, events,
    ((verdict_ignores_losses ran).2 truncated_delivers (by omega) early
      share).1⟩

end TickStream
