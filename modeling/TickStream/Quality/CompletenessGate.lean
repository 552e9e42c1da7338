import Mathlib.Tactic.NormNum
import TickStream.Pipeline
import TickStream.Python.Rounding
import TickStream.Quality.Completeness

/-!
# The completeness gate

The gate compares the number of a symbol's gold rows with the number of its
expected windows, as a percentage rounded to two decimals.  It promises that
99% of the expected windows themselves are in gold.
-/

namespace TickStream

open Python Library

def SLAReport.completenessOk (report : SLAReport) : Bool :=
  completenessTarget ≤ report.completenessPct

section Counts

variable (bronze : List BronzeRow) (gold : List GoldRow) (symbol : String)

/-- The number of expected windows of a symbol. -/
def expectedCount : Nat :=
  (expectedKeys bronze).countP (fun grain => grain.1 = symbol)

/-- Its expected windows that gold has a row for. -/
def presentCount : Nat :=
  (expectedKeys bronze).countP (fun grain =>
    grain.1 = symbol && (gold.map (fun row => row.key)).contains grain)

/-- Its expected windows without a gold row. -/
def missingCount : Nat :=
  expectedCount bronze symbol - presentCount bronze gold symbol

/-- Its gold rows beyond one for each expected window that is present: rows of
other windows, and repeated ones. -/
def surplusCount : Nat :=
  producedWindows gold symbol - presentCount bronze gold symbol

/-- More than 1% of the symbol's expected windows are missing. -/
def Short : Prop :=
  expectedCount bronze symbol < 100 * missingCount bronze gold symbol

/-- Rows beyond the expected windows, or the rounding, make up for the missing
ones: without the surplus at most 1.005% are missing. -/
def Masked : Prop :=
  Short bronze gold symbol ∧
    20000 * missingCount bronze gold symbol ≤
      201 * expectedCount bronze symbol +
        20000 * surplusCount bronze gold symbol

end Counts

/-- Of every symbol with an expected window at least 99% of the expected
windows are in gold. -/
def EverySymbolCovered (bronze : List BronzeRow) (gold : List GoldRow) : Prop :=
  ∀ symbol, 0 < expectedCount bronze symbol →
    (99 : Rat) / 100 ≤
      (presentCount bronze gold symbol : Rat) / expectedCount bronze symbol

/-- From half below on, an even number is reached. -/
theorem le_roundHalfEven_iff {value : Rat} {bound : Int}
    (even : bound % 2 = 0) :
    bound ≤ roundHalfEven value ↔ (bound : Rat) - 1 / 2 ≤ value := by
  constructor
  · intro reached
    by_contra below
    have near : value < ((bound - 1 : Int) : Rat) + 1 / 2 := by
      push_cast
      linarith
    have rounded := roundHalfEven_le near
    omega
  · intro near
    have floorLt := Rat.lt_floor_add_one value
    push_cast at floorLt
    have floor : bound - 1 ≤ value.floor := by
      by_contra small
      have less : value.floor + 1 ≤ bound - 1 := by omega
      have cast : ((value.floor + 1 : Int) : Rat) ≤
          ((bound - 1 : Int) : Rat) := by
        exact_mod_cast less
      push_cast at cast
      linarith
    by_cases top : value.floor = bound - 1
    · have fraction : ¬ value - value.floor < 1 / 2 := by
        rw [top]
        push_cast
        linarith
      have odd : ¬ value.floor % 2 = 0 := by omega
      simp only [roundHalfEven, if_neg fraction, if_neg odd]
      split_ifs <;> omega
    · simp only [roundHalfEven]
      split_ifs <;> omega

theorem target_le_roundCents_iff (value : Rat) :
    completenessTarget ≤ roundCents value ↔ 19799 / 200 ≤ value := by
  have scaled : completenessTarget ≤ roundCents value ↔
      (9900 : Int) ≤ roundHalfEven (value * 100) := by
    simp only [completenessTarget, roundCents]
    rw [le_div_iff₀ (by norm_num)]
    constructor
    · intro reached
      have cast : ((9900 : Int) : Rat) ≤ roundHalfEven (value * 100) := by
        push_cast
        linarith
      exact_mod_cast cast
    · intro reached
      have cast : ((9900 : Int) : Rat) ≤ roundHalfEven (value * 100) := by
        exact_mod_cast reached
      push_cast at cast
      linarith
  rw [scaled, le_roundHalfEven_iff (by decide)]
  push_cast
  constructor
  · intro reached
    linarith
  · intro reached
    linarith

theorem percent_reaches_iff {produced expected : Nat}
    (positive : 0 < expected) :
    19799 / 200 ≤ (100 * produced : Rat) / expected ↔
      19799 * expected ≤ 20000 * produced := by
  have castPositive : (0 : Rat) < expected := by exact_mod_cast positive
  rw [le_div_iff₀ castPositive, ← Nat.cast_le (α := Rat)]
  push_cast
  constructor
  · intro reached
    linarith
  · intro reached
    linarith

/-- The worst value reaches a bound when every value does. -/
private theorem le_worstCompleteness_iff {bound : Rat} (small : bound ≤ 100)
    (bySymbol : List (String × Rat)) :
    bound ≤ worstCompleteness bySymbol ↔ ∀ entry ∈ bySymbol,
      bound ≤ entry.2 := by
  have folded : ∀ (values : List Rat) (start : Rat),
      bound ≤ values.foldl min start ↔
        bound ≤ start ∧ ∀ value ∈ values, bound ≤ value := by
    intro values
    induction values with
    | nil => simp
    | cons value rest induction =>
        intro start
        rw [List.foldl_cons, induction, le_min_iff, List.forall_mem_cons,
          and_assoc]
  cases bySymbol with
  | nil => simpa [worstCompleteness] using small
  | cons first rest =>
      simp only [worstCompleteness]
      rw [folded, List.forall_mem_cons, List.forall_mem_map]

/-- `round(100.0 * produced / expected, 2)` in doubles.  Up to `2 ^ 40` windows
no rounding moves a symbol across the target. -/
def Double.completeness (produced expected : Nat) : PyFloat :=
  match roundToDouble (100 * produced) with
  | .fin scaled =>
      match roundToDouble (scaled / expected) with
      | .fin percent =>
          roundToDouble ((roundHalfEven (percent * 100) : Rat) / 100)
      | other => other
  | other => other

/-- Around 98.995 doubles are `2 ^ -46` apart.  The double of 98.995 is above
it, and no quotient comes close from below. -/
private theorem double_percent_near_target_iff {produced expected : Nat}
    {percent : Rat} (positive : 0 < expected) (few : expected < 2 ^ 40)
    (high : 64 ≤ (100 * produced : Rat) / expected)
    (middle : (100 * produced : Rat) / expected < 128)
    (rounded : roundToDouble ((100 * produced : Rat) / expected) =
      .fin percent) :
    19799 / 200 ≤ percent ↔ 19799 * expected ≤ 20000 * produced := by
  have expectedPositive : (0 : Rat) < expected := by exact_mod_cast positive
  have castFew : (expected : Rat) < 2 ^ 40 := by exact_mod_cast few
  have unit : spacing 6 = 1 / 2 ^ 46 := by
    have whole := spacing_mul 6
    rw [eq_div_iff (by positivity)]
    linarith
  obtain ⟨steps, binade, above, below⟩ := roundToDouble_binade
    (by norm_num; exact high) (by norm_num; exact middle)
    (by norm_num : 6 ≤ 1000)
  rw [rounded] at binade
  cases binade
  rw [unit] at above below ⊢
  rw [← percent_reaches_iff positive]
  constructor
  · intro reached
    by_contra short
    have missing : (20000 * produced + 1 : Rat) ≤ 19799 * expected := by
      rw [percent_reaches_iff positive, not_le] at short
      exact_mod_cast short
    have atMost := below 6966153829867847 (by
      rw [div_lt_iff₀ expectedPositive]
      push_cast
      linarith)
    have cast : (steps : Rat) ≤ (6966153829867847 : Int) := by
      exact_mod_cast atMost
    push_cast at cast
    linarith
  · intro reached
    have atLeast := above 6966153829867848 (by
      push_cast
      linarith)
    have cast : ((6966153829867848 : Int) : Rat) ≤ steps := by
      exact_mod_cast atLeast
    push_cast at cast
    linarith

/-- A quotient reaches 98.995 in doubles just when it reaches it exactly. -/
private theorem double_percent_reaches_iff {produced expected : Nat}
    {percent : Rat}
    (positive : 0 < expected) (few : expected < 2 ^ 40)
    (fewProduced : produced < 2 ^ 40)
    (rounded : roundToDouble ((100 * produced : Rat) / expected) =
      .fin percent) :
    19799 / 200 ≤ percent ↔ 19799 * expected ≤ 20000 * produced := by
  have expectedPositive : (0 : Rat) < expected := by exact_mod_cast positive
  have castProduced : (produced : Rat) < 2 ^ 40 := by
    exact_mod_cast fewProduced
  have atLeastOne : (1 : Rat) ≤ expected := by exact_mod_cast positive
  have nonneg : (0 : Rat) ≤ (100 * produced : Rat) / expected := by positivity
  have small : (100 * produced : Rat) / expected < 2 ^ 53 := by
    rw [div_lt_iff₀ expectedPositive]
    nlinarith
  rcases lt_or_ge ((100 * produced : Rat) / expected) 64 with low | high
  · have below : percent ≤ (64 : Int) :=
      roundToDouble_le nonneg small rounded (by push_cast; exact low.le)
    push_cast at below
    rw [← percent_reaches_iff positive]
    constructor
    · intro reached
      linarith
    · intro reached
      linarith
  rcases lt_or_ge ((100 * produced : Rat) / expected) 128 with middle | large
  · exact double_percent_near_target_iff positive few high middle rounded
  · obtain ⟨double, same, reaches, _, _⟩ :=
      roundToDouble_bounds nonneg small le_rfl
    rw [rounded] at same
    cases same
    have above := reaches 128 (by push_cast; exact large)
    push_cast at above
    rw [← percent_reaches_iff positive]
    constructor
    · intro _
      linarith
    · intro _
      linarith

/-- Rounded to cents and back to a double, a percentage reaches 99 just when
its cents do. -/
private theorem double_cents_reach_iff {cents : Int} (nonneg : 0 ≤ cents)
    (small : cents < 100 * 2 ^ 53) :
    PyFloat.le (.fin completenessTarget) (roundToDouble ((cents : Rat) / 100)) =
      true ↔ 9900 ≤ cents := by
  have target : ∀ double,
      PyFloat.le (.fin completenessTarget) (.fin double) = true ↔
        99 ≤ double := fun _ => decide_eq_true_iff
  have castNonneg : (0 : Rat) ≤ cents := by exact_mod_cast nonneg
  have valueNonneg : (0 : Rat) ≤ (cents : Rat) / 100 := by positivity
  rcases lt_or_ge cents 9900 with below | reached
  · have castBelow : (cents : Rat) ≤ 9899 := by
      have whole : cents ≤ 9899 := by omega
      exact_mod_cast whole
    obtain ⟨double, same, _, stays, _⟩ := roundToDouble_bounds valueNonneg
      (by linarith : (cents : Rat) / 100 < 2 ^ 7) (by norm_num)
    have less := stays 99 (by push_cast; linarith)
    push_cast at less
    rw [same, target]
    constructor
    · intro reaches
      linarith
    · intro reaches
      omega
  · have castSmall : (cents : Rat) < 100 * 2 ^ 53 := by exact_mod_cast small
    have castReached : (9900 : Rat) ≤ cents := by exact_mod_cast reached
    obtain ⟨double, same, reaches, _, _⟩ := roundToDouble_bounds valueNonneg
      (by linarith : (cents : Rat) / 100 < 2 ^ 53) le_rfl
    have atLeast := reaches 99 (by push_cast; linarith)
    push_cast at atLeast
    rw [same, target]
    exact iff_of_true atLeast reached

/-- The percentage of the source reaches the target just when the exact one
does. -/
theorem double_completeness_reaches_iff {produced expected : Nat}
    (positive : 0 < expected) (few : expected < 2 ^ 40)
    (fewProduced : produced < 2 ^ 40) :
    PyFloat.le (.fin completenessTarget)
        (Double.completeness produced expected) = true ↔
      completenessTarget ≤
        roundCents (100 * produced / (expected : Rat)) := by
  have expectedPositive : (0 : Rat) < expected := by exact_mod_cast positive
  have atLeastOne : (1 : Rat) ≤ expected := by exact_mod_cast positive
  have castProduced : (produced : Rat) < 2 ^ 40 := by
    exact_mod_cast fewProduced
  have nonneg : (0 : Rat) ≤ (100 * produced : Rat) / expected := by positivity
  have small : (100 * produced : Rat) / expected < 2 ^ 47 := by
    rw [div_lt_iff₀ expectedPositive]
    nlinarith
  have scaled : roundToDouble (100 * produced : Rat) =
      .fin (100 * produced) := by
    have exact := roundToDouble_natCast
      (by omega : 100 * produced < 2 ^ 53)
    push_cast at exact
    exact exact
  obtain ⟨percent, rounded, reached, stays, near⟩ :=
    roundToDouble_bounds nonneg small (by norm_num)
  have percentNonneg : 0 ≤ percent := by
    exact_mod_cast reached 0 (by push_cast; exact nonneg)
  have percentSmall : percent < 2 ^ 48 := by
    norm_num at near
    linarith
  have centsNonneg : 0 ≤ roundHalfEven (percent * 100) := by
    apply le_roundHalfEven
    push_cast
    positivity
  have centsSmall : roundHalfEven (percent * 100) < 100 * 2 ^ 53 := by
    have atMost : roundHalfEven (percent * 100) ≤ 100 * 2 ^ 48 := by
      apply roundHalfEven_le
      push_cast
      linarith
    omega
  have cents : 9900 ≤ roundHalfEven (percent * 100) ↔
      19799 / 200 ≤ percent := by
    rw [le_roundHalfEven_iff (by norm_num)]
    push_cast
    constructor
    · intro reaches
      linarith
    · intro reaches
      linarith
  simp only [Double.completeness, scaled, rounded]
  rw [double_cents_reach_iff centsNonneg centsSmall, cents,
    double_percent_reaches_iff positive few fewProduced rounded,
    target_le_roundCents_iff, percent_reaches_iff positive]

section Gate

variable {bronze : List BronzeRow} {gold : List GoldRow}

theorem mem_expectedWindows_iff {symbol : String} {count : Nat} :
    (symbol, count) ∈ (expectedWindowsBySymbol bronze).entries ↔
      0 < expectedCount bronze symbol ∧
        count = expectedCount bronze symbol := by
  have counted : ((expectedWindowsBySymbol bronze).get? symbol).getD 0 =
      expectedCount bronze symbol := expectedWindows_eq bronze symbol
  have positive : ∀ bound, (symbol, bound) ∈
      (expectedWindowsBySymbol bronze).entries → 0 < bound := by
    intro bound member
    refine foldKeyed_value _ _ _ ?_ ?_ member
    · intro _ _
      exact Nat.succ_pos _
    · intro _ _ _ _
      exact Nat.succ_pos _
  rw [← Dict.get?_eq_some_iff] at *
  cases lookup : (expectedWindowsBySymbol bronze).get? symbol with
  | none =>
      rw [lookup, Option.getD_none] at counted
      simp [← counted]
  | some bound =>
      rw [lookup, Option.getD_some] at counted
      have bounded := positive bound ((Dict.get?_eq_some_iff _).mp lookup)
      rw [← counted, Option.some.injEq]
      constructor
      · intro same
        exact ⟨bounded, same.symm⟩
      · intro both
        exact both.2.symm

/-- The gate asks of every symbol with an expected window that its gold rows
come to 98.995% of the number of its expected windows. -/
private theorem completenessOk_iff (latencyP95 : Rat) :
    (measureSla bronze gold latencyP95).completenessOk = true ↔
      ∀ symbol, 0 < expectedCount bronze symbol →
        19799 * expectedCount bronze symbol ≤
          20000 * producedWindows gold symbol := by
  have one : ∀ symbol, 0 < expectedCount bronze symbol →
      (completenessTarget ≤ roundCents (100 * producedWindows gold symbol /
          (expectedCount bronze symbol : Rat)) ↔
        19799 * expectedCount bronze symbol ≤
          20000 * producedWindows gold symbol) := by
    intro symbol expected
    rw [target_le_roundCents_iff]
    exact percent_reaches_iff expected
  have gate : (measureSla bronze gold latencyP95).completenessOk = true ↔
      completenessTarget ≤
        worstCompleteness (completenessBySymbol bronze gold) :=
    decide_eq_true_iff
  rw [gate, le_worstCompleteness_iff (by norm_num [completenessTarget])]
  simp only [completenessBySymbol, List.forall_mem_map]
  constructor
  · intro reached symbol expected
    have entry := reached (symbol, expectedCount bronze symbol)
      (mem_expectedWindows_iff.mpr ⟨expected, rfl⟩)
    exact (one symbol expected).mp entry
  · intro reached entry member
    obtain ⟨symbol, count⟩ := entry
    obtain ⟨expected, rfl⟩ := mem_expectedWindows_iff.mp member
    exact (one symbol expected).mpr (reached symbol expected)

theorem presentCount_le_expected (bronze : List BronzeRow)
    (gold : List GoldRow) (symbol : String) :
    presentCount bronze gold symbol ≤ expectedCount bronze symbol := by
  apply List.countP_mono_left
  intro grain _ present
  rw [Bool.and_eq_true] at present
  exact present.1

/-- Every expected window that is present has a row of its own. -/
private theorem presentCount_le_produced (bronze : List BronzeRow)
    (gold : List GoldRow) (symbol : String) :
    presentCount bronze gold symbol ≤ producedWindows gold symbol := by
  have distinct := (expectedKeys_nodup bronze).filter (fun grain =>
    grain.1 = symbol && (gold.map (fun row => row.key)).contains grain)
  have among : (expectedKeys bronze).filter (fun grain => grain.1 = symbol &&
      (gold.map (fun row => row.key)).contains grain) ⊆
        (gold.map (fun row => row.key)).filter
          (fun grain => grain.1 = symbol) := by
    intro grain member
    obtain ⟨_, kept⟩ := List.mem_filter.mp member
    rw [Bool.and_eq_true, List.contains_iff_mem] at kept
    exact List.mem_filter.mpr ⟨kept.2, kept.1⟩
  have fewer := (List.subperm_of_subset distinct among).length_le
  rw [← List.countP_eq_length_filter, ← List.countP_eq_length_filter,
    List.countP_map] at fewer
  exact fewer

/-- Exact coverage, in whole numbers. -/
private theorem everySymbolCovered_iff :
    EverySymbolCovered bronze gold ↔
      ∀ symbol, 0 < expectedCount bronze symbol →
        ¬ Short bronze gold symbol := by
  simp only [EverySymbolCovered, Short]
  apply forall_congr'
  intro symbol
  apply forall_congr'
  intro expected
  have positive : (0 : Rat) < expectedCount bronze symbol := by
    exact_mod_cast expected
  have bound := presentCount_le_expected bronze gold symbol
  rw [le_div_iff₀ positive, not_lt, ← Nat.cast_le (α := Rat)]
  simp only [missingCount]
  rw [Nat.cast_mul, Nat.cast_sub bound]
  push_cast
  constructor
  · intro covered
    linarith
  · intro covered
    linarith

/-- The gate means what it says exactly when no symbol's missing windows are
masked, or some symbol is short without being masked. -/
theorem completeness_gate_iff (bronze : List BronzeRow)
    (gold : List GoldRow) (latencyP95 : Rat) :
    ((measureSla bronze gold latencyP95).completenessOk = true ↔
        EverySymbolCovered bronze gold) ↔
      (∀ symbol, 0 < expectedCount bronze symbol →
        ¬ Masked bronze gold symbol) ∨
      ∃ symbol, 0 < expectedCount bronze symbol ∧
        Short bronze gold symbol ∧ ¬ Masked bronze gold symbol := by
  -- A symbol passes the gate unless it is short and not masked.
  have passes : ∀ symbol,
      19799 * expectedCount bronze symbol ≤
          20000 * producedWindows gold symbol ↔
        ¬ (Short bronze gold symbol ∧ ¬ Masked bronze gold symbol) := by
    intro symbol
    have expected := presentCount_le_expected bronze gold symbol
    have produced := presentCount_le_produced bronze gold symbol
    simp only [Masked, Short, missingCount, surplusCount]
    omega
  rw [completenessOk_iff, everySymbolCovered_iff]
  simp only [passes]
  constructor
  · intro same
    by_cases hidden : ∃ symbol, 0 < expectedCount bronze symbol ∧
        Short bronze gold symbol ∧ ¬ Masked bronze gold symbol
    · exact Or.inr hidden
    · left
      intro symbol expected masked
      have clean : ∀ other, 0 < expectedCount bronze other →
          ¬ (Short bronze gold other ∧ ¬ Masked bronze gold other) := by
        intro other otherExpected short
        exact hidden ⟨other, otherExpected, short⟩
      exact same.mp clean symbol expected masked.1
  · intro condition
    constructor
    · intro clean symbol expected short
      rcases condition with unmasked | ⟨other, otherExpected, short⟩
      · exact clean symbol expected ⟨short, unmasked symbol expected⟩
      · exact clean other otherExpected short
    · intro covered symbol expected short
      exact covered symbol expected short.1

end Gate

/-- One trade, whose windows gold lacks; gold holds the windows of another
hour instead. -/
def otherHourGold : List GoldRow :=
  goldWindowMetrics [sampleTrade "1" 3605 100 1]

/-- The gate passes a symbol none of whose expected windows is in gold. -/
theorem completeness_gate_masked :
    (measureSla [sampleTrade "1" 5 100 1] otherHourGold 0).completenessOk =
        true ∧
      ¬ EverySymbolCovered [sampleTrade "1" 5 100 1] otherHourGold := by
  constructor
  · decide +kernel
  · intro covered
    have expected : expectedCount [sampleTrade "1" 5 100 1] "BTC-USD" = 2 := by
      decide +kernel
    have present : presentCount [sampleTrade "1" 5 100 1] otherHourGold
        "BTC-USD" = 0 := by
      decide +kernel
    have share := covered "BTC-USD" (by omega)
    rw [expected, present] at share
    norm_num at share

end TickStream
