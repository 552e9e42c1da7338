import TickStream.Python.Rounding

/-!
# How far rounding moves a number

By half the spacing of the doubles around it, and so by at most `2 ^ -53` of
itself.  Two doubles that differ are further apart, so dividing a double by an
integer never rounds up to the next integer.
-/

namespace TickStream.Python

/-- Up to `2 ^ size` rounding moves a number by half the spacing there. -/
theorem roundToDouble_near {value : Rat} {size : Nat}
    (bounded : |value| ≤ 2 ^ size) (small : size ≤ 52) :
    ∃ double, roundToDouble value = .fin double ∧
      |double - value| ≤ 1 / 2 ^ (54 - size) := by
  have positive : ∀ value : Rat, 0 ≤ value → value ≤ 2 ^ size →
      ∃ double, roundToDouble value = .fin double ∧
        |double - value| ≤ 1 / 2 ^ (54 - size) := by
    intro value nonneg atMost
    rcases nonneg.eq_or_lt with zero | positive
    · subst zero
      refine ⟨0, rfl, ?_⟩
      rw [sub_self, abs_zero]
      positivity
    · rcases atMost.eq_or_lt with full | below
      · have whole : roundToDouble value = .fin ((2 ^ size : Nat) : Rat) := by
          rw [full]
          have fits : 2 ^ size < 2 ^ 53 :=
            Nat.pow_lt_pow_right (by decide) (by omega)
          exact_mod_cast roundToDouble_natCast fits
        refine ⟨_, whole, ?_⟩
        rw [full]
        push_cast
        rw [sub_self, abs_zero]
        positivity
      · obtain ⟨fine, fineLe, same⟩ :=
          roundToDouble_eq_grid positive below (by omega)
        have unit : (0 : Rat) < 2 ^ fine := by positivity
        refine ⟨_, same, ?_⟩
        have near := roundHalfEven_near (value * 2 ^ fine)
        have coarse : (2 : Rat) ^ (53 - size) ≤ 2 ^ fine :=
          pow_le_pow_right₀ (by norm_num) fineLe
        have difference : (roundHalfEven (value * 2 ^ fine) : Rat) / 2 ^ fine -
            value = (roundHalfEven (value * 2 ^ fine) - value * 2 ^ fine) /
              2 ^ fine := by
          field_simp
        have exponent : 54 - size = (53 - size) + 1 := by omega
        rw [difference, abs_div, abs_of_pos unit, exponent, pow_succ,
          div_le_div_iff₀ unit (by positivity)]
        calc |(roundHalfEven (value * 2 ^ fine) : Rat) - value * 2 ^ fine| *
              (2 ^ (53 - size) * 2)
            ≤ 1 / 2 * (2 ^ (53 - size) * 2) :=
              mul_le_mul_of_nonneg_right near (by positivity)
          _ ≤ 1 * 2 ^ fine := by linarith
  rcases le_total 0 value with nonneg | nonpos
  · exact positive value nonneg (le_of_abs_le bounded)
  · obtain ⟨double, rounded, near⟩ := positive (-value) (by linarith)
      (by linarith [neg_le_of_abs_le bounded])
    refine ⟨-double, ?_, ?_⟩
    · rw [← neg_neg value]
      exact roundToDouble_neg rounded
    · have mirrored : -double - value = -(double - -value) := by ring
      rw [mirrored, abs_neg]
      exact near

/-- A number within half a step of a multiple of the spacing is rounded to
it. -/
theorem roundToDouble_eq_steps {value : Rat} {size : Nat}
    (large : 2 ^ size ≤ value) (small : value < 2 ^ (size + 1))
    (bounded : size ≤ 1000) {steps : Int}
    (below : (steps - 1 / 2) * spacing size < value)
    (above : value < (steps + 1 / 2) * spacing size) :
    roundToDouble value = .fin (steps * spacing size) := by
  obtain ⟨nearest, rounded, atLeast, atMost⟩ :=
    roundToDouble_binade large small bounded
  have same : nearest = steps := le_antisymm (atMost steps above)
    (atLeast steps below)
  rw [rounded, same]

/-- A finite double is its nearest multiple of the last bit. -/
theorem roundToDouble_eq_fin {value double : Rat} (nonzero : value ≠ 0)
    (rounded : roundToDouble value = .fin double) :
    double = nearestMultiple value := by
  have definition : roundToDouble value =
      if pow2 1024 ≤ |nearestMultiple value| then .inf (decide (value < 0))
      else .fin (nearestMultiple value) := by
    simp only [roundToDouble, if_neg nonzero, nearestMultiple, ulpExponent,
      pow2_eq_zpow]
  rw [definition] at rounded
  split_ifs at rounded
  cases rounded
  rfl

theorem abs_binaryExponent_spec {value : Rat} (nonzero : value ≠ 0) :
    (2 : Rat) ^ binaryExponent value ≤ |value| ∧
      |value| < 2 ^ (binaryExponent value + 1) := by
  rcases lt_or_gt_of_ne nonzero with negative | positive
  · have mirrored := binaryExponent_spec (by linarith : 0 < -value)
    rw [binaryExponent_neg] at mirrored
    rwa [abs_of_neg negative]
  · rw [abs_of_pos positive]
    exact binaryExponent_spec positive

/-- Rounding moves a normal number by at most `2 ^ -53` of itself. -/
private theorem roundToDouble_relative {value double : Rat}
    (normal : 2 ^ (-1022 : Int) ≤ |value|)
    (rounded : roundToDouble value = .fin double) :
    |double - value| ≤ |value| / 2 ^ 53 := by
  have nonzero : value ≠ 0 := by
    rintro rfl
    rw [abs_zero] at normal
    exact absurd normal (not_le.mpr (by positivity))
  obtain ⟨lower, upper⟩ := abs_binaryExponent_spec nonzero
  have exponent : -1022 ≤ binaryExponent value := by
    have less := lt_of_le_of_lt normal upper
    rw [zpow_lt_zpow_iff_right₀ (by norm_num)] at less
    omega
  have ulp : ulpExponent value = binaryExponent value - 52 := by
    simp only [ulpExponent]
    omega
  have unit : (0 : Rat) < 2 ^ ulpExponent value := by positivity
  have near := roundHalfEven_near (value / 2 ^ ulpExponent value)
  have difference : double - value =
      (roundHalfEven (value / 2 ^ ulpExponent value) -
        value / 2 ^ ulpExponent value) * 2 ^ ulpExponent value := by
    rw [roundToDouble_eq_fin nonzero rounded, nearestMultiple, sub_mul,
      div_mul_cancel₀ _ unit.ne']
  have half : 1 / 2 * (2 : Rat) ^ ulpExponent value =
      2 ^ binaryExponent value / 2 ^ 53 := by
    rw [ulp, zpow_sub₀ (by norm_num)]
    norm_num
    ring
  rw [difference, abs_mul, abs_of_pos unit]
  calc |(roundHalfEven (value / 2 ^ ulpExponent value) : Rat) -
        value / 2 ^ ulpExponent value| * 2 ^ ulpExponent value
      ≤ 1 / 2 * 2 ^ ulpExponent value :=
        mul_le_mul_of_nonneg_right near unit.le
    _ = 2 ^ binaryExponent value / 2 ^ 53 := half
    _ ≤ |value| / 2 ^ 53 := by gcongr

/-- A double is a multiple of a power of two by less than `2 ^ 53`. -/
private theorem exists_steps {value double : Rat}
    (rounded : roundToDouble value = .fin double) :
    ∃ steps exponent : Int, double = steps * 2 ^ exponent ∧
      steps.natAbs < 2 ^ 53 := by
  by_cases zero : value = 0
  · subst zero
    cases rounded
    exact ⟨0, 0, by simp, by decide⟩
  obtain ⟨_, upper⟩ := abs_binaryExponent_spec zero
  have unit : (0 : Rat) < 2 ^ ulpExponent value := by positivity
  have scaled : |value / 2 ^ ulpExponent value| < 2 ^ 53 := by
    rw [abs_div, abs_of_pos unit, div_lt_iff₀ unit]
    apply lt_of_lt_of_le upper
    rw [← zpow_natCast, ← zpow_add₀ (by norm_num)]
    apply zpow_le_zpow_right₀ (by norm_num)
    simp only [ulpExponent]
    push_cast
    omega
  have steps : (roundHalfEven (value / 2 ^ ulpExponent value)).natAbs ≤
      2 ^ 53 := by
    obtain ⟨low, high⟩ := abs_lt.mp scaled
    have above : roundHalfEven (value / 2 ^ ulpExponent value) ≤ 2 ^ 53 := by
      apply roundHalfEven_le
      push_cast
      linarith
    have below : -(2 ^ 53) ≤ roundHalfEven (value / 2 ^ ulpExponent value) := by
      apply le_roundHalfEven
      push_cast
      linarith
    omega
  have double_eq := roundToDouble_eq_fin zero rounded
  simp only [nearestMultiple] at double_eq
  rcases steps.lt_or_eq with less | full
  · exact ⟨_, _, double_eq, less⟩
  · -- The carry into the next binade is one step there.
    refine ⟨roundHalfEven (value / 2 ^ ulpExponent value) / 2,
      ulpExponent value + 1, ?_, by omega⟩
    have even : roundHalfEven (value / 2 ^ ulpExponent value) / 2 * 2 =
        roundHalfEven (value / 2 ^ ulpExponent value) := by
      omega
    rw [double_eq, zpow_add_one₀ (by norm_num), mul_comm _ (2 : Rat),
      ← mul_assoc]
    congr 1
    exact_mod_cast even.symm

/-- An integer other than a double is further from it than rounding reaches. -/
private theorem apart_of_double {value double : Rat}
    (rounded : roundToDouble value = .fin double) (small : |double| < 2 ^ 53)
    {number : Int} (differs : (number : Rat) ≠ double) :
    |double| / 2 ^ 53 < |(number : Rat) - double| := by
  obtain ⟨steps, exponent, rfl, bounded⟩ := exists_steps rounded
  rw [div_lt_iff₀ (by positivity)]
  have size : |(steps : Rat)| < 2 ^ 53 := by
    rw [← Int.cast_abs, Int.abs_eq_natAbs]
    exact_mod_cast bounded
  have unit : (0 : Rat) < 2 ^ exponent := by positivity
  rcases le_or_gt 0 exponent with whole | fraction
  · -- Both are integers.
    obtain ⟨power, rfl⟩ := Int.eq_ofNat_of_zero_le whole
    have integer : ((steps * 2 ^ power : Int) : Rat) =
        (steps : Rat) * 2 ^ (power : Int) := by
      push_cast
      rfl
    rw [← integer] at small differs ⊢
    have gap : 1 ≤ |number - steps * 2 ^ power| := by
      apply Int.one_le_abs
      intro same
      apply differs
      have equal : number = steps * 2 ^ power := by omega
      rw [equal]
    have cast : (1 : Rat) ≤ |(number : Rat) - (steps * 2 ^ power : Int)| := by
      exact_mod_cast gap
    linarith
  · obtain ⟨power, negative⟩ := Int.eq_ofNat_of_zero_le (by omega : 0 ≤ -exponent)
    have inverse : (2 : Rat) ^ exponent = 1 / 2 ^ power := by
      rw [one_div, ← zpow_natCast, ← zpow_neg, ← negative, neg_neg]
    have gap : 1 ≤ |number * 2 ^ power - steps| := by
      apply Int.one_le_abs
      intro same
      apply differs
      have equal : (number : Rat) * 2 ^ power = steps := by
        exact_mod_cast (by omega : number * 2 ^ power = steps)
      rw [inverse, ← equal]
      field_simp
    have cast : (1 : Rat) ≤ |(number : Rat) * 2 ^ power - steps| := by
      exact_mod_cast gap
    have difference : (number : Rat) - steps * 2 ^ exponent =
        (number * 2 ^ power - steps) * 2 ^ exponent := by
      rw [inverse]
      field_simp
    rw [difference, abs_mul, abs_mul, abs_of_pos unit]
    have far : |(steps : Rat)| <
        |(number : Rat) * 2 ^ power - steps| * 2 ^ 53 := by
      linarith
    calc |(steps : Rat)| * 2 ^ exponent
        < |(number : Rat) * 2 ^ power - steps| * 2 ^ 53 * 2 ^ exponent :=
          mul_lt_mul_of_pos_right far unit
      _ = _ := by ring

/-- Dividing a double by an integer crosses no integer. -/
theorem floor_quotient {value double : Rat}
    (rounded : roundToDouble value = .fin double) (small : |double| < 2 ^ 52)
    (normal : double ≠ 0 → 2 ^ (-20 : Int) ≤ |double|) {divisor : Nat}
    (positive : 0 < divisor) (fits : divisor < 2 ^ 53) :
    ∃ quotient, roundToDouble (double / divisor) = .fin quotient ∧
      ⌊quotient⌋ = ⌊double / divisor⌋ := by
  have width : (1 : Rat) ≤ divisor := by exact_mod_cast positive
  have width' : (0 : Rat) < divisor := by linarith
  have shrinks : |double / divisor| ≤ |double| := by
    rw [abs_div, abs_of_pos width']
    exact div_le_self (abs_nonneg _) width
  obtain ⟨quotient, divided, _⟩ :=
    roundToDouble_near (shrinks.trans small.le) le_rfl
  refine ⟨quotient, divided, ?_⟩
  obtain ⟨low, high⟩ := abs_lt.mp (lt_of_le_of_lt shrinks small)
  have floorLe := Int.floor_le (double / divisor)
  have floorLt := Int.lt_floor_add_one (double / divisor)
  generalize ⌊double / divisor⌋ = floor at floorLe floorLt
  rw [Int.floor_eq_iff]
  constructor
  · have whole : roundToDouble (floor : Rat) = .fin floor := by
      apply roundToDouble_intCast
      have above : floor < 2 ^ 52 := by
        exact_mod_cast lt_of_le_of_lt floorLe high
      have below : -(2 ^ 52) < floor + 1 := by
        exact_mod_cast low.trans floorLt
      omega
    have ordered := roundToDouble_mono floorLe
    rw [whole, divided] at ordered
    exact of_decide_eq_true ordered
  · by_contra crossed
    rw [not_lt] at crossed
    by_cases zero : double = 0
    · subst zero
      rw [zero_div] at divided floorLt
      cases divided
      linarith
    · have quotientNormal : 2 ^ (-1022 : Int) ≤ |double / divisor| := by
        rw [abs_div, abs_of_pos width', le_div_iff₀ width']
        have wide : (divisor : Rat) ≤ 2 ^ 53 := by exact_mod_cast fits.le
        calc (2 : Rat) ^ (-1022 : Int) * divisor
            ≤ 2 ^ (-1022 : Int) * 2 ^ 53 := by gcongr
          _ ≤ 2 ^ (-20 : Int) := by
              rw [← zpow_natCast, ← zpow_add₀ (by norm_num)]
              exact zpow_le_zpow_right₀ (by norm_num) (by norm_num)
          _ ≤ |double| := normal zero
      have near := roundToDouble_relative quotientNormal divided
      have beyond : (((floor + 1) * divisor : Int) : Rat) - double =
          ((floor : Rat) + 1 - double / divisor) * divisor := by
        push_cast
        field_simp
      have ahead : 0 < ((floor : Rat) + 1 - double / divisor) * divisor :=
        mul_pos (by linarith) width'
      have differs : (((floor + 1) * divisor : Int) : Rat) ≠ double := by
        intro same
        rw [same, sub_self] at beyond
        linarith
      have apart := apart_of_double rounded (small.trans (by norm_num)) differs
      rw [beyond, abs_of_pos ahead] at apart
      have within : (floor : Rat) + 1 - double / divisor ≤
          |double / divisor| / 2 ^ 53 :=
        (sub_le_sub_right crossed _).trans ((le_abs_self _).trans near)
      have scaled := mul_le_mul_of_nonneg_right within width'.le
      have same : |double / divisor| / 2 ^ 53 * divisor = |double| / 2 ^ 53 := by
        rw [abs_div, abs_of_pos width']
        field_simp
      rw [same] at scaled
      exact absurd scaled (not_le.mpr apart)

end TickStream.Python
