import Mathlib.Algebra.Order.Field.Power
import Mathlib.Data.Rat.Floor
import Mathlib.Tactic.Linarith
import Mathlib.Tactic.Positivity
import Mathlib.Tactic.Ring
import TickStream.Python.Float

/-!
# What rounding to a double keeps

Below `2 ^ 53` the doubles include the integers, so rounding never crosses
one; it moves a number by at most half the spacing of the doubles there, and it
keeps the order of any two numbers.
-/

namespace TickStream.Python

theorem pow2_eq_zpow (exponent : Int) : pow2 exponent = 2 ^ exponent := by
  simp only [pow2]
  by_cases nonneg : 0 ≤ exponent
  · obtain ⟨size, rfl⟩ := Int.eq_ofNat_of_zero_le nonneg
    simp
  · obtain ⟨size, rfl⟩ := Int.exists_eq_neg_ofNat (by omega : exponent ≤ 0)
    have reciprocal : mkRat 1 (2 ^ size) = (2 ^ size : Rat)⁻¹ := by
      rw [Rat.mkRat_eq_div]
      simp
    rw [if_neg nonneg, neg_neg, Int.toNat_natCast, reciprocal, zpow_neg,
      zpow_natCast]

theorem le_roundHalfEven {value : Rat} {bound : Int}
    (below : (bound : Rat) ≤ value) : bound ≤ roundHalfEven value := by
  have floor : bound ≤ value.floor := Rat.le_floor_iff.mpr below
  simp only [roundHalfEven]
  split_ifs <;> omega

theorem roundHalfEven_le {value : Rat} {bound : Int}
    (near : value < bound + 1 / 2) : roundHalfEven value ≤ bound := by
  have floorLe := Rat.floor_le value
  have floorBound : value.floor ≤ bound := by
    have less : value < ((bound + 1 : Int) : Rat) := by
      push_cast
      linarith
    have step := Rat.floor_lt_iff.mpr less
    omega
  by_cases top : value.floor = bound
  · have fraction : value - value.floor < 1 / 2 := by
      rw [top]
      linarith
    simp only [roundHalfEven, if_pos fraction]
    exact floorBound
  · simp only [roundHalfEven]
    split_ifs <;> omega

theorem le_roundHalfEven_of_near {value : Rat} {bound : Int}
    (near : (bound : Rat) - 1 / 2 < value) : bound ≤ roundHalfEven value := by
  by_cases above : (bound : Rat) ≤ value
  · exact le_roundHalfEven above
  · have floorLe : bound - 1 ≤ value.floor := by
      apply Rat.le_floor_iff.mpr
      push_cast
      linarith
    have floorLt : value.floor < bound := by
      apply Rat.floor_lt_iff.mpr
      exact not_le.mp above
    have floored : value.floor = bound - 1 := by omega
    have fraction : ¬ value - value.floor < 1 / 2 := by
      rw [floored]
      push_cast
      linarith
    have high : 1 / 2 < value - value.floor := by
      rw [floored]
      push_cast
      linarith
    simp only [roundHalfEven, if_neg fraction, if_pos high]
    omega

theorem roundHalfEven_neg (value : Rat) :
    roundHalfEven (-value) = -roundHalfEven value := by
  have floorLe := Rat.floor_le value
  have floorLt := Rat.lt_floor_add_one value
  push_cast at floorLt
  by_cases whole : (value.floor : Rat) = value
  · have mirrored : (-value).floor = -value.floor := by
      rw [← whole, ← Int.cast_neg, Rat.floor_intCast, Rat.floor_intCast]
    simp only [roundHalfEven, mirrored]
    rw [if_pos (by push_cast; linarith), if_pos (by linarith)]
  · have less : (value.floor : Rat) < value := lt_of_le_of_ne floorLe whole
    have mirrored : (-value).floor = -value.floor - 1 := by
      apply le_antisymm
      · apply Int.lt_add_one_iff.mp
        apply Rat.floor_lt_iff.mpr
        push_cast
        linarith
      · apply Rat.le_floor_iff.mpr
        push_cast
        linarith
    have fraction : -value - ((-value).floor : Rat) =
        1 - (value - value.floor) := by
      rw [mirrored]
      push_cast
      ring
    simp only [roundHalfEven, fraction]
    rw [mirrored]
    split_ifs <;> first | omega | (exfalso; linarith)

theorem roundHalfEven_intCast (value : Int) :
    roundHalfEven (value : Rat) = value := by
  apply le_antisymm
  · apply roundHalfEven_le
    linarith
  · exact le_roundHalfEven le_rfl

theorem roundHalfEven_near (value : Rat) :
    |(roundHalfEven value : Rat) - value| ≤ 1 / 2 := by
  have floorLe := Rat.floor_le value
  have floorLt := Rat.lt_floor_add_one value
  push_cast at floorLt
  rw [abs_le]
  simp only [roundHalfEven]
  split_ifs with low high even
  · constructor <;> linarith
  · push_cast
    constructor <;> linarith
  · constructor <;> linarith
  · push_cast
    constructor <;> linarith

theorem binaryExponent_lt {value : Rat} (positive : 0 < value) {size : Nat}
    (small : value < 2 ^ size) : binaryExponent value < size := by
  let guess : Int := Nat.log2 value.num.natAbs - Nat.log2 value.den
  have numPositive : 0 < value.num := Rat.num_pos.mpr positive
  have numBelow : value.num.natAbs < 2 ^ size * value.den := by
    have denPositive : (0 : Rat) < value.den := by exact_mod_cast value.den_pos
    have scaled := mul_lt_mul_of_pos_right small denPositive
    rw [Rat.mul_den_eq_num] at scaled
    have integers : value.num < 2 ^ size * (value.den : Int) := by
      exact_mod_cast scaled
    zify
    rwa [abs_of_pos numPositive]
  have guessLe : guess ≤ size := by
    by_contra large
    have exponents : size + (Nat.log2 value.den + 1) ≤
        Nat.log2 value.num.natAbs := by omega
    have numAtLeast : 2 ^ Nat.log2 value.num.natAbs ≤ value.num.natAbs :=
      Nat.log2_self_le (by omega)
    have product : 2 ^ size * value.den ≤ value.num.natAbs := by
      calc 2 ^ size * value.den
          ≤ 2 ^ size * 2 ^ (Nat.log2 value.den + 1) :=
            Nat.mul_le_mul_left _ Nat.lt_log2_self.le
        _ = 2 ^ (size + (Nat.log2 value.den + 1)) := (Nat.pow_add ..).symm
        _ ≤ 2 ^ Nat.log2 value.num.natAbs :=
            Nat.pow_le_pow_right (by decide) exponents
        _ ≤ value.num.natAbs := numAtLeast
    omega
  have definition : binaryExponent value =
      if |value| < pow2 guess then guess - 1 else guess := rfl
  rw [definition, abs_of_pos positive, pow2_eq_zpow]
  by_cases top : guess = size
  · have below : value < (2 : Rat) ^ guess := by
      rw [top, zpow_natCast]
      exact small
    rw [if_pos below]
    omega
  · split_ifs <;> omega

private theorem le_binaryExponent {value : Rat} {size : Nat}
    (large : 2 ^ size ≤ value) : (size : Int) ≤ binaryExponent value := by
  let guess : Int := Nat.log2 value.num.natAbs - Nat.log2 value.den
  have positive : 0 < value := lt_of_lt_of_le (by positivity) large
  have numPositive : 0 < value.num := Rat.num_pos.mpr positive
  have numAtLeast : 2 ^ size * value.den ≤ value.num.natAbs := by
    have denPositive : (0 : Rat) < value.den := by exact_mod_cast value.den_pos
    have scaled := mul_le_mul_of_nonneg_right large denPositive.le
    rw [Rat.mul_den_eq_num] at scaled
    have integers : 2 ^ size * (value.den : Int) ≤ value.num := by
      exact_mod_cast scaled
    zify
    rwa [abs_of_pos numPositive]
  have leGuess : (size : Int) ≤ guess := by
    have powers : 2 ^ (size + Nat.log2 value.den) <
        2 ^ (Nat.log2 value.num.natAbs + 1) := by
      calc 2 ^ (size + Nat.log2 value.den)
          = 2 ^ size * 2 ^ Nat.log2 value.den := Nat.pow_add ..
        _ ≤ 2 ^ size * value.den :=
            Nat.mul_le_mul_left _ (Nat.log2_self_le value.den_ne_zero)
        _ ≤ value.num.natAbs := numAtLeast
        _ < 2 ^ (Nat.log2 value.num.natAbs + 1) := Nat.lt_log2_self
    have exponents := (Nat.pow_lt_pow_iff_right (by omega)).mp powers
    omega
  have definition : binaryExponent value =
      if |value| < pow2 guess then guess - 1 else guess := rfl
  rw [definition, abs_of_pos positive, pow2_eq_zpow]
  by_cases low : guess = size
  · have above : ¬ value < (2 : Rat) ^ guess := by
      rw [low, zpow_natCast]
      exact not_lt.mpr large
    rw [if_neg above]
    exact leGuess
  · split_ifs <;> omega

/-- Below `2 ^ size` a double is a multiple of `1 / 2 ^ fine` for some `fine`
of at least `53 - size`. -/
theorem roundToDouble_eq_grid {value : Rat} (positive : 0 < value)
    {size : Nat} (small : value < 2 ^ size) (bounded : size ≤ 53) :
    ∃ fine : Nat, 53 - size ≤ fine ∧
      roundToDouble value =
        .fin (roundHalfEven (value * 2 ^ fine) / 2 ^ fine) := by
  have exponent := binaryExponent_lt positive small
  obtain ⟨fine, sameFine⟩ := Int.exists_eq_neg_ofNat
    (by omega : max (binaryExponent value - 52) (-1074) ≤ 0)
  have spacing : pow2 (max (binaryExponent value - 52) (-1074)) =
      (2 ^ fine : Rat)⁻¹ := by
    rw [pow2_eq_zpow, sameFine, zpow_neg, zpow_natCast]
  refine ⟨fine, by omega, ?_⟩
  have unit : (1 : Rat) ≤ 2 ^ fine := one_le_pow₀ (by norm_num)
  have nonneg : 0 ≤ (roundHalfEven (value * 2 ^ fine) : Rat) / 2 ^ fine := by
    have rounded : 0 ≤ roundHalfEven (value * 2 ^ fine) := by
      apply le_roundHalfEven
      push_cast
      positivity
    have cast : (0 : Rat) ≤ roundHalfEven (value * 2 ^ fine) := by
      exact_mod_cast rounded
    positivity
  have finite : (roundHalfEven (value * 2 ^ fine) : Rat) / 2 ^ fine <
      pow2 1024 := by
    have near := (abs_le.mp (roundHalfEven_near (value * 2 ^ fine))).2
    have small53 : value < 2 ^ 53 :=
      small.trans_le (pow_le_pow_right₀ (by norm_num) bounded)
    have room : (2 ^ 53 + 1 : Rat) < pow2 1024 := by
      have large : (2 ^ 54 : Rat) ≤ 2 ^ 1024 :=
        pow_le_pow_right₀ (by norm_num) (by norm_num)
      rw [pow2_eq_zpow, show (1024 : Int) = (1024 : Nat) from rfl,
        zpow_natCast]
      exact lt_of_lt_of_le (by norm_num) large
    rw [div_lt_iff₀ (by positivity)]
    nlinarith
  have definition : roundToDouble value =
      if pow2 1024 ≤ |(roundHalfEven (value / (2 ^ fine : Rat)⁻¹) : Rat) *
          (2 ^ fine : Rat)⁻¹| then .inf (decide (value < 0))
      else .fin ((roundHalfEven (value / (2 ^ fine : Rat)⁻¹) : Rat) *
        (2 ^ fine : Rat)⁻¹) := by
    simp only [roundToDouble, if_neg positive.ne', spacing]
  rw [definition, div_inv_eq_mul, ← div_eq_mul_inv, abs_of_nonneg nonneg,
    if_neg (not_le.mpr finite)]

/-- Rounding a number below `2 ^ size` crosses no integer from above, none
from below unless it comes close, and does not move the number far. -/
theorem roundToDouble_bounds {value : Rat} (nonneg : 0 ≤ value)
    {size : Nat} (small : value < 2 ^ size) (bounded : size ≤ 53) :
    ∃ double, roundToDouble value = .fin double ∧
      (∀ bound : Int, (bound : Rat) ≤ value → (bound : Rat) ≤ double) ∧
      (∀ bound : Int, value + 1 / 2 ^ (54 - size) < bound →
        double < bound) ∧
      double ≤ value + 1 / 2 ^ (54 - size) := by
  rcases nonneg.eq_or_lt with zero | positive
  · subst zero
    refine ⟨0, rfl, fun _ below => below, ?_, by positivity⟩
    intro bound above
    have room : (0 : Rat) < 1 / 2 ^ (54 - size) := by positivity
    linarith
  · obtain ⟨fine, fineLe, same⟩ :=
      roundToDouble_eq_grid positive small bounded
    have unit : (0 : Rat) < 2 ^ fine := by positivity
    -- Half the spacing of the grid is within the allowance.
    have half : 1 / 2 ≤ 1 / 2 ^ (54 - size) * (2 ^ fine : Rat) := by
      have exponent : 54 - size = (53 - size) + 1 := by omega
      have coarse : (2 : Rat) ^ (53 - size) ≤ 2 ^ fine :=
        pow_le_pow_right₀ (by norm_num) fineLe
      rw [exponent, pow_succ, one_div_mul_eq_div,
        le_div_iff₀ (by positivity)]
      linarith
    refine ⟨_, same, ?_, ?_, ?_⟩
    · intro bound below
      rw [le_div_iff₀ unit]
      have scaled : ((bound * 2 ^ fine : Int) : Rat) ≤ value * 2 ^ fine := by
        push_cast
        exact mul_le_mul_of_nonneg_right below unit.le
      exact_mod_cast le_roundHalfEven scaled
    · intro bound above
      rw [div_lt_iff₀ unit]
      have scaled : value * 2 ^ fine <
          ((bound * 2 ^ fine - 1 : Int) : Rat) + 1 / 2 := by
        push_cast
        nlinarith
      have rounded := roundHalfEven_le scaled
      have less : roundHalfEven (value * 2 ^ fine) < bound * 2 ^ fine := by
        omega
      exact_mod_cast less
    · rw [div_le_iff₀ unit]
      have near := (abs_le.mp (roundHalfEven_near (value * 2 ^ fine))).2
      linarith

/-- Below `2 ^ 53` rounding crosses no integer from below. -/
theorem roundToDouble_le {value double : Rat} {bound : Int}
    (nonneg : 0 ≤ value) (small : value < 2 ^ 53)
    (rounded : roundToDouble value = .fin double)
    (atMost : value ≤ bound) : double ≤ bound := by
  rcases nonneg.eq_or_lt with zero | positive
  · subst zero
    cases rounded
    exact atMost
  · obtain ⟨fine, _, same⟩ := roundToDouble_eq_grid positive small le_rfl
    rw [rounded] at same
    cases same
    have unit : (0 : Rat) < 2 ^ fine := by positivity
    rw [div_le_iff₀ unit]
    have scaled : value * 2 ^ fine <
        ((bound * 2 ^ fine : Int) : Rat) + 1 / 2 := by
      push_cast
      have multiplied := mul_le_mul_of_nonneg_right atMost unit.le
      linarith
    have steps := roundHalfEven_le scaled
    exact_mod_cast steps

/-- Integers that fit in 53 bits are doubles. -/
theorem roundToDouble_natCast {number : Nat} (small : number < 2 ^ 53) :
    roundToDouble (number : Rat) = .fin number := by
  have nonneg : (0 : Rat) ≤ number := by positivity
  have cast : (number : Rat) < 2 ^ 53 := by exact_mod_cast small
  obtain ⟨double, same, reached, _, _⟩ :=
    roundToDouble_bounds nonneg cast le_rfl
  rw [same]
  congr 1
  apply le_antisymm
  · exact_mod_cast roundToDouble_le nonneg cast same
      (by push_cast; exact le_rfl : (number : Rat) ≤ (number : Int))
  · exact_mod_cast reached number (by push_cast; exact le_rfl)

/-- Spacing of the doubles from `2 ^ size` to `2 ^ (size + 1)`. -/
def spacing (size : Nat) : Rat := 2 ^ ((size : Int) - 52)

theorem spacing_pos (size : Nat) : 0 < spacing size := by
  simp only [spacing]
  positivity

theorem spacing_mul (size : Nat) : 2 ^ 52 * spacing size = 2 ^ size := by
  simp only [spacing]
  rw [← zpow_natCast, ← zpow_natCast, ← zpow_add₀ (by norm_num)]
  congr 1
  push_cast
  ring

theorem spacing_add (coarse : Nat) :
    spacing (52 + coarse) = 2 ^ coarse := by
  have whole := spacing_mul (52 + coarse)
  rw [pow_add] at whole
  exact mul_left_cancel₀ (by positivity) whole

/-- Between two powers of two a number is rounded to the nearest multiple of
the spacing there. -/
theorem roundToDouble_eq_binade {value : Rat} {size : Nat}
    (large : 2 ^ size ≤ value) (small : value < 2 ^ (size + 1))
    (bounded : size ≤ 1000) :
    roundToDouble value =
      .fin (roundHalfEven (value / spacing size) * spacing size) := by
  have positive : 0 < value := lt_of_lt_of_le (by positivity) large
  have unit := spacing_pos size
  have whole := spacing_mul size
  have exponent : binaryExponent value = size := by
    have upper := binaryExponent_lt positive small
    have lower := le_binaryExponent large
    push_cast at upper
    omega
  have sameUnit : pow2 (max (binaryExponent value - 52) (-1074)) =
      spacing size := by
    rw [pow2_eq_zpow, exponent, max_eq_left (by omega)]
    rfl
  have nonneg :
      0 ≤ (roundHalfEven (value / spacing size) : Rat) * spacing size := by
    have lower : 0 ≤ roundHalfEven (value / spacing size) := by
      apply le_roundHalfEven
      push_cast
      positivity
    have cast : (0 : Rat) ≤ roundHalfEven (value / spacing size) := by
      exact_mod_cast lower
    positivity
  have finite : (roundHalfEven (value / spacing size) : Rat) * spacing size <
      pow2 1024 := by
    have upper : roundHalfEven (value / spacing size) ≤ 2 ^ 53 := by
      apply roundHalfEven_le
      rw [div_lt_iff₀ unit]
      push_cast
      rw [pow_succ] at small
      linarith
    have cast : (roundHalfEven (value / spacing size) : Rat) ≤ 2 ^ 53 := by
      exact_mod_cast upper
    rw [pow2_eq_zpow, show (1024 : Int) = (1024 : Nat) from rfl, zpow_natCast]
    calc (roundHalfEven (value / spacing size) : Rat) * spacing size
        ≤ 2 ^ 53 * spacing size := mul_le_mul_of_nonneg_right cast unit.le
      _ = 2 ^ (size + 1) := by rw [pow_succ 2 size, ← whole]; ring
      _ < 2 ^ 1024 := pow_lt_pow_right₀ (by norm_num) (by omega)
  simp only [roundToDouble, if_neg positive.ne', sameUnit]
  rw [abs_of_nonneg nonneg, if_neg (not_le.mpr finite)]

theorem roundToDouble_binade {value : Rat} {size : Nat}
    (large : 2 ^ size ≤ value) (small : value < 2 ^ (size + 1))
    (bounded : size ≤ 1000) :
    ∃ steps : Int, roundToDouble value = .fin (steps * spacing size) ∧
      (∀ bound : Int, (bound - 1 / 2) * spacing size < value →
        bound ≤ steps) ∧
      ∀ bound : Int, value < (bound + 1 / 2) * spacing size →
        steps ≤ bound := by
  have unit := spacing_pos size
  refine ⟨_, roundToDouble_eq_binade large small bounded, ?_, ?_⟩
  · intro bound near
    apply le_roundHalfEven_of_near
    rwa [lt_div_iff₀ unit]
  · intro bound near
    apply roundHalfEven_le
    rwa [div_lt_iff₀ unit]

theorem binaryExponent_neg (value : Rat) :
    binaryExponent (-value) = binaryExponent value := by
  simp only [binaryExponent, Rat.num_neg_eq_neg_num, Rat.den_neg_eq_den,
    Int.natAbs_neg, abs_neg]

theorem roundToDouble_neg {value double : Rat}
    (rounded : roundToDouble value = .fin double) :
    roundToDouble (-value) = .fin (-double) := by
  simp only [roundToDouble] at rounded ⊢
  by_cases zero : value = 0
  · rw [if_pos zero] at rounded
    cases rounded
    rw [if_pos (neg_eq_zero.mpr zero), neg_zero]
  · rw [if_neg zero] at rounded
    rw [if_neg (neg_ne_zero.mpr zero), binaryExponent_neg, neg_div,
      roundHalfEven_neg]
    push_cast
    rw [neg_mul, abs_neg]
    split_ifs at rounded ⊢ with overflow
    cases rounded
    rfl

theorem roundToDouble_intCast {number : Int}
    (small : number.natAbs < 2 ^ 53) :
    roundToDouble (number : Rat) = .fin number := by
  obtain ⟨size, rfl | rfl⟩ := Int.eq_nat_or_neg number
  · rw [Int.natAbs_natCast] at small
    rw [Int.cast_natCast]
    exact roundToDouble_natCast small
  · rw [Int.natAbs_neg, Int.natAbs_natCast] at small
    rw [Int.cast_neg, Int.cast_natCast]
    exact roundToDouble_neg (roundToDouble_natCast small)

theorem truncate_of_nonneg {value : Rat} (nonneg : 0 ≤ value) :
    truncate value = value.floor := by
  simp only [truncate, if_neg (not_lt.mpr nonneg)]

theorem truncate_neg {value : Rat} (nonneg : 0 ≤ value) :
    truncate (-value) = -value.floor := by
  rcases nonneg.eq_or_lt with zero | positive
  · subst zero
    rfl
  · rw [truncate, if_pos (by linarith), Rat.ceil_eq_neg_floor_neg, neg_neg]

private theorem roundHalfEven_mono {left right : Rat} (le : left ≤ right) :
    roundHalfEven left ≤ roundHalfEven right := by
  have floors : left.floor ≤ right.floor := Rat.floor_monotone le
  have cast : (left.floor : Rat) ≤ right.floor := by exact_mod_cast floors
  by_cases same : left.floor = right.floor
  · have fractions : left - left.floor ≤ right - right.floor := by
      rw [same]
      linarith
    simp only [roundHalfEven]
    rw [same] at fractions ⊢
    split_ifs <;> first | omega | linarith
  · simp only [roundHalfEven]
    split_ifs <;> omega

/-- The exponent is that of the binade the value lies in. -/
theorem binaryExponent_spec {value : Rat} (positive : 0 < value) :
    (2 : Rat) ^ binaryExponent value ≤ value ∧
      value < 2 ^ (binaryExponent value + 1) := by
  let guess : Int := Nat.log2 value.num.natAbs - Nat.log2 value.den
  have numPositive : 0 < value.num := Rat.num_pos.mpr positive
  have denPositive : (0 : Rat) < value.den := by exact_mod_cast value.den_pos
  have product : value * value.den = value.num.natAbs := by
    rw [Rat.mul_den_eq_num]
    have same : ((value.num.natAbs : Int) : Rat) = value.num := by
      rw [Int.natAbs_of_nonneg numPositive.le]
    rw [← same]
    rfl
  have numLower : (2 : Rat) ^ Nat.log2 value.num.natAbs ≤ value.num.natAbs := by
    exact_mod_cast Nat.log2_self_le (by omega)
  have numUpper : (value.num.natAbs : Rat) <
      2 ^ (Nat.log2 value.num.natAbs + 1) := by
    exact_mod_cast Nat.lt_log2_self
  have denLower : (2 : Rat) ^ Nat.log2 value.den ≤ value.den := by
    exact_mod_cast Nat.log2_self_le value.den_ne_zero
  have denUpper : (value.den : Rat) < 2 ^ (Nat.log2 value.den + 1) := by
    exact_mod_cast Nat.lt_log2_self
  have split (shift : Int) : (2 : Rat) ^ (guess + shift) *
      2 ^ Nat.log2 value.den = 2 ^ ((Nat.log2 value.num.natAbs : Int) + shift) := by
    rw [← zpow_natCast, ← zpow_add₀ (by norm_num)]
    congr 1
    simp only [guess]
    ring
  have below : (2 : Rat) ^ (guess - 1) ≤ value := by
    by_contra less
    rw [not_le] at less
    have scaled := mul_lt_mul_of_pos_right less denPositive
    rw [product] at scaled
    have bounded := mul_lt_mul_of_pos_left denUpper
      (by positivity : (0 : Rat) < 2 ^ (guess - 1))
    rw [pow_succ, ← mul_assoc] at bounded
    have top : (2 : Rat) ^ ((Nat.log2 value.num.natAbs : Int) + -1) * 2 =
        2 ^ Nat.log2 value.num.natAbs := by
      rw [← zpow_add_one₀ (by norm_num), neg_add_cancel_right, zpow_natCast]
    rw [sub_eq_add_neg] at scaled bounded
    rw [split (-1), top] at bounded
    linarith
  have above : value < (2 : Rat) ^ (guess + 1) := by
    by_contra more
    rw [not_lt] at more
    have scaled := mul_le_mul_of_nonneg_right more denPositive.le
    rw [product] at scaled
    have bounded := mul_le_mul_of_nonneg_left denLower
      (by positivity : (0 : Rat) ≤ 2 ^ (guess + 1))
    rw [split 1] at bounded
    have cast : (2 : Rat) ^ ((Nat.log2 value.num.natAbs : Int) + 1) =
        2 ^ (Nat.log2 value.num.natAbs + 1) := by
      rw [← zpow_natCast]
      congr 1
    rw [cast] at bounded
    linarith
  have definition : binaryExponent value =
      if |value| < pow2 guess then guess - 1 else guess := rfl
  rw [definition, abs_of_pos positive, pow2_eq_zpow]
  split_ifs with low
  · rw [sub_add_cancel]
    exact ⟨below, low⟩
  · exact ⟨not_lt.mp low, above⟩

/-- The exponent of the last bit of the double nearest to `value`. -/
def ulpExponent (value : Rat) : Int := max (binaryExponent value - 52) (-1074)

/-- The nearest multiple of the last bit, before overflow is looked for. -/
def nearestMultiple (value : Rat) : Rat :=
  roundHalfEven (value / 2 ^ ulpExponent value) * 2 ^ ulpExponent value

theorem nearestMultiple_nonneg {value : Rat} (nonneg : 0 ≤ value) :
    0 ≤ nearestMultiple value := by
  have rounded : 0 ≤ roundHalfEven (value / 2 ^ ulpExponent value) := by
    apply le_roundHalfEven
    push_cast
    positivity
  have cast : (0 : Rat) ≤ roundHalfEven (value / 2 ^ ulpExponent value) := by
    exact_mod_cast rounded
  simp only [nearestMultiple]
  positivity

theorem nearestMultiple_neg (value : Rat) :
    nearestMultiple (-value) = -nearestMultiple value := by
  simp only [nearestMultiple, ulpExponent, binaryExponent_neg, neg_div,
    roundHalfEven_neg]
  push_cast
  rw [neg_mul]

theorem roundToDouble_of_pos {value : Rat} (positive : 0 < value) :
    roundToDouble value =
      if 2 ^ 1024 ≤ nearestMultiple value then .inf false
      else .fin (nearestMultiple value) := by
  have nonneg := nearestMultiple_nonneg positive.le
  have top : pow2 1024 = 2 ^ 1024 := by
    rw [pow2_eq_zpow]
    exact zpow_natCast 2 1024
  have definition : roundToDouble value =
      if pow2 1024 ≤ |nearestMultiple value| then .inf (decide (value < 0))
      else .fin (nearestMultiple value) := by
    simp only [roundToDouble, if_neg positive.ne', pow2_eq_zpow]
    rfl
  rw [definition, abs_of_nonneg nonneg, top, decide_eq_false (not_lt.mpr positive.le)]

/-- A power of two from the last bit on is a multiple of it. -/
theorem zpow_eq_multiple {exponent last : Int} (le : last ≤ exponent) :
    ∃ steps : Int, (2 : Rat) ^ exponent = steps * 2 ^ last := by
  obtain ⟨shift, same⟩ := Int.eq_ofNat_of_zero_le (by omega : 0 ≤ exponent - last)
  refine ⟨2 ^ shift, ?_⟩
  push_cast
  rw [← zpow_natCast, ← zpow_add₀ (by norm_num)]
  congr 1
  omega

theorem nearestMultiple_mono_of_pos {left right : Rat} (positive : 0 < left)
    (le : left ≤ right) : nearestMultiple left ≤ nearestMultiple right := by
  have leftSpec := binaryExponent_spec positive
  have rightSpec := binaryExponent_spec (positive.trans_le le)
  have exponents : binaryExponent left ≤ binaryExponent right := by
    have less : (2 : Rat) ^ binaryExponent left < 2 ^ (binaryExponent right + 1) :=
      leftSpec.1.trans_lt (le.trans_lt rightSpec.2)
    have := (zpow_lt_zpow_iff_right₀ (by norm_num : (1 : Rat) < 2)).mp less
    omega
  have leftUnit : (0 : Rat) < 2 ^ ulpExponent left := by positivity
  have rightUnit : (0 : Rat) < 2 ^ ulpExponent right := by positivity
  by_cases same : ulpExponent left = ulpExponent right
  · simp only [nearestMultiple, same]
    apply mul_le_mul_of_nonneg_right _ rightUnit.le
    exact_mod_cast roundHalfEven_mono
      (div_le_div_of_nonneg_right le rightUnit.le)
  · -- The power of two between them is a multiple of both last bits.
    have finer : ulpExponent left < ulpExponent right := by
      simp only [ulpExponent] at same ⊢
      omega
    have rightNormal : ulpExponent right = binaryExponent right - 52 := by
      simp only [ulpExponent] at finer ⊢
      omega
    have lower : binaryExponent left + 1 ≤ binaryExponent right := by
      simp only [ulpExponent] at finer
      omega
    obtain ⟨leftSteps, leftSame⟩ := zpow_eq_multiple
      (by omega : ulpExponent left ≤ binaryExponent right)
    obtain ⟨rightSteps, rightSame⟩ := zpow_eq_multiple
      (by omega : ulpExponent right ≤ binaryExponent right)
    have below : left ≤ 2 ^ binaryExponent right :=
      leftSpec.2.le.trans (zpow_le_zpow_right₀ (by norm_num) lower)
    calc nearestMultiple left
        ≤ leftSteps * 2 ^ ulpExponent left := by
          apply mul_le_mul_of_nonneg_right _ leftUnit.le
          have quotient : left / 2 ^ ulpExponent left ≤ leftSteps := by
            rwa [div_le_iff₀ leftUnit, ← leftSame]
          have steps : roundHalfEven (left / 2 ^ ulpExponent left) ≤
              leftSteps := by
            apply roundHalfEven_le
            linarith
          exact_mod_cast steps
      _ = rightSteps * 2 ^ ulpExponent right := by rw [← leftSame, rightSame]
      _ ≤ nearestMultiple right := by
          apply mul_le_mul_of_nonneg_right _ rightUnit.le
          have quotient : (rightSteps : Rat) ≤ right / 2 ^ ulpExponent right := by
            rw [le_div_iff₀ rightUnit, ← rightSame]
            exact rightSpec.1
          exact_mod_cast le_roundHalfEven quotient

theorem nearestMultiple_mono {left right : Rat} (le : left ≤ right) :
    nearestMultiple left ≤ nearestMultiple right := by
  rcases lt_or_ge 0 left with positive | nonpos
  · exact nearestMultiple_mono_of_pos positive le
  · rcases lt_or_ge right 0 with negative | nonneg
    · have mirrored := nearestMultiple_mono_of_pos
        (by linarith : 0 < -right) (by linarith : -right ≤ -left)
      rw [nearestMultiple_neg, nearestMultiple_neg] at mirrored
      exact neg_le_neg_iff.mp mirrored
    · have below := nearestMultiple_nonneg (by linarith : 0 ≤ -left)
      rw [nearestMultiple_neg] at below
      exact (neg_nonneg.mp below).trans (nearestMultiple_nonneg nonneg)

theorem roundToDouble_negate (value : Rat) :
    roundToDouble (-value) = (roundToDouble value).negate := by
  simp only [roundToDouble]
  by_cases zero : value = 0
  · subst zero
    rfl
  · rw [if_neg zero, if_neg (neg_ne_zero.mpr zero), binaryExponent_neg, neg_div,
      roundHalfEven_neg]
    push_cast
    rw [neg_mul, abs_neg]
    split_ifs with overflow
    · simp only [PyFloat.negate, PyFloat.inf.injEq]
      rcases lt_or_gt_of_ne zero with before | after
      · simp [before, before.le]
      · simp [after, after.le]
    · rfl

/-- Finite doubles and infinities are in order. -/
theorem PyFloat.le_negate {left right : PyFloat} (le : left.le right = true) :
    right.negate.le left.negate = true := by
  cases left with
  | nan => cases le
  | inf negative =>
      cases right with
      | nan => cases le
      | inf other => cases negative <;> cases other <;> simp_all [PyFloat.le, negate]
      | fin value => cases negative <;> simp_all [PyFloat.le, negate]
  | fin value =>
      cases right with
      | nan => cases le
      | inf other => cases other <;> simp_all [PyFloat.le, negate]
      | fin other => simp_all [PyFloat.le, negate]

theorem roundToDouble_nonneg {value : Rat} (nonneg : 0 ≤ value) :
    (PyFloat.fin 0).le (roundToDouble value) = true := by
  rcases nonneg.eq_or_lt with zero | positive
  · subst zero
    rfl
  · have rounded := nearestMultiple_nonneg positive.le
    rw [roundToDouble_of_pos positive]
    split_ifs
    · rfl
    · simpa [PyFloat.le] using rounded

theorem roundToDouble_mono_of_pos {left right : Rat} (positive : 0 < left)
    (le : left ≤ right) :
    (roundToDouble left).le (roundToDouble right) = true := by
  have ordered := nearestMultiple_mono_of_pos positive le
  rw [roundToDouble_of_pos positive, roundToDouble_of_pos (positive.trans_le le)]
  split_ifs with leftLarge rightLarge
  · rfl
  · exact absurd (leftLarge.trans ordered) rightLarge
  · rfl
  · simpa [PyFloat.le] using ordered

theorem PyFloat.le_trans {first second third : PyFloat}
    (before : first.le second = true) (after : second.le third = true) :
    first.le third = true := by
  cases first <;> cases second <;> cases third <;>
    simp_all [PyFloat.le] <;> grind

theorem PyFloat.lt_of_lt_of_le {first second third : PyFloat}
    (before : first.lt second = true) (after : second.le third = true) :
    first.lt third = true := by
  cases first <;> cases second <;> cases third <;>
    simp_all [PyFloat.le, PyFloat.lt]
  grind

/-- Rounding to a double keeps the order. -/
theorem roundToDouble_mono {left right : Rat} (le : left ≤ right) :
    (roundToDouble left).le (roundToDouble right) = true := by
  rcases lt_or_ge 0 left with positive | nonpos
  · exact roundToDouble_mono_of_pos positive le
  · rcases lt_or_ge right 0 with negative | nonneg
    · have mirrored := PyFloat.le_negate
        (roundToDouble_mono_of_pos (by linarith : 0 < -right)
          (by linarith : -right ≤ -left))
      rwa [← roundToDouble_negate, ← roundToDouble_negate, neg_neg, neg_neg]
        at mirrored
    · have below := PyFloat.le_negate
        (roundToDouble_nonneg (by linarith : 0 ≤ -left))
      rw [← roundToDouble_negate, neg_neg] at below
      exact PyFloat.le_trans below (roundToDouble_nonneg nonneg)

end TickStream.Python
