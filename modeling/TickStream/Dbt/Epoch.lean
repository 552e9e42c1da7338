import TickStream.Dbt.Dedup
import TickStream.Processing.Seconds
import TickStream.Python.Arithmetic
import TickStream.Python.RoundingError

/-!
# The epoch of the macro

DuckDB's `epoch` of a timestamp with time zone is a double: its whole
milliseconds as seconds, and the microseconds left over added to them.  From
`2 ^ 33` seconds on their sum can be rounded up to the second that follows.
-/

namespace TickStream

open Python Library

/-- `epoch(ts)`. -/
def epoch (tsCol : Instant) : PyFloat :=
  roundToDouble ((tsCol / 1000 : Int) / 1000) +
    roundToDouble ((tsCol % 1000 : Int) / 10 ^ 6)

/-- The `window_start` macro on doubles. -/
def Double.windowStart (tsCol : Instant) (seconds : Nat) : Option Instant :=
  match epoch tsCol / (seconds : PyFloat) with
  | .fin quotient => some (⌊quotient⌋ * seconds * microsPerSecond)
  | _ => none

/-- How many microseconds below a whole second the epoch is rounded up to
it. -/
def epochCarry (micros : Nat) : Nat :=
  match Nat.log2 (micros / 10 ^ 6) with
  | 33 => 1
  | 34 => 2
  | 35 => 4
  | 37 => 8
  | _ => 0

/-- The instant whose whole seconds the epoch of `tsCol` reaches. -/
def epochReading (tsCol : Instant) : Instant :=
  tsCol + epochCarry tsCol.natAbs

private theorem epochCarry_le (micros : Nat) : epochCarry micros ≤ 8 := by
  simp only [epochCarry]
  split <;> omega

theorem epochCarry_eq_zero {micros : Nat} (early : micros < 2 ^ 33 * 10 ^ 6) :
    epochCarry micros = 0 := by
  have log : Nat.log2 (micros / 10 ^ 6) < 33 := by
    by_cases zero : micros / 10 ^ 6 = 0
    · rw [zero]
      decide
    · rw [Nat.log2_lt zero]
      omega
  simp only [epochCarry]
  split <;> omega

/-- Until the year 2242 the epoch reaches no second early. -/
theorem epochReading_eq_self {tsCol : Int}
    (early : tsCol.natAbs < 2 ^ 33 * 10 ^ 6) : epochReading tsCol = tsCol := by
  rw [epochReading, epochCarry_eq_zero early]
  exact add_zero tsCol

/-- Rounding moves no number across an integer. -/
theorem le_of_rounded {value double : Rat} {number : Int}
    (bounded : |value| ≤ 2 ^ 52) (rounded : roundToDouble value = .fin double)
    (le : (number : Rat) ≤ value) : (number : Rat) ≤ double := by
  obtain ⟨low, high⟩ := abs_le.mp bounded
  have above : number ≤ 2 ^ 52 := by exact_mod_cast le.trans high
  by_cases small : number.natAbs < 2 ^ 53
  · have ordered := roundToDouble_mono le
    rw [roundToDouble_intCast small, rounded] at ordered
    exact of_decide_eq_true ordered
  · obtain ⟨other, same, near⟩ := roundToDouble_near bounded le_rfl
    rw [rounded] at same
    cases same
    have far : number ≤ -(2 ^ 53) := by omega
    have cast : (number : Rat) ≤ -(2 ^ 53) := by exact_mod_cast far
    have close := (abs_le.mp near).1
    norm_num at close
    linarith

/-- The doubles `epoch` computes for an instant. -/
structure EpochParts (tsCol : Int) (whole part seconds : Rat) : Prop where
  millis : roundToDouble ((tsCol / 1000 : Int) / 1000) = .fin whole
  micros : roundToDouble ((tsCol % 1000 : Int) / 10 ^ 6) = .fin part
  sum : roundToDouble (whole + part) = .fin seconds
  nonneg : 0 ≤ part
  near : |part - (tsCol % 1000 : Int) / 10 ^ 6| ≤ 1 / 2 ^ 54

section Parts

variable {tsCol : Int} {whole part seconds : Rat} {size : Nat}

theorem millis_bounded (bounded : tsCol.natAbs ≤ 2 ^ size * 10 ^ 6) :
    |(((tsCol / 1000 : Int) : Rat) / 1000)| ≤ 2 ^ size := by
  have limit : |tsCol / 1000| ≤ 2 ^ size * 1000 := by
    rw [abs_le]
    have cast : (tsCol.natAbs : Int) ≤ 2 ^ size * 10 ^ 6 := by
      exact_mod_cast bounded
    generalize (2 : Int) ^ size = power at *
    omega
  rw [abs_div, div_le_iff₀ (by norm_num)]
  have cast : |((tsCol / 1000 : Int) : Rat)| ≤ 2 ^ size * 1000 := by
    exact_mod_cast limit
  simpa using cast

theorem micros_bounds (tsCol : Int) :
    (0 : Rat) ≤ (tsCol % 1000 : Int) / 10 ^ 6 ∧
      ((tsCol % 1000 : Int) : Rat) / 10 ^ 6 ≤ 999 / 10 ^ 6 := by
  have low : (0 : Rat) ≤ (tsCol % 1000 : Int) := by
    exact_mod_cast Int.emod_nonneg tsCol (by decide)
  have high : ((tsCol % 1000 : Int) : Rat) ≤ 999 := by
    exact_mod_cast Int.le_of_lt_add_one (Int.emod_lt_of_pos tsCol (by decide))
  constructor
  · positivity
  · gcongr

/-- An instant is its milliseconds and what they leave. -/
theorem parts_sum (tsCol : Int) :
    ((tsCol / 1000 : Int) : Rat) / 1000 + (tsCol % 1000 : Int) / 10 ^ 6 =
      tsCol / 10 ^ 6 := by
  have split : (1000 * (tsCol / 1000) + tsCol % 1000 : Int) = tsCol :=
    Int.mul_ediv_add_emod tsCol 1000
  have cast : (1000 * (tsCol / 1000 : Int) + (tsCol % 1000 : Int) : Rat) =
      tsCol := by
    exact_mod_cast split
  rw [← cast]
  ring

/-- No instant of the datetimes has a sum beyond `2 ^ 39`. -/
theorem parts_bounded (bounded : tsCol.natAbs ≤ 2 ^ 38 * 10 ^ 6)
    (wholeNear : |whole - ((tsCol / 1000 : Int) : Rat) / 1000| ≤
      1 / 2 ^ (54 - 38))
    (near : |part - (tsCol % 1000 : Int) / 10 ^ 6| ≤ 1 / 2 ^ 54)
    (nonneg : 0 ≤ part) : |whole + part| ≤ 2 ^ 39 := by
  obtain ⟨below, above⟩ := abs_le.mp (millis_bounded bounded)
  obtain ⟨wholeBelow, wholeAbove⟩ := abs_le.mp wholeNear
  obtain ⟨_, partAbove⟩ := abs_le.mp near
  obtain ⟨_, high⟩ := micros_bounds tsCol
  rw [abs_le]
  constructor <;> norm_num at * <;> linarith

private theorem exists_epochParts (bounded : tsCol.natAbs ≤ 2 ^ 38 * 10 ^ 6) :
    ∃ whole part seconds, EpochParts tsCol whole part seconds := by
  obtain ⟨low, high⟩ := micros_bounds tsCol
  obtain ⟨whole, millis, wholeNear⟩ :=
    roundToDouble_near (millis_bounded bounded) (by norm_num)
  have partSmall : |((tsCol % 1000 : Int) : Rat) / 10 ^ 6| ≤ 2 ^ 0 := by
    rw [abs_of_nonneg low]
    exact high.trans (by norm_num)
  obtain ⟨part, micros, near⟩ := roundToDouble_near partSmall (by norm_num)
  have nonneg : 0 ≤ part := by
    have ordered : ((0 : Int) : Rat) ≤ part :=
      le_of_rounded (partSmall.trans (by norm_num)) micros
        (by exact_mod_cast low)
    exact_mod_cast ordered
  have sumSmall := parts_bounded bounded wholeNear near nonneg
  obtain ⟨seconds, sum, _⟩ := roundToDouble_near sumSmall (by norm_num)
  exact ⟨whole, part, seconds, millis, micros, sum, nonneg, near⟩

theorem EpochParts.whole_near (parts : EpochParts tsCol whole part seconds)
    (bounded : tsCol.natAbs ≤ 2 ^ size * 10 ^ 6) (small : size ≤ 52) :
    |whole - ((tsCol / 1000 : Int) : Rat) / 1000| ≤ 1 / 2 ^ (54 - size) := by
  obtain ⟨double, rounded, near⟩ :=
    roundToDouble_near (millis_bounded bounded) small
  rw [parts.millis] at rounded
  cases rounded
  exact near

theorem EpochParts.sum_bounded (parts : EpochParts tsCol whole part seconds)
    (bounded : tsCol.natAbs ≤ 2 ^ 38 * 10 ^ 6) : |whole + part| ≤ 2 ^ 39 :=
  parts_bounded bounded (parts.whole_near bounded (by norm_num)) parts.near
    parts.nonneg

/-- The epoch reaches the seconds the instant has reached. -/
theorem EpochParts.reaches (parts : EpochParts tsCol whole part seconds)
    (bounded : tsCol.natAbs ≤ 2 ^ 38 * 10 ^ 6) {second : Int}
    (passed : second * 1000000 ≤ tsCol) : (second : Rat) ≤ seconds := by
  have millis : second * 1000 ≤ tsCol / 1000 := by omega
  have reached : (second : Rat) ≤ ((tsCol / 1000 : Int) : Rat) / 1000 := by
    rw [le_div_iff₀ (by norm_num)]
    exact_mod_cast millis
  have wide : (2 : Rat) ^ 38 ≤ 2 ^ 52 := by norm_num
  have whole := le_of_rounded ((millis_bounded bounded).trans wide)
    parts.millis reached
  apply le_of_rounded ((parts.sum_bounded bounded).trans (by norm_num))
    parts.sum
  linarith [parts.nonneg]

/-- The epoch of a datetime is off by less than a ten-thousandth. -/
theorem EpochParts.error (parts : EpochParts tsCol whole part seconds)
    (bounded : tsCol.natAbs ≤ 2 ^ 38 * 10 ^ 6) :
    |seconds - tsCol / 10 ^ 6| ≤ 1 / 2 ^ 14 := by
  obtain ⟨wholeBelow, wholeAbove⟩ :=
    abs_le.mp (parts.whole_near bounded (by norm_num))
  obtain ⟨partBelow, partAbove⟩ := abs_le.mp parts.near
  obtain ⟨double, rounded, sumNear⟩ :=
    roundToDouble_near (parts.sum_bounded bounded) (by norm_num)
  rw [parts.sum] at rounded
  cases rounded
  obtain ⟨sumBelow, sumAbove⟩ := abs_le.mp sumNear
  have exact := parts_sum tsCol
  rw [abs_le]
  constructor <;> norm_num at * <;> linarith

/-- More than a millisecond before a second the epoch does not reach it. -/
theorem EpochParts.far (parts : EpochParts tsCol whole part seconds)
    (bounded : tsCol.natAbs ≤ 2 ^ 38 * 10 ^ 6) {second : Int}
    (before : tsCol + 1000 < second * 1000000) : seconds < second := by
  obtain ⟨_, above⟩ := abs_le.mp (parts.error bounded)
  have cast : (tsCol : Rat) + 1000 < second * 1000000 := by
    exact_mod_cast before
  norm_num at above
  linarith

/-- Below `2 ^ 33` seconds it reaches no second before the instant has. -/
theorem EpochParts.early (parts : EpochParts tsCol whole part seconds)
    (bounded : tsCol.natAbs < 2 ^ 33 * 10 ^ 6) {second : Int}
    (near : second * 1000000 ≤ tsCol + 1000)
    (before : tsCol < second * 1000000) : seconds < second := by
  have within : tsCol.natAbs ≤ 2 ^ 33 * 10 ^ 6 := bounded.le
  obtain ⟨below, _⟩ := abs_le.mp (millis_bounded within)
  obtain ⟨_, wholeAbove⟩ := abs_le.mp (parts.whole_near within (by norm_num))
  obtain ⟨_, partAbove⟩ := abs_le.mp parts.near
  have exact := parts_sum tsCol
  have cast : (tsCol : Rat) + 1 ≤ second * 1000000 := by
    exact_mod_cast before
  have sumBelow : whole + part + 1 / 2 ^ 21 < second := by
    norm_num at wholeAbove partAbove ⊢
    linarith
  have wholeLow : (-(2 ^ 33) : Rat) ≤ whole := by
    have reached : ((-(2 ^ 33) : Int) : Rat) ≤ whole :=
      le_of_rounded ((millis_bounded within).trans (by norm_num)) parts.millis
        (by exact_mod_cast below)
    exact_mod_cast reached
  have secondSmall : (second : Rat) ≤ 2 ^ 33 := by
    have small : second ≤ 2 ^ 33 := by omega
    exact_mod_cast small
  have sumSmall : |whole + part| ≤ 2 ^ 33 := by
    rw [abs_le]
    have nonneg := parts.nonneg
    constructor <;> norm_num at * <;> linarith
  obtain ⟨double, rounded, sumNear⟩ :=
    roundToDouble_near sumSmall (by norm_num)
  rw [parts.sum] at rounded
  cases rounded
  obtain ⟨_, sumAbove⟩ := abs_le.mp sumNear
  norm_num at sumAbove sumBelow
  linarith

/-- From `2 ^ size` seconds on a millisecond is rounded to `steps` steps of the
doubles there, and `carry` is how close to a second the remaining microseconds
bring the sum within half a step of it. -/
structure MilliSteps (size steps carry : Nat) : Prop where
  low : ((steps : Rat) - 1 / 2) * spacing size < 1 / 1000
  high : 1 / 1000 < ((steps : Rat) + 1 / 2) * spacing size
  reach : ((steps : Rat) - 1 / 2) * spacing size + 1 / 2 ^ 54 <
    (1000 - carry) / 10 ^ 6
  short : ((1000 : Rat) - (carry + 1)) / 10 ^ 6 + 1 / 2 ^ 54 <
    ((steps : Rat) - 1 / 2) * spacing size
  room : (999 : Rat) / 10 ^ 6 + 1 / 2 ^ 54 < steps * spacing size
  unit : (steps : Rat) * spacing size < 1

private theorem milliSteps {micros : Nat} (late : 2 ^ 33 * 10 ^ 6 ≤ micros)
    (bounded : micros < 2 ^ 38 * 10 ^ 6) :
    ∃ size steps, 2 ^ size * 10 ^ 6 ≤ micros ∧
      micros < 2 ^ (size + 1) * 10 ^ 6 ∧ size ≤ 37 ∧
        MilliSteps size steps (epochCarry micros) := by
  have nonzero : micros / 10 ^ 6 ≠ 0 := by omega
  have lower := Nat.log2_self_le nonzero
  have upper : micros / 10 ^ 6 < 2 ^ (Nat.log2 (micros / 10 ^ 6) + 1) :=
    Nat.lt_log2_self
  have atLeast : 33 ≤ Nat.log2 (micros / 10 ^ 6) := by
    rw [Nat.le_log2 nonzero]
    omega
  have atMost : Nat.log2 (micros / 10 ^ 6) < 38 := by
    rw [Nat.log2_lt nonzero]
    omega
  have steps : ∃ steps, MilliSteps (Nat.log2 (micros / 10 ^ 6)) steps
      (epochCarry micros) := by
    simp only [epochCarry]
    generalize Nat.log2 (micros / 10 ^ 6) = size at atLeast atMost
    have listed : size = 33 ∨ size = 34 ∨ size = 35 ∨ size = 36 ∨
        size = 37 := by
      omega
    rcases listed with rfl | rfl | rfl | rfl | rfl
    · exact ⟨524, by constructor <;> norm_num [spacing]⟩
    · exact ⟨262, by constructor <;> norm_num [spacing]⟩
    · exact ⟨131, by constructor <;> norm_num [spacing]⟩
    · exact ⟨66, by constructor <;> norm_num [spacing]⟩
    · exact ⟨33, by constructor <;> norm_num [spacing]⟩
  obtain ⟨steps, found⟩ := steps
  rw [Nat.le_div_iff_mul_le (by decide)] at lower
  rw [Nat.div_lt_iff_lt_mul (by decide)] at upper
  exact ⟨_, steps, lower, upper, by omega, found⟩

/-- The microseconds of the sum reach half a step exactly up to the carry. -/
theorem MilliSteps.part_iff {steps carry : Nat}
    (table : MilliSteps size steps carry)
    (parts : EpochParts tsCol whole part seconds) {missing : Int}
    (micros : tsCol % 1000 = 1000 - missing) :
    (missing ≤ carry → ((steps : Rat) - 1 / 2) * spacing size < part) ∧
      (carry < missing → part < ((steps : Rat) - 1 / 2) * spacing size) := by
  obtain ⟨partBelow, partAbove⟩ := abs_le.mp parts.near
  rw [micros] at partBelow partAbove
  push_cast at partBelow partAbove
  constructor
  · intro close
    have cast : (missing : Rat) ≤ carry := by exact_mod_cast close
    have reach := table.reach
    have ordered : ((1000 : Rat) - carry) / 10 ^ 6 ≤
        (1000 - missing) / 10 ^ 6 := by
      gcongr
    linarith
  · intro apart
    have cast : (carry : Rat) + 1 ≤ missing := by exact_mod_cast apart
    have short := table.short
    have ordered : ((1000 : Rat) - missing) / 10 ^ 6 ≤
        (1000 - (carry + 1)) / 10 ^ 6 := by
      gcongr
    linarith

theorem MilliSteps.part_lt {steps carry : Nat}
    (table : MilliSteps size steps carry)
    (parts : EpochParts tsCol whole part seconds) :
    part < steps * spacing size := by
  obtain ⟨_, partAbove⟩ := abs_le.mp parts.near
  obtain ⟨_, high⟩ := micros_bounds tsCol
  linarith [table.room]

/-- After the epoch the carry decides whether the next second is reached. -/
theorem MilliSteps.reaches_iff {steps carry : Nat}
    (table : MilliSteps size steps carry) (small : size ≤ 37)
    (parts : EpochParts tsCol whole part seconds)
    (lower : 2 ^ size * 1000000 ≤ tsCol)
    (upper : tsCol < 2 ^ (size + 1) * 1000000) {second missing : Int}
    (next : second * 1000000 = tsCol + missing) (positive : 0 < missing)
    (close : missing ≤ 1000) :
    (second : Rat) ≤ seconds ↔ missing ≤ carry := by
  have unit := spacing_pos size
  have multiple := intCast_eq_steps (by omega : size ≤ 52) second
  have millis : tsCol / 1000 = second * 1000 - 1 := by omega
  have micros : tsCol % 1000 = 1000 - missing := by omega
  have above : 2 ^ size * 1000 ≤ tsCol / 1000 := by
    generalize (2 : Int) ^ size = power at lower
    omega
  have below : second ≤ 2 ^ (size + 1) := by
    generalize (2 : Int) ^ (size + 1) = power at upper ⊢
    omega
  have value : ((tsCol / 1000 : Int) : Rat) / 1000 = second - 1 / 1000 := by
    rw [millis]
    push_cast
    ring
  have large : (2 : Rat) ^ size ≤ second - 1 / 1000 := by
    rw [← value, le_div_iff₀ (by norm_num)]
    exact_mod_cast above
  have top : (second : Rat) ≤ 2 ^ (size + 1) := by exact_mod_cast below
  -- The milliseconds are a whole number of steps below the second.
  have rounds : roundToDouble ((second : Rat) - 1 / 1000) =
      .fin (((second * 2 ^ (52 - size) - steps : Int) : Rat) *
        spacing size) := by
    apply roundToDouble_eq_steps large (by linarith) (by omega)
    · push_cast at multiple ⊢
      linarith [table.high]
    · push_cast at multiple ⊢
      linarith [table.low]
  have wholeValue : whole = second - steps * spacing size := by
    have same := parts.millis
    rw [value, rounds] at same
    cases same
    rw [← multiple]
    push_cast
    ring
  have wholeLarge : (2 : Rat) ^ size ≤ whole := by
    have bounded : |(second : Rat) - 1 / 1000| ≤ 2 ^ 52 := by
      have wide : (2 : Rat) ^ (size + 1) ≤ 2 ^ 52 :=
        pow_le_pow_right₀ (by norm_num) (by omega)
      have positive : (0 : Rat) < 2 ^ size := by positivity
      rw [abs_of_nonneg (by linarith)]
      linarith
    have reached : (((2 ^ size : Nat) : Int) : Rat) ≤ whole :=
      le_of_rounded bounded (value ▸ parts.millis) (by exact_mod_cast large)
    exact_mod_cast reached
  have partSmall := table.part_lt parts
  obtain ⟨sum, rounded, atLeast, atMost⟩ :=
    roundToDouble_binade (by linarith [parts.nonneg])
      (by rw [wholeValue]; linarith : whole + part < 2 ^ (size + 1)) (by omega)
  have same := parts.sum
  rw [rounded] at same
  cases same
  rw [steps_reach_iff (by omega)]
  obtain ⟨reach, short⟩ := table.part_iff parts micros
  constructor
  · intro reached
    by_contra apart
    have less := short (not_le.mp apart)
    have stays := atMost (second * 2 ^ (52 - size) - 1) (by
      rw [wholeValue]
      push_cast at multiple ⊢
      linarith)
    omega
  · intro within
    have more := reach within
    apply atLeast
    rw [wholeValue]
    push_cast at multiple ⊢
    linarith

/-- So it does before the epoch. -/
theorem MilliSteps.reaches_iff_of_neg {steps carry : Nat}
    (table : MilliSteps size steps carry) (small : size ≤ 37)
    (parts : EpochParts tsCol whole part seconds)
    (lower : 2 ^ size * 1000000 ≤ -tsCol)
    (upper : -tsCol < 2 ^ (size + 1) * 1000000) {second missing : Int}
    (next : second * 1000000 = tsCol + missing) (positive : 0 < missing)
    (close : missing ≤ 1000) :
    (second : Rat) ≤ seconds ↔ missing ≤ carry := by
  have unit := spacing_pos size
  have multiple := intCast_eq_steps (by omega : size ≤ 52) (-second)
  have millis : tsCol / 1000 = second * 1000 - 1 := by omega
  have micros : tsCol % 1000 = 1000 - missing := by omega
  have above : 2 ^ size ≤ -second := by
    generalize (2 : Int) ^ size = power at lower ⊢
    omega
  have below : -second + 1 ≤ 2 ^ (size + 1) := by
    generalize (2 : Int) ^ (size + 1) = power at upper ⊢
    omega
  have value : ((tsCol / 1000 : Int) : Rat) / 1000 =
      -(-(second : Rat) + 1 / 1000) := by
    rw [millis]
    push_cast
    ring
  have large : (2 : Rat) ^ size ≤ -second := by exact_mod_cast above
  have top : -(second : Rat) + 1 ≤ 2 ^ (size + 1) := by exact_mod_cast below
  have rounds : roundToDouble (-(second : Rat) + 1 / 1000) =
      .fin (((-second * 2 ^ (52 - size) + steps : Int) : Rat) *
        spacing size) := by
    apply roundToDouble_eq_steps (by linarith) (by linarith) (by omega)
    · push_cast at multiple ⊢
      linarith [table.low]
    · push_cast at multiple ⊢
      linarith [table.high]
  have wholeValue : whole = -(-(second : Rat) + steps * spacing size) := by
    have same := parts.millis
    rw [value, roundToDouble_neg rounds] at same
    cases same
    push_cast at multiple ⊢
    linarith
  have partSmall := table.part_lt parts
  have mirrored : whole + part =
      -(-(second : Rat) + steps * spacing size - part) := by
    rw [wholeValue]
    ring
  obtain ⟨sum, rounded, atLeast, atMost⟩ :=
    roundToDouble_binade (by linarith :
        2 ^ size ≤ -(second : Rat) + steps * spacing size - part)
      (by linarith [table.unit, parts.nonneg]) (by omega)
  have same := parts.sum
  rw [mirrored, roundToDouble_neg rounded] at same
  cases same
  obtain ⟨reach, short⟩ := table.part_iff parts micros
  have flipped : (second : Rat) ≤ -(sum * spacing size) ↔
      sum ≤ -second * 2 ^ (52 - size) := by
    rw [le_neg, ← Int.cast_neg, ← multiple, mul_le_mul_iff_left₀ unit]
    exact Int.cast_le
  rw [flipped]
  constructor
  · intro reached
    by_contra apart
    have less := short (not_le.mp apart)
    have passes := atLeast (-second * 2 ^ (52 - size) + 1) (by
      push_cast at multiple ⊢
      linarith)
    omega
  · intro within
    have more := reach within
    apply atMost
    push_cast at multiple ⊢
    linarith

private theorem natAbs_le_of_inDatetimeRange
    (inRange : inDatetimeRange tsCol = true) :
    tsCol.natAbs < 2 ^ 38 * 10 ^ 6 := by
  obtain ⟨lower, upper⟩ := inDatetimeRange_iff.mp inRange
  have first : (-62135596800000000 : Int) ≤ tsCol := lower
  have last : tsCol ≤ (253402300799999999 : Int) := upper
  omega

/-- The carry decides near a second, on both sides of the epoch. -/
theorem EpochParts.near_iff (parts : EpochParts tsCol whole part seconds)
    (bounded : tsCol.natAbs < 2 ^ 38 * 10 ^ 6) {second missing : Int}
    (next : second * 1000000 = tsCol + missing) (positive : 0 < missing)
    (close : missing ≤ 1000) :
    (second : Rat) ≤ seconds ↔ missing ≤ epochCarry tsCol.natAbs := by
  by_cases early : tsCol.natAbs < 2 ^ 33 * 10 ^ 6
  · have before : seconds < second :=
      parts.early early (by omega) (by omega)
    have none := epochCarry_eq_zero early
    rw [none]
    constructor
    · intro reached
      exact absurd before (not_lt.mpr reached)
    · intro within
      omega
  · obtain ⟨size, steps, lower, upper, small, table⟩ :=
      milliSteps (not_lt.mp early) bounded
    have low : (2 : Int) ^ size * 1000000 ≤ tsCol.natAbs := by
      exact_mod_cast lower
    have high : (tsCol.natAbs : Int) < 2 ^ (size + 1) * 1000000 := by
      exact_mod_cast upper
    rcases le_total 0 tsCol with afterEpoch | beforeEpoch
    · rw [Int.natAbs_of_nonneg afterEpoch] at low high
      exact table.reaches_iff small parts low high next positive close
    · rw [Int.ofNat_natAbs_of_nonpos beforeEpoch] at low high
      exact table.reaches_iff_of_neg small parts low high next positive close

/-- Which whole seconds the epoch of an instant reaches. -/
theorem EpochParts.reaches_iff (parts : EpochParts tsCol whole part seconds)
    (bounded : tsCol.natAbs < 2 ^ 38 * 10 ^ 6) (second : Int) :
    (second : Rat) ≤ seconds ↔
      second * microsPerSecond ≤ epochReading tsCol := by
  have carry := epochCarry_le tsCol.natAbs
  have unfolded : second * microsPerSecond ≤ epochReading tsCol ↔
      second * 1000000 ≤ tsCol + epochCarry tsCol.natAbs := Iff.rfl
  rw [unfolded]
  rcases le_or_gt (second * 1000000) tsCol with passed | before
  · have reached := parts.reaches bounded.le passed
    constructor
    · intro _
      omega
    · intro _
      exact reached
  · rcases le_or_gt (second * 1000000) (tsCol + 1000) with close | apart
    · rw [parts.near_iff bounded
        (by ring : second * 1000000 = tsCol + (second * 1000000 - tsCol))
        (by omega) (by omega)]
      omega
    · have less := parts.far bounded.le apart
      constructor
      · intro reached
        linarith
      · intro within
        omega

/-- Within a second of zero the epoch is as good as exact. -/
theorem EpochParts.small (parts : EpochParts tsCol whole part seconds)
    (bounded : tsCol.natAbs ≤ 10 ^ 6) :
    |seconds - tsCol / 10 ^ 6| ≤ 3 / 2 ^ 53 := by
  have within : tsCol.natAbs ≤ 2 ^ 0 * 10 ^ 6 := by omega
  have wholeNear := parts.whole_near within (by norm_num)
  have exact := parts_sum tsCol
  obtain ⟨wholeBelow, wholeAbove⟩ := abs_le.mp wholeNear
  obtain ⟨partBelow, partAbove⟩ := abs_le.mp parts.near
  obtain ⟨low, high⟩ := abs_le.mp (millis_bounded within)
  obtain ⟨_, microsHigh⟩ := micros_bounds tsCol
  have sumSmall : |whole + part| ≤ 2 ^ 1 := by
    rw [abs_le]
    have nonneg := parts.nonneg
    constructor <;> norm_num at * <;> linarith
  obtain ⟨double, rounded, sumNear⟩ :=
    roundToDouble_near sumSmall (by norm_num)
  rw [parts.sum] at rounded
  cases rounded
  obtain ⟨sumBelow, sumAbove⟩ := abs_le.mp sumNear
  rw [abs_le]
  constructor <;> norm_num at * <;> linarith

/-- The epoch is zero or not close to zero. -/
theorem EpochParts.away (parts : EpochParts tsCol whole part seconds)
    (bounded : tsCol.natAbs < 2 ^ 38 * 10 ^ 6) (nonzero : seconds ≠ 0) :
    2 ^ (-20 : Int) ≤ |seconds| := by
  by_cases close : tsCol.natAbs ≤ 10 ^ 6
  · obtain ⟨below, above⟩ := abs_le.mp (parts.small close)
    rcases lt_trichotomy tsCol 0 with before | zero | after
    · have cast : (tsCol : Rat) ≤ -1 := by
        exact_mod_cast Int.le_sub_one_of_lt before
      rw [le_abs]
      right
      norm_num at above ⊢
      linarith
    · subst zero
      have whole0 := parts.millis
      have part0 := parts.micros
      have zeroDouble : roundToDouble (0 : Rat) = .fin 0 := rfl
      norm_num [zeroDouble] at whole0 part0
      have sum := parts.sum
      rw [← whole0, ← part0, add_zero, zeroDouble] at sum
      cases sum
      exact absurd rfl nonzero
    · have cast : (1 : Rat) ≤ tsCol := by exact_mod_cast after
      rw [le_abs]
      left
      norm_num at below ⊢
      linarith
  · obtain ⟨below, above⟩ := abs_le.mp (parts.error bounded.le)
    rw [le_abs]
    rcases le_total 0 tsCol with after | before
    · left
      have cast : (10 ^ 6 : Rat) ≤ tsCol := by
        exact_mod_cast (by omega : (10 ^ 6 : Int) ≤ tsCol)
      norm_num at below ⊢
      linarith
    · right
      have cast : (tsCol : Rat) ≤ -(10 ^ 6) := by
        exact_mod_cast (by omega : tsCol ≤ (-(10 ^ 6) : Int))
      norm_num at above ⊢
      linarith

end Parts

section Macro

variable {tsCol : Instant} {seconds : Nat}

/-- The macro opens the window of the reading. -/
theorem windowStart_double (inRange : inDatetimeRange tsCol = true)
    (positive : 0 < seconds) (fits : seconds < 2 ^ 53) :
    Double.windowStart tsCol seconds =
      some (windowStart (epochReading tsCol) seconds) := by
  have bounded := natAbs_le_of_inDatetimeRange inRange
  obtain ⟨whole, part, double, parts⟩ := exists_epochParts bounded.le
  have summed : epoch tsCol = .fin double := by
    rw [epoch, parts.millis, parts.micros, PyFloat.fin_add, parts.sum]
  have small : |double| < 2 ^ 52 := by
    obtain ⟨other, rounded, near⟩ :=
      roundToDouble_near (parts.sum_bounded bounded.le) (by norm_num)
    rw [parts.sum] at rounded
    cases rounded
    obtain ⟨below, above⟩ := abs_le.mp near
    obtain ⟨low, high⟩ := abs_le.mp (parts.sum_bounded bounded.le)
    rw [abs_lt]
    constructor <;> norm_num at * <;> linarith
  obtain ⟨quotient, divided, floored⟩ := floor_quotient parts.sum small
    (parts.away bounded) positive fits
  have width : (0 : Rat) < seconds := by exact_mod_cast positive
  have divisor : ((seconds : Nat) : PyFloat) = .fin seconds :=
    roundToDouble_natCast fits
  have quotientIs : epoch tsCol / (seconds : PyFloat) = .fin quotient := by
    rw [summed, divisor]
    change (if (seconds : Rat) = 0 then PyFloat.nan else
      roundToDouble (double / seconds)) = _
    rw [if_neg width.ne', divided]
  simp only [Double.windowStart, quotientIs, windowStart, floored]
  congr 3
  apply eq_of_forall_le_iff
  intro index
  have micros : (0 : Rat) < microsPerSecond := by
    exact_mod_cast microsPerSecond_pos
  rw [Int.le_floor, Int.le_floor, le_div_iff₀ width, le_div_iff₀ width,
    le_div_iff₀ micros]
  have reaches := parts.reaches_iff bounded (index * seconds)
  push_cast at reaches ⊢
  rw [reaches]
  exact_mod_cast Iff.rfl

end Macro

/-- A silver row at the instant its epoch reads. -/
def SilverTrade.reading (trade : SilverTrade) : SilverTrade :=
  { trade with tsEvent := epochReading trade.tsEvent }

def SilverTicker.reading (ticker : SilverTicker) : SilverTicker :=
  { ticker with tsEvent := epochReading ticker.tsEvent }

/-- Gold with the windows the macro opens on doubles: by `windowStart_double`
the exact ones of the readings. -/
def Double.goldWindowMetrics (bronze : List BronzeRow) : List GoldRow :=
  joinWindows ((silverTrades bronze).map SilverTrade.reading)
    ((silverTicker bronze).map SilverTicker.reading)

/-- What `gold_window_metrics` can then hold. -/
def Double.GoldOf (bronze : List BronzeRow) (gold : List GoldRow) : Prop :=
  ∃ silver, SilverOf bronze silver ∧
    gold = joinWindows (silver.map SilverTrade.reading)
      ((silverTicker bronze).map SilverTicker.reading)

section Gold

variable {bronze : List BronzeRow} {gold : List GoldRow}

theorem silver_reading {silver : List SilverTrade}
    (kept : SilverOf bronze silver)
    (read : ∀ row ∈ bronze, epochReading row.tsEvent = row.tsEvent) :
    silver.map SilverTrade.reading = silver := by
  rw [List.map_congr_left, List.map_id]
  intro trade member
  obtain ⟨row, rowMember, valid⟩ :=
    mem_validTrades.mp (kept.subset trade member)
  obtain ⟨_, _, _, _, _, _, _, time, _⟩ := SilverTrade.ofBronze?_eq_some valid
  have same := read row rowMember
  rw [time] at same
  rw [SilverTrade.reading, same]
  rfl

theorem silverTicker_reading
    (read : ∀ row ∈ bronze, epochReading row.tsEvent = row.tsEvent) :
    (silverTicker bronze).map SilverTicker.reading = silverTicker bronze := by
  rw [List.map_congr_left, List.map_id]
  intro ticker member
  obtain ⟨row, rowMember, valid⟩ := mem_silverTicker.mp member
  obtain ⟨_, _, _, _, _, time, _⟩ := SilverTicker.ofBronze?_eq_some valid
  have same := read row rowMember
  rw [time] at same
  rw [SilverTicker.reading, same]
  rfl

/-- Where the epoch reads what is there, gold has the exact windows. -/
theorem goldWindowMetrics_double
    (read : ∀ row ∈ bronze, epochReading row.tsEvent = row.tsEvent) :
    Double.goldWindowMetrics bronze = goldWindowMetrics bronze := by
  rw [Double.goldWindowMetrics, silver_reading (silverOf_silverTrades bronze)
    read, silverTicker_reading read, goldWindowMetrics]

theorem goldOf_double
    (read : ∀ row ∈ bronze, epochReading row.tsEvent = row.tsEvent) :
    Double.GoldOf bronze gold ↔ GoldOf bronze gold := by
  constructor
  · rintro ⟨silver, kept, rfl⟩
    exact ⟨silver, kept, by
      rw [silver_reading kept read, silverTicker_reading read]⟩
  · rintro ⟨silver, kept, rfl⟩
    exact ⟨silver, kept, by
      rw [silver_reading kept read, silverTicker_reading read]⟩

end Gold

end TickStream
