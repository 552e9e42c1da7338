import Mathlib.Algebra.Order.Ring.Rat
import Mathlib.Tactic.NormNum
import Mathlib.Tactic.Positivity
import TickStream.Library.TryEach
import TickStream.Python.Value

/-!
# The reconnect schedule

A generator of delays.  The power is computed before the cap is applied, and a
float power raises once it leaves the doubles; everything else is read as
exact arithmetic.  A generator that has raised is exhausted.
-/

namespace TickStream

open Python Library

namespace Python

/-- The largest finite double. -/
@[irreducible] def maxDouble : Rat := (2 ^ 53 - 1) * 2 ^ 971

/-- `base ** exponent` of a float and an integer. -/
def floatPow (base : Rat) (exponent : Nat) : Result Rat :=
  if base ^ exponent ≤ maxDouble then .ok (base ^ exponent)
  else raise .overflowError "(34, 'Numerical result out of range')"

/-- What `random()` returns, call by call. -/
structure Rng where
  random : Nat → Rat
  nonneg : ∀ call, 0 ≤ random call
  below : ∀ call, random call < 1

/-- `uniform(low, high)`, by the random number of one call. -/
def Rng.uniform (rng : Rng) (call : Nat) (low high : Rat) : Rat :=
  low + (high - low) * rng.random call

end Python

/-- The arguments of `backoff_delays`. -/
structure Backoff where
  base : Rat := 1 / 2
  cap : Rat := 30
  factor : Rat := 2
  jitter : Bool := true
deriving DecidableEq

namespace Backoff

variable (backoff : Backoff) (rng : Rng)

/-- The body of the generator's loop for one attempt. -/
def delay (attempt : Nat) : Result Rat := do
  let power ← floatPow backoff.factor attempt
  let ceiling := min backoff.cap (backoff.base * power)
  return if backoff.jitter then rng.uniform attempt 0 ceiling else ceiling

/-- `next` on the generator: at an attempt, or exhausted. -/
def next : Option Nat → Result Rat × Option Nat
  | none => (raise .stopIteration "", none)
  | some attempt =>
      match backoff.delay rng attempt with
      | .ok delay => (.ok delay, some (attempt + 1))
      | .error failure => (.error failure, none)

/-- The generator after a number of calls. -/
def after : Nat → Option Nat
  | 0 => some 0
  | calls + 1 => (backoff.next rng (after calls)).2

/-- What the call with this number returns, counting from zero. -/
def call (number : Nat) : Result Rat :=
  (backoff.next rng (backoff.after rng number)).1

variable {backoff rng}

private theorem floatPow_eq_ok_iff {base power : Rat} {exponent : Nat} :
    floatPow base exponent = .ok power ↔
      base ^ exponent ≤ maxDouble ∧ power = base ^ exponent := by
  simp only [floatPow]
  by_cases fits : base ^ exponent ≤ maxDouble
  · rw [if_pos fits]
    constructor
    · intro same
      cases same
      exact ⟨fits, rfl⟩
    · intro same
      rw [same.2]
  · rw [if_neg fits]
    constructor
    · intro impossible
      cases impossible
    · intro same
      exact absurd same.1 fits

theorem delay_eq_ok_iff {attempt : Nat} {delay : Rat} :
    backoff.delay rng attempt = .ok delay ↔
      backoff.factor ^ attempt ≤ maxDouble ∧
        delay =
          if backoff.jitter then
            rng.uniform attempt 0
              (min backoff.cap (backoff.base * backoff.factor ^ attempt))
          else min backoff.cap (backoff.base * backoff.factor ^ attempt) := by
  simp only [Backoff.delay, bind_eq_ok_iff, floatPow_eq_ok_iff]
  constructor
  · intro computed
    rcases computed with ⟨power, ⟨fits, same⟩, returned⟩
    subst same
    cases returned
    exact ⟨fits, rfl⟩
  · intro computed
    rcases computed with ⟨fits, same⟩
    subst same
    exact ⟨_, ⟨fits, rfl⟩, rfl⟩

theorem delay_error {attempt : Nat}
    (overflows : ¬ backoff.factor ^ attempt ≤ maxDouble) :
    ∃ failure, backoff.delay rng attempt = .error failure := by
  cases computed : backoff.delay rng attempt with
  | ok delay => exact absurd (delay_eq_ok_iff.mp computed).1 overflows
  | error failure => exact ⟨failure, rfl⟩

theorem next_running (attempt : Nat) :
    (backoff.next rng (some attempt)).1 = backoff.delay rng attempt ∧
      (backoff.next rng (some attempt)).2 =
        if backoff.factor ^ attempt ≤ maxDouble then some (attempt + 1)
        else none := by
  by_cases fits : backoff.factor ^ attempt ≤ maxDouble
  · have yields : backoff.delay rng attempt = .ok _ :=
      delay_eq_ok_iff.mpr ⟨fits, rfl⟩
    rw [if_pos fits]
    simp only [next, yields, and_self]
  · obtain ⟨failure, raises⟩ : ∃ failure,
        backoff.delay rng attempt = .error failure := delay_error fits
    rw [if_neg fits]
    simp only [next, raises, and_self]

/-- The powers grow, so once one has overflowed they all do. -/
theorem after_succ (growing : 1 ≤ backoff.factor) (number : Nat) :
    backoff.after rng (number + 1) =
      if backoff.factor ^ number ≤ maxDouble then some (number + 1)
      else none := by
  induction number with
  | zero => exact (next_running 0).2
  | succ number induction =>
      rw [after, induction]
      by_cases fits : backoff.factor ^ number ≤ maxDouble
      · rw [if_pos fits]
        exact (next_running (number + 1)).2
      · have grown : backoff.factor ^ number ≤ backoff.factor ^ (number + 1) :=
          pow_le_pow_right₀ growing (Nat.le_succ number)
        have overflows : ¬ backoff.factor ^ (number + 1) ≤ maxDouble :=
          fun later => fits (grown.trans later)
        rw [if_neg fits, if_neg overflows]
        rfl

/-- A call returns the delay of its own attempt, or raises. -/
theorem call_eq (growing : 1 ≤ backoff.factor) {number : Nat}
    (fits : backoff.factor ^ number ≤ maxDouble) :
    backoff.call rng number = backoff.delay rng number := by
  cases number with
  | zero => exact (next_running 0).1
  | succ number =>
      have grown : backoff.factor ^ number ≤ backoff.factor ^ (number + 1) :=
        pow_le_pow_right₀ growing (Nat.le_succ number)
      rw [call, after_succ growing, if_pos (grown.trans fits)]
      exact (next_running (number + 1)).1

theorem call_error (growing : 1 ≤ backoff.factor) {number : Nat}
    (overflows : ¬ backoff.factor ^ number ≤ maxDouble) :
    ∃ failure, backoff.call rng number = .error failure := by
  have raises : ∃ failure,
      (backoff.next rng (some number)).1 = .error failure := by
    rw [(next_running number).1]
    exact delay_error overflows
  cases number with
  | zero => exact raises
  | succ number =>
      rw [call, after_succ growing]
      by_cases fits : backoff.factor ^ number ≤ maxDouble
      · rw [if_pos fits]
        exact raises
      · rw [if_neg fits]
        exact ⟨_, rfl⟩

/-- A delay is a number from zero to the cap; without jitter it is the capped
exponential. -/
structure Yields (backoff : Backoff) (rng : Rng) (number : Nat)
    (delay : Rat) : Prop where
  returned : backoff.call rng number = .ok delay
  nonneg : 0 ≤ delay
  capped : delay ≤ backoff.cap
  exponential : backoff.jitter = false →
    delay = min backoff.cap (backoff.base * backoff.factor ^ number)

theorem uniform_bounds {number : Nat} {high : Rat} (nonneg : 0 ≤ high) :
    0 ≤ rng.uniform number 0 high ∧ rng.uniform number 0 high ≤ high := by
  have low := rng.nonneg number
  have high' := (rng.below number).le
  simp only [Rng.uniform, sub_zero, zero_add]
  exact ⟨mul_nonneg nonneg low, mul_le_of_le_one_right nonneg high'⟩

/-- The schedule yields for the call with a given number exactly when that
power of the factor is a double. -/
theorem yields_iff (positive : 0 < backoff.base)
    (above : backoff.base ≤ backoff.cap) (growing : 1 ≤ backoff.factor)
    (number : Nat) :
    (∃ delay, Yields backoff rng number delay) ↔
      backoff.factor ^ number ≤ maxDouble := by
  constructor
  · intro yields
    rcases yields with ⟨delay, returned, _, _, _⟩
    by_contra overflows
    obtain ⟨failure, raised⟩ : ∃ failure,
        backoff.call rng number = .error failure := call_error growing overflows
    rw [returned] at raised
    cases raised
  · intro fits
    have ceiling : 0 ≤ min backoff.cap
        (backoff.base * backoff.factor ^ number) := by
      apply le_min
      · exact positive.le.trans above
      · exact mul_nonneg positive.le
          (pow_nonneg (zero_le_one.trans growing) number)
    have computed : backoff.call rng number = backoff.delay rng number :=
      call_eq growing fits
    rw [delay_eq_ok_iff.mpr ⟨fits, rfl⟩] at computed
    refine ⟨_, computed, ?_, ?_, ?_⟩
    · split
      · exact (uniform_bounds ceiling).1
      · exact ceiling
    · split
      · exact (uniform_bounds ceiling).2.trans (min_le_left _ _)
      · exact min_le_left _ _
    · intro noJitter
      rw [if_neg (by simp [noJitter])]

end Backoff

/-- The powers of two up to the exponent 1023 are doubles. -/
theorem two_pow_le_maxDouble_iff {exponent : Nat} :
    (2 : Rat) ^ exponent ≤ maxDouble ↔ exponent ≤ 1023 := by
  have positive : (0 : Rat) < 2 ^ 971 := by positivity
  have top : (2 : Rat) ^ 1023 = 2 ^ 52 * 2 ^ 971 := by rw [← pow_add]
  have beyond : (2 : Rat) ^ 1024 = 2 ^ 53 * 2 ^ 971 := by rw [← pow_add]
  constructor
  · intro fits
    by_contra large
    have grown : (2 : Rat) ^ 1024 ≤ 2 ^ exponent :=
      pow_le_pow_right₀ (by norm_num) (by omega)
    rw [beyond] at grown
    rw [maxDouble] at fits
    have less : ((2 : Rat) ^ 53 - 1) * 2 ^ 971 < 2 ^ 53 * 2 ^ 971 :=
      mul_lt_mul_of_pos_right (by norm_num) positive
    exact absurd (grown.trans fits) (not_le.mpr less)
  · intro small
    have grown : (2 : Rat) ^ exponent ≤ 2 ^ 1023 :=
      pow_le_pow_right₀ (by norm_num) small
    rw [top] at grown
    rw [maxDouble]
    exact grown.trans (mul_le_mul_of_nonneg_right (by norm_num) positive.le)

end TickStream
