import Mathlib.Data.List.Induction
import Mathlib.Tactic.IntervalCases
import Mathlib.Tactic.Ring
import TickStream.Python.DateTime

/-!
# Dates of days

The calendar date of a day, as `date.fromordinal` computes it by cycles of
400, 100, 4 and 1 years, and `isoformat`.
-/

namespace TickStream.Python

/-- Month and day of month of the `dayOfYear`-th day, counted from 0. -/
def monthAndDay (year : Int) (dayOfYear : Int) : Nat × Nat :=
  -- Off by at most one month, upwards.
  let guess := (dayOfYear.toNat + 50) / 32
  let month :=
    if dayOfYear < daysBeforeMonth year guess then guess - 1 else guess
  (month, (dayOfYear - daysBeforeMonth year month).toNat + 1)

/-- Year, month and day of month of a day since the epoch. -/
def dateOfDay (day : Int) : Int × Nat × Nat :=
  let ordinal := day + epochDay
  let n400 := ordinal / 146097
  let inEra := ordinal % 146097
  let n100 := inEra / 36524
  let inCentury := inEra % 36524
  let n4 := inCentury / 1461
  let inFour := inCentury % 1461
  let n1 := inFour / 365
  let year := n400 * 400 + n100 * 100 + n4 * 4 + n1 + 1
  -- The last day of a leap year falls out of its four-year cycle.
  if n1 = 4 || n100 = 4 then (year - 1, 12, 31)
  else (year, monthAndDay year (inFour % 365))

theorem daysBeforeMonth_succ (year : Int) {month : Nat} (valid : 1 ≤ month) :
    daysBeforeMonth year (month + 1) =
      daysBeforeMonth year month + daysInMonth year month := by
  obtain ⟨previous, rfl⟩ := Nat.exists_eq_add_of_le' valid
  simp [daysBeforeMonth, List.range_succ]

/-- Days before each month, and after the last. -/
theorem daysBeforeMonth_eq (year : Int) {month : Nat} (valid : 1 ≤ month)
    (upper : month ≤ 13) :
    daysBeforeMonth year month =
      [0, 0, 31, 59, 90, 120, 151, 181, 212, 243, 273, 304, 334, 365].getD
        month 0 + if 2 < month ∧ isLeap year then 1 else 0 := by
  induction month, valid using Nat.le_induction with
  | base => rfl
  | succ month valid induction =>
      rw [daysBeforeMonth_succ year valid, induction (by omega)]
      have early : month ≤ 12 := by omega
      cases leap : isLeap year <;> interval_cases month <;>
        simp [daysInMonth, leap]

/-- The guessed month is the right one or the next. -/
private theorem guessed_month (year : Int) {dayOfYear : Int}
    (nonneg : 0 ≤ dayOfYear)
    (inside : dayOfYear < 365) {guess : Nat}
    (guessed : guess * 32 ≤ dayOfYear.toNat + 50 ∧
      dayOfYear.toNat + 50 < guess * 32 + 32) :
    1 ≤ guess ∧ guess ≤ 12 ∧
      dayOfYear < daysBeforeMonth year (guess + 1) ∧
      (dayOfYear < daysBeforeMonth year guess →
        2 ≤ guess ∧ daysBeforeMonth year (guess - 1) ≤ dayOfYear) := by
  have lower : 1 ≤ guess := by omega
  have upper : guess ≤ 12 := by omega
  have before := daysBeforeMonth_eq year lower (by omega)
  have after := daysBeforeMonth_succ year lower
  refine ⟨lower, upper, ?_, ?_⟩
  · rw [after, before]
    cases leap : isLeap year <;> interval_cases guess <;>
      simp [daysInMonth, leap] <;> omega
  · intro early
    rw [before] at early
    have later : 2 ≤ guess := by
      by_contra first
      have january : guess = 1 := by omega
      subst january
      simp at early
      omega
    have preceding := daysBeforeMonth_eq year
      (by omega : 1 ≤ guess - 1) (by omega)
    rw [preceding]
    refine ⟨later, ?_⟩
    cases leap : isLeap year <;> interval_cases guess <;> simp <;> omega

/-- A day of a year is in the month and on the day it is given. -/
private theorem monthAndDay_spec (year : Int) {dayOfYear : Int}
    (nonneg : 0 ≤ dayOfYear) (inside : dayOfYear < 365) :
    1 ≤ (monthAndDay year dayOfYear).1 ∧
      (monthAndDay year dayOfYear).1 ≤ 12 ∧
      1 ≤ (monthAndDay year dayOfYear).2 ∧
      (monthAndDay year dayOfYear).2 ≤
        daysInMonth year (monthAndDay year dayOfYear).1 ∧
      daysBeforeMonth year (monthAndDay year dayOfYear).1 +
        ((monthAndDay year dayOfYear).2 - 1) = dayOfYear := by
  simp only [monthAndDay]
  have guessed : (dayOfYear.toNat + 50) / 32 * 32 ≤ dayOfYear.toNat + 50 ∧
      dayOfYear.toNat + 50 < (dayOfYear.toNat + 50) / 32 * 32 + 32 := by
    omega
  obtain ⟨lower, upper, after, before⟩ :=
    guessed_month year nonneg inside guessed
  generalize (dayOfYear.toNat + 50) / 32 = guess at *
  by_cases early : dayOfYear < daysBeforeMonth year guess
  · rw [if_pos early]
    obtain ⟨later, reached⟩ := before early
    have step := daysBeforeMonth_succ year (by omega : 1 ≤ guess - 1)
    rw [Nat.sub_add_cancel lower] at step
    omega
  · rw [if_neg early]
    have step := daysBeforeMonth_succ year lower
    omega

theorem daysBeforeYear_cycles {n400 n100 n4 n1 : Int}
    (century : 0 ≤ n100 ∧ n100 ≤ 3) (four : 0 ≤ n4 ∧ n4 ≤ 24)
    (one : 0 ≤ n1 ∧ n1 ≤ 3) :
    daysBeforeYear (n400 * 400 + n100 * 100 + n4 * 4 + n1 + 1) =
      n400 * 146097 + n100 * 36524 + n4 * 1461 + n1 * 365 := by
  simp only [daysBeforeYear]
  omega

private theorem isLeap_cycles {n400 n100 n4 n1 : Int}
    (century : 0 ≤ n100 ∧ n100 ≤ 3) (four : 0 ≤ n4 ∧ n4 ≤ 24)
    (one : 0 ≤ n1 ∧ n1 ≤ 3) :
    isLeap (n400 * 400 + n100 * 100 + n4 * 4 + n1 + 1) = true ↔
      n1 = 3 ∧ (n4 ≠ 24 ∨ n100 = 3) := by
  simp only [isLeap, Bool.and_eq_true, Bool.or_eq_true, decide_eq_true_eq]
  omega

/-- A date that exists. -/
structure ValidDate (year : Int) (month day : Nat) : Prop where
  minYear : 1 ≤ year
  maxYear : year ≤ 9999
  january : 1 ≤ month
  december : month ≤ 12
  first : 1 ≤ day
  last : day ≤ daysInMonth year month

private theorem dayNumber_new_year_eve {year : Int}
    (leap : isLeap year = true) :
    dayNumber year 12 31 = daysBeforeYear year + 365 - epochDay := by
  have before := daysBeforeMonth_eq year (by norm_num : 1 ≤ 12) (by norm_num)
  simp [leap] at before
  simp only [dayNumber, before]
  norm_num
  ring

/-- The date of a day is valid, and the day of that date is the day. -/
theorem dateOfDay_spec {day : Int} (afterYearZero : -epochDay ≤ day)
    (beforeYear10000 : day < 3652059 - epochDay) :
    ValidDate (dateOfDay day).1 (dateOfDay day).2.1 (dateOfDay day).2.2 ∧
      dayNumber (dateOfDay day).1 (dateOfDay day).2.1 (dateOfDay day).2.2 =
        day := by
  have nonneg : 0 ≤ day + epochDay := by omega
  have bounded : day + epochDay < 3652059 := by omega
  simp only [dateOfDay]
  generalize whole : day + epochDay = ordinal at nonneg bounded ⊢
  generalize cycle400 : ordinal / 146097 = n400
  generalize era : ordinal % 146097 = inEra
  generalize cycle100 : inEra / 36524 = n100
  generalize century : inEra % 36524 = inCentury
  generalize cycle4 : inCentury / 1461 = n4
  generalize four : inCentury % 1461 = inFour
  generalize cycle1 : inFour / 365 = n1
  split_ifs with last
  · -- The year before, which is the last of its four-year cycle.
    simp only [Bool.or_eq_true, decide_eq_true_eq] at last
    obtain ⟨hundreds, fours, same, rangeHundreds, rangeFours, full, total⟩ :
        ∃ hundreds fours : Int,
          n400 * 400 + n100 * 100 + n4 * 4 + n1 + 1 - 1 =
            n400 * 400 + hundreds * 100 + fours * 4 + 3 + 1 ∧
          (0 ≤ hundreds ∧ hundreds ≤ 3) ∧ (0 ≤ fours ∧ fours ≤ 24) ∧
          (fours ≠ 24 ∨ hundreds = 3) ∧
          ordinal = n400 * 146097 + hundreds * 36524 + fours * 1461 + 1460 := by
      rcases last with last | last
      · exact ⟨n100, n4, by omega, by omega, by omega, by omega, by omega⟩
      · exact ⟨3, 24, by omega, by omega, by omega, by omega, by omega⟩
    rw [same]
    have leap :
        isLeap (n400 * 400 + hundreds * 100 + fours * 4 + 3 + 1) = true :=
      (isLeap_cycles rangeHundreds rangeFours (by norm_num)).mpr ⟨rfl, full⟩
    refine ⟨⟨by omega, by omega, by norm_num, le_rfl, by norm_num, le_rfl⟩, ?_⟩
    rw [dayNumber_new_year_eve leap,
      daysBeforeYear_cycles rangeHundreds rangeFours (by norm_num)]
    omega
  · simp only [Bool.or_eq_true, decide_eq_true_eq, not_or] at last
    obtain ⟨january, december, first, lastDay, number⟩ := monthAndDay_spec
      (n400 * 400 + n100 * 100 + n4 * 4 + n1 + 1)
      (by omega : 0 ≤ inFour % 365) (by omega)
    refine ⟨⟨by omega, by omega, january, december, first, lastDay⟩, ?_⟩
    have years : daysBeforeYear (n400 * 400 + n100 * 100 + n4 * 4 + n1 + 1) =
        n400 * 146097 + n100 * 36524 + n4 * 1461 + n1 * 365 := by
      apply daysBeforeYear_cycles <;> omega
    simp only [dayNumber]
    omega

/-- A number in exactly `width` digits. -/
def paddedDigits : Nat → Nat → List Char
  | 0, _ => []
  | width + 1, number =>
      paddedDigits width (number / 10) ++ [Nat.digitChar (number % 10)]

/-- `isoformat()` of an aware UTC datetime. -/
def isoFormat (instant : Instant) : String :=
  let date := dateOfDay (instant / microsPerDay)
  let timeOfDay := (instant % microsPerDay).toNat
  let seconds := timeOfDay / 1000000
  let micros := timeOfDay % 1000000
  String.ofList
    (paddedDigits 4 date.1.toNat ++ '-' :: (paddedDigits 2 date.2.1 ++ '-' ::
      (paddedDigits 2 date.2.2 ++ 'T' :: (paddedDigits 2 (seconds / 3600) ++
        ':' :: (paddedDigits 2 (seconds / 60 % 60) ++ ':' ::
          (paddedDigits 2 (seconds % 60) ++
            ((if micros = 0 then [] else '.' :: paddedDigits 6 micros) ++
              "+00:00".toList)))))))

theorem digitChar_spec {digit : Nat} (small : digit < 10) :
    (Nat.digitChar digit).isDigit = true ∧
      (Nat.digitChar digit).toNat = 48 + digit := by
  interval_cases digit <;> exact ⟨rfl, rfl⟩

theorem readDigits_append (left right : List Char) :
    readDigits (left ++ right) =
      readDigits left * 10 ^ right.length + readDigits right := by
  induction right using List.reverseRecOn with
  | nil => simp [readDigits]
  | append_singleton right char induction =>
      have step : ∀ digits : List Char, readDigits (digits ++ [char]) =
          10 * readDigits digits + (char.toNat - 48) := by
        intro digits
        simp [readDigits, List.foldl_append]
      rw [← List.append_assoc, step, step, induction, List.length_append,
        List.length_singleton, pow_succ]
      ring

theorem paddedDigits_length (width number : Nat) :
    (paddedDigits width number).length = width := by
  induction width generalizing number with
  | zero => rfl
  | succ width induction => simp [paddedDigits, induction]

theorem paddedDigits_digits (width number : Nat) :
    ∀ char ∈ paddedDigits width number, char.isDigit = true := by
  induction width generalizing number with
  | zero => simp [paddedDigits]
  | succ width induction =>
      intro char member
      rcases List.mem_append.mp member with early | last
      · exact induction (number / 10) char early
      · rw [List.mem_singleton.mp last]
        exact (digitChar_spec (Nat.mod_lt _ (by norm_num))).1

theorem readDigits_paddedDigits {width number : Nat}
    (small : number < 10 ^ width) :
    readDigits (paddedDigits width number) = number := by
  induction width generalizing number with
  | zero =>
      have zero : number = 0 := by simpa using small
      rw [zero]
      rfl
  | succ width induction =>
      have quotient : number / 10 < 10 ^ width := by
        rw [Nat.div_lt_iff_lt_mul (by norm_num), ← pow_succ]
        exact small
      have last : readDigits [Nat.digitChar (number % 10)] = number % 10 := by
        have value :=
          (digitChar_spec (Nat.mod_lt number (by norm_num : 0 < 10))).2
        simp [readDigits, value]
      rw [paddedDigits, readDigits_append, induction quotient, last,
        List.length_singleton, pow_one, mul_comm]
      exact Nat.div_add_mod number 10

end TickStream.Python
