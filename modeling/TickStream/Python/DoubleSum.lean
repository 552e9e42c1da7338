import TickStream.Python.Arithmetic

/-!
# Sums of doubles in any order

A query engine adds up a column of doubles in an order of its own and rounds
after every addition.  What is known of the sum whatever the order: it is not
below any of its terms, if none is negative, and it is at most their number
times a bound on them.
-/

namespace TickStream.Python

/-- A rational that is a double. -/
def IsDouble (value : Rat) : Prop := roundToDouble value = .fin value

instance (value : Rat) : Decidable (IsDouble value) :=
  inferInstanceAs (Decidable (roundToDouble value = .fin value))

/-- A number rounds to zero up to half the least double. -/
private theorem roundToDouble_pos_iff {value : Rat} :
    (PyFloat.fin 0).lt (roundToDouble value) = true ↔
      2 ^ (-1075 : Int) < value := by
  constructor
  · intro positive
    by_contra small
    have least : roundToDouble (2 ^ (-1075 : Int)) = .fin 0 := by
      decide +kernel
    have bound := roundToDouble_mono (not_lt.mp small)
    rw [least] at bound
    have impossible := PyFloat.lt_of_lt_of_le positive bound
    simp [PyFloat.lt] at impossible
  · intro large
    have positive : 0 < value := lt_trans (by positivity) large
    have ulpPositive : (0 : Rat) < 2 ^ ulpExponent value := by positivity
    have half : 1 / 2 < value / 2 ^ ulpExponent value := by
      rw [lt_div_iff₀ ulpPositive]
      rcases max_choice (binaryExponent value - 52) (-1074) with normal | least
      · rw [ulpExponent, normal, zpow_sub₀ (by norm_num)]
        have atLeast := (binaryExponent_spec positive).1
        have shrunk : (0 : Rat) < 2 ^ binaryExponent value := by positivity
        calc 1 / 2 * ((2 : Rat) ^ binaryExponent value / 2 ^ (52 : Int))
            < 2 ^ binaryExponent value := by
              rw [mul_div_assoc', div_lt_iff₀ (by positivity)]
              norm_num
              linarith
          _ ≤ value := atLeast
      · rw [ulpExponent, least]
        have same : (1 / 2 * 2 ^ (-1074 : Int) : Rat) = 2 ^ (-1075 : Int) := by
          rw [show (-1075 : Int) = -1074 - 1 by norm_num,
            zpow_sub_one₀ (by norm_num)]
          ring
        rwa [same]
    have steps : 1 ≤ roundHalfEven (value / 2 ^ ulpExponent value) := by
      apply le_roundHalfEven_of_near
      push_cast
      linarith
    have cast : (1 : Rat) ≤ roundHalfEven (value / 2 ^ ulpExponent value) := by
      exact_mod_cast steps
    have multiple : 0 < nearestMultiple value := by
      rw [nearestMultiple]
      exact mul_pos (by linarith) ulpPositive
    rw [roundToDouble_of_pos positive]
    split_ifs
    · rfl
    · simpa [PyFloat.lt] using multiple

theorem PyFloat.isFinite_iff {value : PyFloat} :
    value.isFinite = true ↔ ∃ number, value = .fin number := by
  cases value <;> simp [isFinite]

theorem PyFloat.not_lt_of_le {left right : PyFloat}
    (le : left.le right = true) : right.lt left = false := by
  cases left with
  | nan => cases le
  | inf negative =>
      cases right with
      | nan => cases le
      | inf other => cases negative <;> cases other <;> simp_all [PyFloat.le, lt]
      | fin value => cases negative <;> simp_all [PyFloat.le, lt]
  | fin value =>
      cases right with
      | nan => cases le
      | inf other => cases other <;> simp_all [PyFloat.le, lt]
      | fin other => simpa [PyFloat.le, lt] using le

/-- No quotient of numbers that are not negative is negative. -/
theorem PyFloat.div_not_negative {numerator denominator : PyFloat}
    (above : (fin 0).le numerator = true)
    (below : (fin 0).le denominator = true) :
    (numerator / denominator).lt (fin 0) = false := by
  cases denominator with
  | nan => cases below
  | inf negative =>
      cases numerator with
      | nan => cases above
      | inf other => rfl
      | fin left =>
          change (fin 0).lt (fin 0) = false
          simp [lt]
  | fin right =>
      have rightNonneg : 0 ≤ right := by simpa [PyFloat.le] using below
      cases numerator with
      | nan => cases above
      | inf negative =>
          have positive : negative = false := by
            cases negative with
            | false => rfl
            | true => cases above
          change (if right = 0 then nan else
            inf (negative != decide (right < 0))).lt (fin 0) = false
          rw [positive, decide_eq_false (not_lt.mpr rightNonneg)]
          split_ifs <;> rfl
      | fin left =>
          have leftNonneg : 0 ≤ left := by simpa [PyFloat.le] using above
          change (if right = 0 then nan else
            roundToDouble (left / right)).lt (fin 0) = false
          split_ifs
          · rfl
          · exact not_lt_of_le
              (roundToDouble_nonneg (div_nonneg leftNonneg rightNonneg))

/-- When a quotient of numbers that are not negative is a positive double. -/
theorem PyFloat.div_pos_finite_iff {numerator denominator : PyFloat}
    (above : (fin 0).le numerator = true)
    (below : (fin 0).le denominator = true) (nonzero : denominator ≠ .fin 0) :
    ((fin 0).lt (numerator / denominator) = true ∧
      (numerator / denominator).isFinite = true) ↔
        ∃ left right, numerator = .fin left ∧ denominator = .fin right ∧
          0 < right ∧ 2 ^ (-1075 : Int) < left / right ∧
            (roundToDouble (left / right)).isFinite = true := by
  cases denominator with
  | nan => cases below
  | inf negative =>
      have lost : ∀ value, (fin 0).lt (value / inf negative) = false := by
        intro value
        cases value with
        | fin value =>
            change (fin 0).lt (fin 0) = false
            simp [lt]
        | _ => rfl
      simp [lost]
  | fin right =>
      have rightNonzero : right ≠ 0 := fun zero => nonzero (by rw [zero])
      have rightPositive : 0 < right :=
        lt_of_le_of_ne (by simpa [le] using below) rightNonzero.symm
      cases numerator with
      | nan => cases above
      | inf negative =>
          have endless : (inf negative / fin right).isFinite = false := by
            change (if right = 0 then nan else
              inf (negative != decide (right < 0))).isFinite = false
            rw [if_neg rightNonzero]
            rfl
          simp [endless]
      | fin left =>
          have quotient : fin left / fin right =
              roundToDouble (left / right) := if_neg rightNonzero
          rw [quotient, roundToDouble_pos_iff]
          constructor
          · intro priced
            exact ⟨left, right, rfl, rfl, rightPositive, priced.1, priced.2⟩
          · rintro ⟨_, _, sameLeft, sameRight, _, above, finite⟩
            cases sameLeft
            cases sameRight
            exact ⟨above, finite⟩

/-- What adding up the values can come to. -/
inductive SumOf : List PyFloat → PyFloat → Prop where
  | one (value : PyFloat) : SumOf [value] value
  | add {left right both : List PyFloat} {first second : PyFloat} :
      SumOf left first → SumOf right second → both.Perm (left ++ right) →
      SumOf both (first + second)

namespace PyFloat

theorem le_antisymm {left right : PyFloat} (below : left.le right = true)
    (above : right.le left = true) : left = right := by
  cases left with
  | nan => cases below
  | inf negative =>
      cases right with
      | nan => cases below
      | inf other => cases negative <;> cases other <;> simp_all [le]
      | fin value => cases negative <;> simp_all [le]
  | fin value =>
      cases right with
      | nan => cases below
      | inf other => cases other <;> simp_all [le]
      | fin other =>
          simp only [le, decide_eq_true_eq] at below above
          rw [below.antisymm above]

theorem le_add {left right : Rat} {first second : PyFloat}
    (leftLe : (fin left).le first = true)
    (rightLe : (fin right).le second = true) :
    (roundToDouble (left + right)).le (first + second) = true := by
  have toInf : ∀ value : Rat, (roundToDouble value).le (.inf false) = true := by
    intro value
    unfold roundToDouble
    dsimp only
    split_ifs <;> simp [le]
  cases first with
  | nan => cases leftLe
  | inf negative =>
      cases negative with
      | true => cases leftLe
      | false =>
          cases second with
          | nan => cases rightLe
          | inf other =>
              cases other with
              | true => cases rightLe
              | false => exact toInf _
          | fin value => exact toInf _
  | fin value =>
      cases second with
      | nan => cases rightLe
      | inf other =>
          cases other with
          | true => cases rightLe
          | false => exact toInf _
      | fin other =>
          simp only [le, decide_eq_true_eq] at leftLe rightLe
          exact roundToDouble_mono (add_le_add leftLe rightLe)

private theorem add_le {left right : Rat} {first second : PyFloat}
    (leftLe : first.le (fin left) = true)
    (rightLe : second.le (fin right) = true) :
    (first + second).le (roundToDouble (left + right)) = true := by
  have fromInf : ∀ value : Rat, (inf true).le (roundToDouble value) = true := by
    intro value
    unfold roundToDouble
    dsimp only
    split_ifs <;> simp [le]
  cases first with
  | nan => cases leftLe
  | inf negative =>
      cases negative with
      | false => cases leftLe
      | true =>
          cases second with
          | nan => cases rightLe
          | inf other =>
              cases other with
              | false => cases rightLe
              | true => exact fromInf _
          | fin value => exact fromInf _
  | fin value =>
      cases second with
      | nan => cases rightLe
      | inf other =>
          cases other with
          | false => cases rightLe
          | true => exact fromInf _
      | fin other =>
          simp only [le, decide_eq_true_eq] at leftLe rightLe
          exact roundToDouble_mono (add_le_add leftLe rightLe)

end PyFloat

theorem isDouble_zero : IsDouble 0 := by
  simp [IsDouble, roundToDouble]

/-- A number of steps of a power of two is a double. -/
theorem isDouble_scaled {count exponent : Nat} (fits : count < 2 ^ 53)
    (bounded : exponent ≤ 900) : IsDouble (count * 2 ^ exponent) := by
  rcases Nat.eq_zero_or_pos count with zero | positive
  · rw [zero, Nat.cast_zero, zero_mul]
    exact isDouble_zero
  have cast : (0 : Rat) < count := by exact_mod_cast positive
  have valuePositive : (0 : Rat) < count * 2 ^ exponent := by positivity
  have below : (count * 2 ^ exponent : Rat) < 2 ^ (53 + exponent) := by
    rw [pow_add]
    exact mul_lt_mul_of_pos_right (by exact_mod_cast fits) (by positivity)
  have exponentBelow := binaryExponent_lt valuePositive below
  push_cast at exponentBelow
  have last : ulpExponent (count * 2 ^ exponent) ≤ exponent := by
    rw [ulpExponent, max_le_iff]
    constructor <;> omega
  obtain ⟨steps, multiple⟩ := zpow_eq_multiple last
  have whole : nearestMultiple (count * 2 ^ exponent) =
      count * 2 ^ exponent := by
    rw [zpow_natCast] at multiple
    have ulpPositive : (0 : Rat) < 2 ^ ulpExponent (count * 2 ^ exponent) := by
      positivity
    have quotient : (count * 2 ^ exponent : Rat) /
        2 ^ ulpExponent (count * 2 ^ exponent) = (count * steps : Int) := by
      rw [div_eq_iff ulpPositive.ne']
      push_cast
      rw [mul_assoc, ← multiple]
    rw [nearestMultiple, quotient, roundHalfEven_intCast, ← quotient,
      div_mul_cancel₀ _ ulpPositive.ne']
  have inRange : ¬ (2 : Rat) ^ 1024 ≤ count * 2 ^ exponent := by
    rw [not_le]
    exact below.trans_le (pow_le_pow_right₀ (by norm_num) (by omega))
  rw [IsDouble, roundToDouble_of_pos valuePositive, whole, if_neg inRange]

namespace SumOf

variable {values : List PyFloat} {total : PyFloat}

theorem isNonneg (summed : SumOf values total)
    (nonneg : ∀ value ∈ values, (PyFloat.fin 0).le value = true) :
    (PyFloat.fin 0).le total = true := by
  induction summed with
  | one value => exact nonneg value (by simp)
  | add _ _ split first second =>
      have left := first (fun value member =>
        nonneg value (split.mem_iff.mpr (by simp [member])))
      have right := second (fun value member =>
        nonneg value (split.mem_iff.mpr (by simp [member])))
      have bound := PyFloat.le_add left right
      rwa [add_zero, isDouble_zero] at bound

/-- A sum without negative terms is not below any of them. -/
theorem le_of_mem (summed : SumOf values total)
    (nonneg : ∀ value ∈ values, (PyFloat.fin 0).le value = true) {bound : Rat}
    (double : IsDouble bound)
    (reached : ∃ value ∈ values, (PyFloat.fin bound).le value = true) :
    (PyFloat.fin bound).le total = true := by
  induction summed with
  | one value => simpa using reached
  | add leftSum rightSum split first second =>
      have leftNonneg : ∀ value ∈ _, (PyFloat.fin 0).le value = true :=
        fun value inside => nonneg value
          (split.mem_iff.mpr (List.mem_append_left _ inside))
      have rightNonneg : ∀ value ∈ _, (PyFloat.fin 0).le value = true :=
        fun value inside => nonneg value
          (split.mem_iff.mpr (List.mem_append_right _ inside))
      obtain ⟨value, member, atLeast⟩ := reached
      rcases List.mem_append.mp (split.mem_iff.mp member) with inside | inside
      · have sum := PyFloat.le_add
          (first leftNonneg ⟨value, inside, atLeast⟩)
          (rightSum.isNonneg rightNonneg)
        rwa [add_zero, double] at sum
      · have sum := PyFloat.le_add (leftSum.isNonneg leftNonneg)
          (second rightNonneg ⟨value, inside, atLeast⟩)
        rwa [zero_add, double] at sum

/-- A sum is at most the number of its terms times a bound on them. -/
theorem le_count (summed : SumOf values total) {exponent : Nat}
    (bounded : exponent ≤ 900)
    (atMost : ∀ value ∈ values, value.le (.fin (2 ^ exponent)) = true)
    (few : values.length < 2 ^ 53) :
    total.le (.fin (values.length * 2 ^ exponent)) = true := by
  induction summed with
  | one value => simpa using atMost value (by simp)
  | @add left right both first second _ _ split leftBound rightBound =>
      have length := split.length_eq
      rw [List.length_append] at length
      have leftLe := leftBound (fun value inside => atMost value
        (split.mem_iff.mpr (List.mem_append_left _ inside))) (by omega)
      have rightLe := rightBound (fun value inside => atMost value
        (split.mem_iff.mpr (List.mem_append_right _ inside))) (by omega)
      have bound := PyFloat.add_le leftLe rightLe
      have same : (left.length * 2 ^ exponent + right.length * 2 ^ exponent :
          Rat) = both.length * 2 ^ exponent := by
        rw [length]
        push_cast
        ring
      rwa [same, isDouble_scaled few bounded] at bound

theorem eq_zero (summed : SumOf values total)
    (zeros : ∀ value ∈ values, value = .fin 0) : total = .fin 0 := by
  induction summed with
  | one value => exact zeros value (by simp)
  | add _ _ split first second =>
      rw [first (fun value inside => zeros value
          (split.mem_iff.mpr (List.mem_append_left _ inside))),
        second (fun value inside => zeros value
          (split.mem_iff.mpr (List.mem_append_right _ inside))),
        PyFloat.fin_add, add_zero, isDouble_zero]

end SumOf

end TickStream.Python
