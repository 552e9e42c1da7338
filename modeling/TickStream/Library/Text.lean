import Mathlib.Algebra.BigOperators.Group.List.Basic
import Mathlib.Algebra.GroupWithZero.Nat
import Mathlib.Data.List.Perm.Subperm

/-!
# Printed integers and separated fields

Printing an integer in decimal loses nothing and never prints a separator, so
fields joined by a separator can be read back from the right.  Joining more
distinct fields gives a longer text.
-/

namespace TickStream.Library

/-- A separator ends the first field that is free of it. -/
theorem append_sep_inj_left {sep : Char} {left right : List Char}
    (leftRest rightRest : List Char) (leftFree : sep ∉ left)
    (rightFree : sep ∉ right)
    (same : left ++ sep :: leftRest = right ++ sep :: rightRest) :
    left = right ∧ leftRest = rightRest := by
  induction left generalizing right with
  | nil =>
      cases right with
      | nil => exact ⟨rfl, (List.cons.inj same).2⟩
      | cons head rest =>
          have sameHead := (List.cons.inj same).1
          exact (rightFree (by simp [sameHead])).elim
  | cons head rest induction =>
      cases right with
      | nil =>
          have sameHead := (List.cons.inj same).1
          exact (leftFree (by simp [sameHead])).elim
      | cons other otherRest =>
          obtain ⟨sameHead, sameTail⟩ := List.cons.inj same
          obtain ⟨sameRest, rests⟩ := induction
            (fun member => leftFree (by simp [member]))
            (fun member => rightFree (by simp [member])) sameTail
          exact ⟨by rw [sameHead, sameRest], rests⟩

/-- A separator starts the last field that is free of it. -/
theorem append_sep_inj {sep : Char} {left right leftTail rightTail : List Char}
    (leftFree : sep ∉ leftTail) (rightFree : sep ∉ rightTail)
    (same : left ++ sep :: leftTail = right ++ sep :: rightTail) :
    left = right ∧ leftTail = rightTail := by
  have reversed := congrArg List.reverse same
  simp only [List.reverse_append, List.reverse_cons, List.append_assoc,
    List.singleton_append] at reversed
  obtain ⟨sameTails, sameHeads⟩ := append_sep_inj_left left.reverse
    right.reverse (by simpa using leftFree) (by simpa using rightFree) reversed
  exact ⟨List.reverse_injective sameHeads, List.reverse_injective sameTails⟩

theorem toString_natCast_toList (value : Nat) :
    (toString (value : Int)).toList = Nat.toDigits 10 value := by
  change (Nat.repr value).toList = _
  exact Nat.toList_repr

theorem toString_negSucc_toList (value : Nat) :
    (toString (Int.negSucc value)).toList =
      '-' :: Nat.toDigits 10 (value + 1) := by
  change ("-" ++ Nat.repr (value + 1)).toList = _
  rw [String.toList_append, Nat.toList_repr]
  rfl

theorem digits_injective {left right : Nat}
    (same : Nat.toDigits 10 left = Nat.toDigits 10 right) : left = right := by
  have restored := congrArg (fun digits => Nat.ofDigitChars 10 digits 0) same
  simpa only [Nat.ofDigitChars_ten_toDigits] using restored

theorem digits_free (sep : Char) (noDigit : sep.isDigit = false)
    (value : Nat) : sep ∉ Nat.toDigits 10 value := by
  intro member
  have digit := Nat.isDigit_of_mem_toDigits (by decide) (by decide) member
  rw [noDigit] at digit
  cases digit

theorem toString_int_injective {left right : Int}
    (same : (toString left).toList = (toString right).toList) :
    left = right := by
  cases left with
  | ofNat left =>
      cases right with
      | ofNat right =>
          change (toString (left : Int)).toList =
            (toString (right : Int)).toList at same
          rw [toString_natCast_toList, toString_natCast_toList] at same
          rw [digits_injective same]
      | negSucc right =>
          change (toString (left : Int)).toList = _ at same
          rw [toString_natCast_toList, toString_negSucc_toList] at same
          exact (digits_free '-' rfl left (by simp [same])).elim
  | negSucc left =>
      cases right with
      | ofNat right =>
          change _ = (toString (right : Int)).toList at same
          rw [toString_natCast_toList, toString_negSucc_toList] at same
          exact (digits_free '-' rfl right (by simp [← same])).elim
      | negSucc right =>
          rw [toString_negSucc_toList, toString_negSucc_toList] at same
          have digits := digits_injective (List.cons.inj same).2
          rw [Nat.succ.inj digits]

theorem toString_int_free (value : Int) : '|' ∉ (toString value).toList := by
  cases value with
  | ofNat value =>
      change '|' ∉ (toString (value : Int)).toList
      rw [toString_natCast_toList]
      exact digits_free '|' rfl value
  | negSucc value =>
      rw [toString_negSucc_toList]
      intro member
      rcases List.mem_cons.mp member with sign | digit
      · exact absurd sign (by decide)
      · exact digits_free '|' rfl _ digit

theorem length_intercalate {separator : String} {fields : List String}
    (nonempty : fields ≠ []) :
    (separator.intercalate fields).length + separator.length =
      (fields.map (fun field => field.length + separator.length)).sum := by
  induction fields with
  | nil => exact absurd rfl nonempty
  | cons field rest induction =>
      by_cases last : rest = []
      · subst last
        simp
      · rw [String.intercalate_cons_of_ne_nil last, List.map_cons,
          List.sum_cons, ← induction last]
        simp only [String.length_append]
        omega

/-- Fields among others that join to the same text are all of them. -/
theorem subset_of_intercalate_eq {separator : String}
    (separated : 0 < separator.length) {fewer fields : List String}
    (distinct : fewer.Nodup) (among : fewer ⊆ fields)
    (nonempty : fewer ≠ [])
    (same : separator.intercalate fewer = separator.intercalate fields) :
    fields ⊆ fewer := by
  obtain ⟨chosen, permutation, sublist⟩ :=
    List.subperm_of_subset distinct among
  obtain ⟨others, split⟩ := sublist.exists_perm_append
  have whole : fields.Perm (fewer ++ others) :=
    split.trans (permutation.append_right others)
  have occupied : fields ≠ [] := by
    intro empty
    rw [empty] at among
    exact nonempty (List.subset_nil.mp among)
  have lengths : (separator.intercalate fewer).length + separator.length =
      (fewer.map (fun field => field.length + separator.length)).sum :=
    length_intercalate nonempty
  rw [same, length_intercalate occupied,
    (whole.map (fun field => field.length + separator.length)).sum_eq,
    List.map_append, List.sum_append] at lengths
  have none : others = [] := by
    cases others with
    | nil => rfl
    | cons other rest =>
        rw [List.map_cons, List.sum_cons] at lengths
        omega
  rw [none, List.append_nil] at whole
  exact whole.subset

end TickStream.Library
