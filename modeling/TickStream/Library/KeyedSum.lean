import Mathlib.Algebra.BigOperators.Group.Finset.Piecewise
import Mathlib.Algebra.BigOperators.Group.List.Basic
import TickStream.Library.KeyedFold

/-!
# Keyed sums

A keyed fold whose accumulators are a commutative monoid and whose step adds
the value of an item.  Every total is the sum over the items of its key.  The
items can then be grouped by a coarser key in two ways, in one pass or by
adding up the totals of a finer grouping.
-/

namespace TickStream.Library

section KeyedSum

variable {α κ β : Type} [DecidableEq κ] [AddCommMonoid β]

/-- The totals of a list of items, key by key. -/
def keyedSum (key : α → κ) (value : α → β) (items : List α) : Dict κ β :=
  foldKeyed key (fun total item => total + value item) 0 items

/-- The total of one key. -/
def totalAt (key : α → κ) (value : α → β) (items : List α)
    (selected : κ) : β :=
  ((itemsAt key items selected).map value).sum

variable (key : α → κ) (value : α → β)

omit [DecidableEq κ] in
theorem foldl_add_value (items : List α) (start : β) :
    items.foldl (fun total item => total + value item) start =
      start + (items.map value).sum := by
  induction items generalizing start with
  | nil => simp
  | cons item rest induction =>
      rw [List.foldl_cons, induction, List.map_cons, List.sum_cons, add_assoc]

theorem sum_alterEntries (selected : κ) (amount : β)
    (entries : List (κ × β)) :
    ((Dict.alterEntries selected (fun bound => bound.getD 0 + amount)
      entries).map Prod.snd).sum =
      (entries.map Prod.snd).sum + amount := by
  induction entries with
  | nil => simp [Dict.alterEntries]
  | cons entry rest induction =>
      obtain ⟨head, total⟩ := entry
      by_cases same : head = selected
      · simp [Dict.alterEntries, same, add_right_comm]
      · simp [Dict.alterEntries, same, induction, add_assoc]

/-- The totals add up to the sum over all items. -/
theorem sum_keyedSum (items : List α) :
    ((keyedSum key value items).entries.map Prod.snd).sum =
      (items.map value).sum := by
  induction items using List.reverseRecOn with
  | nil => rfl
  | append_singleton items item induction =>
      simp only [keyedSum] at induction ⊢
      rw [foldKeyed_concat]
      simp only [Dict.alter]
      rw [sum_alterEntries, induction, List.map_append, List.sum_append,
        List.map_singleton, List.sum_singleton]

/-- The total of a coarse key is the sum of the fine totals under it. -/
theorem totalAt_coarsen {κ' : Type} [DecidableEq κ'] (coarse : κ → κ')
    (items : List α) (selected : κ') :
    totalAt (fun item => coarse (key item)) value items selected =
      (((keyedSum key value items).entries.filter
        (fun entry => coarse entry.1 = selected)).map Prod.snd).sum := by
  induction items using List.reverseRecOn with
  | nil => rfl
  | append_singleton items item induction =>
      simp only [keyedSum] at induction ⊢
      rw [foldKeyed_concat]
      simp only [Dict.alter, totalAt] at induction ⊢
      by_cases under : coarse (key item) = selected
      · subst under
        rw [itemsAt_concat_same (fun item => coarse (key item)) items item,
          Dict.filter_alterEntries_of_kept
            (fun fine => decide (coarse fine = coarse (key item))) (by simp),
          sum_alterEntries, ← induction]
        simp
      · rw [itemsAt_concat_other (fun item => coarse (key item)) items
            (Ne.symm under),
          Dict.filter_alterEntries_of_dropped
            (fun fine => decide (coarse fine = selected)) (by simpa using under),
          induction]

/-- Totals over distinct keys that cover the items add up to the sum over all
items. -/
theorem sum_totalAt_of_covers {keys : List κ} (distinct : keys.Nodup)
    {items : List α} (covers : ∀ item ∈ items, key item ∈ keys) :
    (keys.map (totalAt key value items)).sum = (items.map value).sum := by
  induction items with
  | nil =>
      have none : ∀ selected, totalAt key value [] selected = 0 :=
        fun _ => rfl
      simp [funext none]
  | cons item rest induction =>
      have split : totalAt key value (item :: rest) = fun selected =>
          (if selected = key item then value item else 0) +
            totalAt key value rest selected := by
        funext selected
        by_cases same : key item = selected
        · simp [totalAt, itemsAt, same]
        · simp [totalAt, itemsAt, same, Ne.symm same]
      have once : (keys.map (fun selected =>
          if selected = key item then value item else 0)).sum =
            value item := by
        have listed : key item ∈ keys.toFinset :=
          List.mem_toFinset.mpr (covers item (by simp))
        rw [← List.sum_toFinset _ distinct, Finset.sum_ite_eq' _ _ _,
          if_pos listed]
      rw [split, List.sum_map_add,
        induction (fun other member => covers other (by simp [member])),
        once, List.map_cons, List.sum_cons]

end KeyedSum

end TickStream.Library
