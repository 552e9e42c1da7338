import Mathlib.Algebra.BigOperators.Ring.List
import Mathlib.Algebra.Order.BigOperators.Group.List
import Mathlib.Algebra.Order.Field.Basic
import Mathlib.Data.Finset.Max

/-!
# Weighted means

A mean with weights of one sign lies between the extreme values that carry a
weight.  Items of weight zero may have any value.
-/

namespace TickStream.Library

section WeightedMean

variable {α F : Type} [Field F] [LinearOrder F] [IsStrictOrderedRing F]

def weightedMean (value weight : α → F) (items : List α) : F :=
  (items.map (fun item => value item * weight item)).sum /
    (items.map weight).sum

variable {value weight : α → F} {items : List α}

omit [LinearOrder F] [IsStrictOrderedRing F] in
/-- With equal weights it is the plain mean. -/
theorem weightedMean_one (value : α → F) (items : List α) :
    weightedMean value (fun _ => 1) items =
      (items.map value).sum / (items.length : F) := by
  simp [weightedMean]

omit [LinearOrder F] [IsStrictOrderedRing F] in
theorem weightedMean_mul (factor : F) (value weight : α → F)
    (items : List α) :
    weightedMean (fun item => value item * factor) weight items =
      weightedMean value weight items * factor := by
  simp only [weightedMean, mul_right_comm _ factor]
  rw [List.sum_map_mul_right, div_mul_eq_mul_div]

omit [IsStrictOrderedRing F] in
/-- A total of weights that is not zero has a positive weight under it. -/
theorem exists_weight_pos (nonneg : ∀ item ∈ items, 0 ≤ weight item)
    (nonzero : (items.map weight).sum ≠ 0) :
    ∃ item ∈ items, 0 < weight item := by
  by_contra none
  apply nonzero
  apply List.sum_eq_zero
  intro amount member
  obtain ⟨item, itemMember, rfl⟩ := List.mem_map.mp member
  have small : ¬ 0 < weight item := by
    intro positive
    exact none ⟨item, itemMember, positive⟩
  exact le_antisymm (not_lt.mp small) (nonneg item itemMember)

theorem sum_weight_nonneg (nonneg : ∀ item ∈ items, 0 ≤ weight item) :
    0 ≤ (items.map weight).sum := by
  apply List.sum_nonneg
  intro amount member
  obtain ⟨item, itemMember, rfl⟩ := List.mem_map.mp member
  exact nonneg item itemMember

/-- Means are monotone in the values that carry a weight. -/
theorem weightedMean_mono {other : α → F}
    (nonneg : ∀ item ∈ items, 0 ≤ weight item)
    (below : ∀ item ∈ items, 0 < weight item → value item ≤ other item) :
    weightedMean value weight items ≤ weightedMean other weight items := by
  apply div_le_div_of_nonneg_right _ (sum_weight_nonneg nonneg)
  apply List.sum_le_sum
  intro item member
  rcases (nonneg item member).eq_or_lt with zero | positive
  · rw [← zero, mul_zero, mul_zero]
  · exact mul_le_mul_of_nonneg_right (below item member positive)
      positive.le

omit [LinearOrder F] [IsStrictOrderedRing F] in
theorem weightedMean_const (amount : F)
    (nonzero : (items.map weight).sum ≠ 0) :
    weightedMean (fun _ => amount) weight items = amount := by
  simp only [weightedMean]
  rw [List.sum_map_mul_left, mul_div_cancel_right₀ _ nonzero]

theorem le_weightedMean {low : F}
    (nonneg : ∀ item ∈ items, 0 ≤ weight item)
    (nonzero : (items.map weight).sum ≠ 0)
    (above : ∀ item ∈ items, 0 < weight item → low ≤ value item) :
    low ≤ weightedMean value weight items := by
  calc low = weightedMean (fun _ => low) weight items :=
        (weightedMean_const low nonzero).symm
    _ ≤ weightedMean value weight items := weightedMean_mono nonneg above

theorem weightedMean_le {high : F}
    (nonneg : ∀ item ∈ items, 0 ≤ weight item)
    (nonzero : (items.map weight).sum ≠ 0)
    (below : ∀ item ∈ items, 0 < weight item → value item ≤ high) :
    weightedMean value weight items ≤ high := by
  calc weightedMean value weight items
      ≤ weightedMean (fun _ => high) weight items :=
        weightedMean_mono nonneg below
    _ = high := weightedMean_const high nonzero

theorem mean_mem_range {low high : F} (nonempty : items ≠ [])
    (within : ∀ item ∈ items, low ≤ value item ∧ value item ≤ high) :
    low ≤ (items.map value).sum / (items.length : F) ∧
      (items.map value).sum / (items.length : F) ≤ high := by
  have nonneg : ∀ item ∈ items, (0 : F) ≤ 1 := fun _ _ => zero_le_one
  have nonzero : (items.map (fun _ => (1 : F))).sum ≠ 0 := by
    simpa using nonempty
  rw [← weightedMean_one]
  exact ⟨le_weightedMean nonneg nonzero
      (fun item member _ => (within item member).1),
    weightedMean_le nonneg nonzero
      (fun item member _ => (within item member).2)⟩

end WeightedMean

section Extremes

variable {F : Type} [LinearOrder F]

theorem exists_isLeast_of_ne_nil {values : List F} (nonempty : values ≠ []) :
    ∃ least, IsLeast {value | value ∈ values} least := by
  have present : values.toFinset.Nonempty :=
    List.toFinset_nonempty_iff values |>.mpr nonempty
  have least := values.toFinset.isLeast_min' present
  simp only [List.coe_toFinset] at least
  exact ⟨_, least⟩

theorem exists_isGreatest_of_ne_nil {values : List F}
    (nonempty : values ≠ []) :
    ∃ greatest, IsGreatest {value | value ∈ values} greatest := by
  have present : values.toFinset.Nonempty :=
    List.toFinset_nonempty_iff values |>.mpr nonempty
  have greatest := values.toFinset.isGreatest_max' present
  simp only [List.coe_toFinset] at greatest
  exact ⟨_, greatest⟩

end Extremes

end TickStream.Library
