import Mathlib.Algebra.Order.Floor.Ring
import Mathlib.Data.List.GetD
import Mathlib.Data.Rat.Floor
import Mathlib.Tactic.Linarith
import TickStream.Library.OrderedQuery

/-!
# Percentiles

The percentile of some numbers, interpolated between the two nearest in the
order.  It does not depend on how the numbers are listed, and it says how many
of them are below a bound and how many are not.
-/

namespace TickStream.Library

section Sorted

variable {sorted : List Rat} {position : Nat}

/-- What holds of an entry and of everything below it holds of the entries up
to it. -/
theorem countP_upTo (ordered : sorted.Pairwise (· ≤ ·))
    (inside : position < sorted.length) {holds : Rat → Bool}
    (downward : ∀ value, value ≤ sorted[position] → holds value = true) :
    position + 1 ≤ sorted.countP holds := by
  have initial : (sorted.take (position + 1)).countP holds =
      (sorted.take (position + 1)).length := by
    apply List.countP_eq_length.mpr
    intro value member
    obtain ⟨index, bound, same⟩ := List.mem_take_iff_getElem.mp member
    rw [← same]
    apply downward
    have early : index ≤ position := by omega
    rcases Nat.lt_or_eq_of_le early with before | here
    · exact List.pairwise_iff_getElem.mp ordered index position _ inside before
    · simp [here]
  have within := (List.take_sublist (position + 1) sorted).countP_le
    (p := holds)
  rw [initial, List.length_take_of_le inside] at within
  exact within

/-- What holds of an entry and of everything above it holds of the entries from
it on. -/
theorem countP_from (ordered : sorted.Pairwise (· ≤ ·))
    (inside : position < sorted.length) {holds : Rat → Bool}
    (upward : ∀ value, sorted[position] ≤ value → holds value = true) :
    sorted.length - position ≤ sorted.countP holds := by
  have final : (sorted.drop position).countP holds =
      (sorted.drop position).length := by
    apply List.countP_eq_length.mpr
    intro value member
    obtain ⟨index, bound, same⟩ := List.mem_drop_iff_getElem.mp member
    rw [← same]
    apply upward
    rcases Nat.eq_zero_or_pos index with here | after
    · simp [here]
    · exact List.pairwise_iff_getElem.mp ordered position _ inside _ (by omega)
  have within := (List.drop_sublist position sorted).countP_le (p := holds)
  rw [final, List.length_drop] at within
  exact within

end Sorted

/-- The numbers in ascending order. -/
def ascending (values : List Rat) : List Rat :=
  orderBy (fun value => value) values

theorem ascending_perm (values : List Rat) : (ascending values).Perm values :=
  orderBy_perm values

theorem ascending_pairwise (values : List Rat) :
    (ascending values).Pairwise (· ≤ ·) :=
  List.pairwise_insertionSort _ values

theorem ascending_eq_of_perm {values other : List Rat}
    (same : values.Perm other) : ascending values = ascending other := by
  refine List.Perm.eq_of_pairwise ?_ (ascending_pairwise values)
    (ascending_pairwise other) ?_
  · intro first second _ _ below above
    exact le_antisymm below above
  · exact (ascending_perm values).trans (same.trans (ascending_perm other).symm)

/-- What is used of an interpolation between two numbers in order. -/
structure Interpolates (interpolate : Rat → Rat → Rat → Rat) : Prop where
  start : ∀ low high, interpolate low high 0 = low
  between : ∀ low high share, low ≤ high → 0 ≤ share → share ≤ 1 →
    low ≤ interpolate low high share ∧ interpolate low high share ≤ high

def interpolateLinearly (low high share : Rat) : Rat :=
  low + (high - low) * share

theorem interpolateLinearly_interpolates : Interpolates interpolateLinearly := by
  refine ⟨fun low high => by simp [interpolateLinearly], ?_⟩
  intro low high share rises nonneg part
  have first := mul_nonneg (sub_nonneg.mpr rises) nonneg
  have last := mul_le_mul_of_nonneg_left part (sub_nonneg.mpr rises)
  rw [mul_one] at last
  constructor
  · exact le_add_of_nonneg_right first
  · rw [interpolateLinearly]
    linarith

/-- The position of the percentile between the first entry and the last. -/
def percentileIndex (percent : Rat) (count : Nat) : Rat :=
  percent / 100 * ((count : Rat) - 1)

/-- Interpolation between the entries on both sides of the position. -/
def percentile (interpolate : Rat → Rat → Rat → Rat) (percent : Rat)
    (values : List Rat) : Rat :=
  let sorted := ascending values
  let index := percentileIndex percent values.length
  let below := ⌊index⌋.toNat
  let low := sorted.getD below 0
  interpolate low (sorted.getD (below + 1) low) (index - below)

variable {interpolate : Rat → Rat → Rat → Rat}

theorem percentile_perm {percent : Rat} {values other : List Rat}
    (same : values.Perm other) :
    percentile interpolate percent values =
      percentile interpolate percent other := by
  simp only [percentile, ascending_eq_of_perm same, same.length_eq]

section Bounds

variable {percent : Rat} {values : List Rat}

/-- The position lies within the list. -/
theorem percentileIndex_mem (low : 0 ≤ percent) (high : percent ≤ 100)
    (occupied : values ≠ []) :
    0 ≤ percentileIndex percent values.length ∧
      percentileIndex percent values.length ≤ (values.length : Rat) - 1 := by
  have some : (1 : Rat) ≤ values.length := by
    exact_mod_cast List.length_pos_iff.mpr occupied
  constructor
  · exact mul_nonneg (by linarith) (by linarith)
  · have share : percent / 100 ≤ 1 := by linarith
    have scaled := mul_le_mul_of_nonneg_right share
      (by linarith : (0 : Rat) ≤ (values.length : Rat) - 1)
    rwa [one_mul] at scaled

/-- The percentile lies between the entries around its position. -/
theorem percentile_between (interpolates : Interpolates interpolate)
    (low : 0 ≤ percent) (high : percent ≤ 100) (occupied : values ≠ []) :
    ∃ below above : Fin (ascending values).length,
      below = ⌊percentileIndex percent values.length⌋.toNat ∧
      above = ⌈percentileIndex percent values.length⌉.toNat ∧
      (ascending values)[below] ≤ percentile interpolate percent values ∧
      percentile interpolate percent values ≤ (ascending values)[above] := by
  obtain ⟨nonneg, within⟩ := percentileIndex_mem low high occupied
  have length := (ascending_perm values).length_eq
  generalize indexIs : percentileIndex percent values.length = index at *
  have belowIs : ((⌊index⌋.toNat : Nat) : Rat) = (⌊index⌋ : Rat) := by
    exact_mod_cast Int.toNat_of_nonneg (Int.floor_nonneg.mpr nonneg)
  have started : ((⌊index⌋.toNat : Nat) : Rat) ≤ index := by
    rw [belowIs]
    exact Int.floor_le index
  have ended : index < ((⌊index⌋.toNat : Nat) : Rat) + 1 := by
    rw [belowIs]
    exact Int.lt_floor_add_one index
  generalize belowNat : ⌊index⌋.toNat = below at *
  have inside : below < (ascending values).length := by
    have bounded : (below : Rat) + 1 ≤ values.length := by linarith
    rw [length]
    exact_mod_cast bounded
  have lowIs : (ascending values).getD below 0 = (ascending values)[below] :=
    List.getD_eq_getElem _ _ inside
  rcases eq_or_lt_of_le started with onEntry | between
  · -- The position is that of an entry: nothing is interpolated.
    have aboveNat : ⌈index⌉.toNat = below := by
      rw [← onEntry]
      simp
    have value : percentile interpolate percent values =
        (ascending values)[below] := by
      simp only [percentile, indexIs, belowNat, lowIs, onEntry, sub_self,
        interpolates.start]
    exact ⟨⟨below, inside⟩, ⟨below, inside⟩, rfl, aboveNat.symm, value.ge,
      value.le⟩
  · have aboveNat : ⌈index⌉.toNat = below + 1 := by
      have ceiling : ⌈index⌉ = (below : Int) + 1 := by
        rw [Int.ceil_eq_iff]
        push_cast
        constructor <;> linarith
      omega
    have next : below + 1 < (ascending values).length := by
      have bounded : (below : Rat) + 1 < values.length := by linarith
      rw [length]
      exact_mod_cast bounded
    have highIs : (ascending values).getD (below + 1) (ascending values)[below]
        = (ascending values)[below + 1] := List.getD_eq_getElem _ _ next
    have rises : (ascending values)[below] ≤ (ascending values)[below + 1] :=
      List.pairwise_iff_getElem.mp (ascending_pairwise values) _ _ inside next
        (Nat.lt_succ_self below)
    have value : percentile interpolate percent values =
        interpolate (ascending values)[below] (ascending values)[below + 1]
          (index - below) := by
      simp only [percentile, indexIs, belowNat, lowIs, highIs]
    rw [value]
    have inOrder := interpolates.between _ _ (index - below) rises
      (sub_nonneg.mpr between.le) (by linarith)
    exact ⟨⟨below, inside⟩, ⟨below + 1, next⟩, rfl, aboveNat.symm, inOrder⟩

theorem countP_lt_of_percentile (interpolates : Interpolates interpolate)
    (low : 0 ≤ percent) (high : percent ≤ 100) (occupied : values ≠ [])
    {bound : Rat} (small : percentile interpolate percent values < bound) :
    ⌊percentileIndex percent values.length⌋.toNat + 1 ≤
      values.countP (fun value => value < bound) := by
  obtain ⟨below, _, position, _, lower, _⟩ :=
    percentile_between interpolates low high occupied
  rw [← (ascending_perm values).countP_eq, ← position]
  apply countP_upTo (ascending_pairwise values) below.isLt
  intro value within
  apply decide_eq_true
  exact lt_of_le_of_lt (le_trans within lower) small

theorem countP_le_of_percentile (interpolates : Interpolates interpolate)
    (low : 0 ≤ percent) (high : percent ≤ 100) (occupied : values ≠ [])
    {bound : Rat} (large : bound ≤ percentile interpolate percent values) :
    values.length - ⌈percentileIndex percent values.length⌉.toNat ≤
      values.countP (fun value => bound ≤ value) := by
  obtain ⟨_, above, _, position, _, upper⟩ :=
    percentile_between interpolates low high occupied
  rw [← position, ← (ascending_perm values).countP_eq,
    ← (ascending_perm values).length_eq]
  apply countP_from (ascending_pairwise values) above.isLt
  intro value within
  apply decide_eq_true
  exact le_trans large (le_trans upper within)

end Bounds

end TickStream.Library
