import Mathlib.Data.List.DropRight
import Mathlib.Data.List.Sort
import TickStream.Library.KeyedFold

/-!
# Ordered results and trailing frames

`order by` a rank that no two rows share has one result, whatever the order of
the scan.  The frame `rows between n preceding and current row` holds a row and
the rows shortly before it in its partition; no later row can change it.
-/

namespace TickStream.Library

section OrderBy

variable {α ρ : Type} [LinearOrder ρ] (rank : α → ρ)

def orderBy (rows : List α) : List α :=
  rows.insertionSort (fun left right => rank left ≤ rank right)

variable {rank} {rows other : List α}

theorem orderBy_perm (rows : List α) : (orderBy rank rows).Perm rows :=
  List.perm_insertionSort _ rows

theorem mem_orderBy {row : α} : row ∈ orderBy rank rows ↔ row ∈ rows :=
  (orderBy_perm rows).mem_iff

theorem orderBy_pairwise (distinct : (rows.map rank).Nodup) :
    (orderBy rank rows).Pairwise (fun left right => rank left < rank right) := by
  have total : Std.Total (fun left right : α => rank left ≤ rank right) :=
    ⟨fun left right => le_total (rank left) (rank right)⟩
  have transitive : IsTrans α (fun left right => rank left ≤ rank right) :=
    ⟨fun _ _ _ first second => le_trans first second⟩
  have sorted := List.pairwise_insertionSort
    (fun left right : α => rank left ≤ rank right) rows
  have different : ((orderBy rank rows).map rank).Nodup :=
    ((orderBy_perm rows).map rank).nodup_iff.mpr distinct
  exact (sorted.and (List.pairwise_map.mp different)).imp
    (fun pair => lt_of_le_of_ne pair.1 pair.2)

theorem eq_of_strictly_ordered {left right : List α}
    (leftSorted : left.Pairwise (fun first second => rank first < rank second))
    (rightSorted : right.Pairwise
      (fun first second => rank first < rank second))
    (same : left.Perm right) : left = right := by
  refine List.Perm.eq_of_pairwise ?_ leftSorted rightSorted same
  intro first second _ _ before after
  exact absurd after (lt_asymm before)

theorem orderBy_eq_of_perm (distinct : (rows.map rank).Nodup)
    (same : rows.Perm other) : orderBy rank rows = orderBy rank other := by
  have otherDistinct := (same.map rank).nodup_iff.mp distinct
  apply eq_of_strictly_ordered (orderBy_pairwise distinct)
    (orderBy_pairwise otherDistinct)
  exact (orderBy_perm rows).trans (same.trans (orderBy_perm other).symm)

theorem orderBy_filter (distinct : (rows.map rank).Nodup) (keep : α → Bool) :
    (orderBy rank rows).filter keep = orderBy rank (rows.filter keep) := by
  have kept : ((rows.filter keep).map rank).Nodup :=
    distinct.sublist (List.filter_sublist.map rank)
  apply eq_of_strictly_ordered ((orderBy_pairwise distinct).filter keep)
    (orderBy_pairwise kept)
  exact ((orderBy_perm rows).filter keep).trans (orderBy_perm _).symm

end OrderBy

section Last

variable {α ρ : Type} [LinearOrder ρ] {rank : α → ρ}

/-- A row is among the last `count + 1` when at most `count` rows rank above
it. -/
theorem mem_rtake_iff {rows : List α} {row : α} (count : Nat)
    (sorted : rows.Pairwise (fun left right => rank left < rank right)) :
    row ∈ rows.rtake (count + 1) ↔
      row ∈ rows ∧
        rows.countP (fun other => rank row < rank other) ≤ count := by
  induction rows with
  | nil => simp
  | cons head rest induction =>
      obtain ⟨smallest, restSorted⟩ := List.pairwise_cons.mp sorted
      have above : rest.countP (fun other => rank head < rank other) =
          rest.length :=
        List.countP_eq_length.mpr
          (fun other member => decide_eq_true (smallest other member))
      have later : row ∈ rest →
          (head :: rest).countP (fun other => rank row < rank other) =
            rest.countP (fun other => rank row < rank other) := by
        intro member
        have notBelow : ¬ rank row < rank head :=
          lt_asymm (smallest row member)
        simp [notBelow]
      by_cases short : rest.length ≤ count
      · have whole : (head :: rest).rtake (count + 1) = head :: rest := by
          simp [List.rtake, Nat.sub_eq_zero_of_le short]
        have bounded :
            (head :: rest).countP (fun other => rank row < rank other) ≤ count ∨
              row ∉ head :: rest := by
          by_cases first : row = head
          · left
            rw [first, List.countP_cons_of_neg (by simp), above]
            exact short
          · by_cases member : row ∈ rest
            · left
              rw [later member]
              exact le_trans List.countP_le_length short
            · right
              simp [first, member]
        rw [whole]
        constructor
        · intro member
          exact ⟨member, bounded.resolve_right (fun absent => absent member)⟩
        · exact fun kept => kept.1
      · have tail : (head :: rest).rtake (count + 1) =
            rest.rtake (count + 1) := by
          have drops : rest.length + 1 - (count + 1) =
              (rest.length - (count + 1)) + 1 := by omega
          simp only [List.rtake, List.length_cons, drops, List.drop_succ_cons]
        rw [tail, induction restSorted]
        constructor
        · intro kept
          exact ⟨List.mem_cons_of_mem _ kept.1, by
            rw [later kept.1]
            exact kept.2⟩
        · intro kept
          obtain ⟨member, few⟩ := kept
          rcases List.mem_cons.mp member with rfl | inRest
          · rw [List.countP_cons_of_neg (by simp), above] at few
            exact absurd few short
          · rw [later inRest] at few
            exact ⟨inRest, few⟩

end Last

section Frames

variable {α κ ρ : Type} [DecidableEq κ] [LinearOrder ρ] (key : α → κ)
  (rank : α → ρ)

/-- The rows of the partition of a row up to it. -/
def partitionUpTo (rows : List α) (row : α) : List α :=
  (itemsAt key rows (key row)).filter (fun other => rank other ≤ rank row)

/-- `partition by key order by rank rows between preceding preceding and
current row`. -/
def trailingFrame (preceding : Nat) (rows : List α) (row : α) : List α :=
  (orderBy rank (partitionUpTo key rank rows row)).rtake (preceding + 1)

variable {key rank} {rows other : List α}

omit [LinearOrder ρ] in
/-- Within a partition the rank alone tells rows apart. -/
theorem itemsAt_ranks_nodup
    (distinct : (rows.map (fun row => (key row, rank row))).Nodup)
    (selected : κ) : ((itemsAt key rows selected).map rank).Nodup := by
  have inside : (itemsAt key rows selected).Sublist rows :=
    List.filter_sublist
  have pairs := distinct.sublist (inside.map (fun row => (key row, rank row)))
  have named : (itemsAt key rows selected).map
      (fun row => (key row, rank row)) =
      ((itemsAt key rows selected).map rank).map (fun at' => (selected, at')) := by
    rw [List.map_map]
    apply List.map_congr_left
    intro row member
    rw [((mem_itemsAt key).mp member).2]
    rfl
  rw [named] at pairs
  exact List.Nodup.of_map _ pairs

theorem partitionUpTo_nodup
    (distinct : (rows.map (fun row => (key row, rank row))).Nodup) (row : α) :
    ((partitionUpTo key rank rows row).map rank).Nodup :=
  (itemsAt_ranks_nodup distinct (key row)).sublist
    (List.filter_sublist.map rank)

/-- A row is in the frame when at most `preceding` rows of the partition lie
after it and up to the current row. -/
theorem mem_trailingFrame (preceding : Nat)
    (distinct : (rows.map (fun row => (key row, rank row))).Nodup)
    {row earlier : α} :
    earlier ∈ trailingFrame key rank preceding rows row ↔
      earlier ∈ partitionUpTo key rank rows row ∧
        (partitionUpTo key rank rows row).countP
          (fun between => rank earlier < rank between) ≤ preceding := by
  rw [trailingFrame, mem_rtake_iff preceding
    (orderBy_pairwise (partitionUpTo_nodup distinct row)), mem_orderBy,
    (orderBy_perm _).countP_eq]

/-- The frame, in scan order. -/
theorem trailingFrame_perm (preceding : Nat)
    (distinct : (rows.map (fun row => (key row, rank row))).Nodup) (row : α) :
    (trailingFrame key rank preceding rows row).Perm
      ((partitionUpTo key rank rows row).filter (fun earlier =>
        (partitionUpTo key rank rows row).countP
          (fun between => rank earlier < rank between) ≤ preceding)) := by
  have ranks := partitionUpTo_nodup distinct row
  have frame : (trailingFrame key rank preceding rows row).Nodup :=
    ((orderBy_perm _).nodup_iff.mpr (List.Nodup.of_map rank ranks)).sublist
      (List.drop_sublist _ _)
  rw [List.perm_ext_iff_of_nodup frame
    ((List.Nodup.of_map rank ranks).filter _)]
  intro earlier
  rw [mem_trailingFrame preceding distinct, List.mem_filter, decide_eq_true_eq]

/-- Tables that agree up to a rank have the same frames up to it. -/
theorem trailingFrame_eq_of_agree {bound : ρ} (preceding : Nat)
    (distinct : (rows.map (fun row => (key row, rank row))).Nodup)
    (agree : (rows.filter (fun row => rank row ≤ bound)).Perm
      (other.filter (fun row => rank row ≤ bound)))
    {row : α} (upTo : rank row ≤ bound) :
    trailingFrame key rank preceding rows row =
      trailingFrame key rank preceding other row := by
  have cut : ∀ table : List α, partitionUpTo key rank table row =
      ((table.filter (fun row => rank row ≤ bound)).filter
        (fun earlier => rank earlier ≤ rank row)).filter
          (fun earlier => key earlier = key row) := by
    intro table
    simp only [partitionUpTo, itemsAt, List.filter_filter]
    apply List.filter_congr
    intro earlier _
    by_cases below : rank earlier ≤ rank row
    · simp [below, below.trans upTo]
    · simp [below]
  have same : (partitionUpTo key rank rows row).Perm
      (partitionUpTo key rank other row) := by
    rw [cut, cut]
    exact (agree.filter _).filter _
  simp only [trailingFrame]
  rw [orderBy_eq_of_perm (partitionUpTo_nodup distinct row) same]

end Frames

end TickStream.Library
