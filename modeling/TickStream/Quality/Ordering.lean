import Mathlib.Algebra.BigOperators.Group.Finset.Piecewise
import TickStream.Library.Relational

/-!
# Records out of order

`count_out_of_order` walks each symbol's rows with one remembered timestamp,
which a late record does not update.  It counts the rows with an earlier row
of the same symbol and a later `ts_event`.
-/

namespace TickStream

open Library

section Ordering

variable {α κ τ : Type} [DecidableEq κ] [LinearOrder τ]
  (symbol : α → κ) (tsEvent : α → τ)

/-- One record of a group: the count, and the timestamp remembered. -/
def visitTs (state : Nat × Option τ) (ts : τ) : Nat × Option τ :=
  match state.2 with
  | none => (state.1, some ts)
  | some prev =>
      if ts < prev then (state.1 + 1, some prev) else (state.1, some ts)

def countGroup (out : Nat) (group : List α) : Nat :=
  ((group.map tsEvent).foldl visitTs (out, none)).1

def countOutOfOrder (rows : List α) : Nat :=
  if rows.isEmpty then 0
  else
    ((groupBy symbol rows).entries.map Prod.snd).foldl (countGroup tsEvent) 0

/-- Some earlier row of the symbol of row `index` has a later timestamp. -/
def LateAt (rows : List α) (index : Nat) : Prop :=
  ∃ row ∈ rows[index]?, ∃ earlier ∈ rows.take index,
    symbol earlier = symbol row ∧ tsEvent row < tsEvent earlier

instance (rows : List α) (index : Nat) :
    Decidable (LateAt symbol tsEvent rows index) :=
  inferInstanceAs (Decidable (∃ row ∈ rows[index]?, _))

/-- The positions of the late rows. -/
def lateRows (rows : List α) : List Nat :=
  (List.range rows.length).filter (fun index => LateAt symbol tsEvent rows index)

/-- The remembered timestamp is the largest one of the group so far. -/
structure RunningMax (seen : List τ) (prev : Option τ) : Prop where
  bounds : ∀ ts ∈ seen, ∃ largest ∈ prev, ts ≤ largest
  attained : ∀ largest ∈ prev, largest ∈ seen

theorem RunningMax.initial : RunningMax ([] : List τ) none where
  bounds := by simp
  attained := by simp

theorem RunningMax.exceeds_iff {seen : List τ} {prev : Option τ}
    (running : RunningMax seen prev) (ts : τ) :
    (∃ largest ∈ prev, ts < largest) ↔ ∃ earlier ∈ seen, ts < earlier := by
  constructor
  · intro exceeds
    rcases exceeds with ⟨largest, remembered, below⟩
    exact ⟨largest, running.attained largest remembered, below⟩
  · intro exceeds
    rcases exceeds with ⟨earlier, member, below⟩
    obtain ⟨largest, remembered, bounded⟩ := running.bounds earlier member
    exact ⟨largest, remembered, lt_of_lt_of_le below bounded⟩

theorem RunningMax.keep {seen : List τ} {largest ts : τ}
    (running : RunningMax seen (some largest)) (below : ts ≤ largest) :
    RunningMax (seen ++ [ts]) (some largest) where
  bounds := by
    intro other member
    rcases List.mem_append.mp member with old | new
    · exact running.bounds other old
    · rw [List.mem_singleton] at new
      subst other
      exact ⟨largest, rfl, below⟩
  attained := by
    intro remembered same
    exact List.mem_append_left _ (running.attained remembered same)

theorem RunningMax.advance {seen : List τ} {prev : Option τ} {ts : τ}
    (running : RunningMax seen prev) (above : ∀ largest ∈ prev, largest ≤ ts) :
    RunningMax (seen ++ [ts]) (some ts) where
  bounds := by
    intro other member
    rcases List.mem_append.mp member with old | new
    · obtain ⟨largest, remembered, bounded⟩ := running.bounds other old
      exact ⟨ts, rfl, bounded.trans (above largest remembered)⟩
    · rw [List.mem_singleton] at new
      exact ⟨ts, rfl, le_of_eq new⟩
  attained := by
    intro largest remembered
    cases remembered
    simp

/-- A late record leaves the largest timestamp alone, any other one becomes
it. -/
theorem RunningMax.visit {seen : List τ} {state : Nat × Option τ}
    (running : RunningMax seen state.2) (ts : τ) :
    RunningMax (seen ++ [ts]) (visitTs state ts).2 ∧
      (visitTs state ts).1 =
        state.1 + if ∃ earlier ∈ seen, ts < earlier then 1 else 0 := by
  have exceeds := running.exceeds_iff ts
  obtain ⟨out, prev⟩ := state
  cases prev with
  | none =>
      have late : ¬ ∃ earlier ∈ seen, ts < earlier := by
        rw [← exceeds]
        simp
      rw [if_neg late]
      exact ⟨running.advance (by simp), rfl⟩
  | some prev =>
      by_cases below : ts < prev
      · have late : ∃ earlier ∈ seen, ts < earlier :=
          exceeds.mp ⟨prev, rfl, below⟩
        simp only [visitTs]
        rw [if_pos below, if_pos late]
        exact ⟨running.keep below.le, rfl⟩
      · have late : ¬ ∃ earlier ∈ seen, ts < earlier := by
          rw [← exceeds]
          rintro ⟨largest, remembered, smaller⟩
          cases remembered
          exact below smaller
        have above : ∀ largest ∈ some prev, largest ≤ ts := by
          intro largest remembered
          cases remembered
          exact not_lt.mp below
        simp only [visitTs]
        rw [if_neg below, if_neg late]
        exact ⟨running.advance above, rfl⟩

private theorem runningMax_foldl (out : Nat) (stamps : List τ) :
    RunningMax stamps (stamps.foldl visitTs (out, none)).2 := by
  induction stamps using List.reverseRecOn with
  | nil => exact RunningMax.initial
  | append_singleton stamps ts induction =>
      rw [List.foldl_append]
      exact (induction.visit ts).1

theorem countGroup_concat (out : Nat) (group : List α) (row : α) :
    countGroup tsEvent out (group ++ [row]) =
      countGroup tsEvent out group +
        if ∃ earlier ∈ group, tsEvent row < tsEvent earlier then 1 else 0 := by
  have running := runningMax_foldl out (group.map tsEvent)
  have counted := (running.visit (tsEvent row)).2
  have stamped : (∃ earlier ∈ group.map tsEvent, tsEvent row < earlier) ↔
      ∃ earlier ∈ group, tsEvent row < tsEvent earlier := by simp
  simp only [stamped] at counted
  simp only [countGroup, List.map_append, List.foldl_append]
  exact counted

/-- The count so far is carried through a group. -/
private theorem countGroup_add (out : Nat) (group : List α) :
    countGroup tsEvent out group = out + countGroup tsEvent 0 group := by
  induction group using List.reverseRecOn with
  | nil => rfl
  | append_singleton group row induction =>
      rw [countGroup_concat, countGroup_concat, induction, Nat.add_assoc]

private theorem foldl_countGroup (out : Nat) (groups : List (List α)) :
    groups.foldl (countGroup tsEvent) out =
      out + (groups.map (countGroup tsEvent 0)).sum := by
  induction groups generalizing out with
  | nil => rfl
  | cons group rest induction =>
      rw [List.foldl_cons, induction, countGroup_add, List.map_cons,
        List.sum_cons, Nat.add_assoc]

theorem countOutOfOrder_eq_sum (rows : List α) :
    countOutOfOrder symbol tsEvent rows =
      ∑ selected ∈ (rows.map symbol).toFinset,
        countGroup tsEvent 0 (itemsAt symbol rows selected) := by
  rw [← sum_groupBy symbol (countGroup tsEvent 0)]
  simp only [countOutOfOrder]
  split
  · rename_i empty
    rw [List.isEmpty_iff.mp empty]
    rfl
  · rw [foldl_countGroup, Nat.zero_add, List.map_map]
    rfl

/-- Symbols without a row add nothing. -/
theorem countOutOfOrder_eq_sum_of_subset {rows : List α} {symbols : Finset κ}
    (covers : (rows.map symbol).toFinset ⊆ symbols) :
    countOutOfOrder symbol tsEvent rows =
      ∑ selected ∈ symbols,
        countGroup tsEvent 0 (itemsAt symbol rows selected) := by
  rw [countOutOfOrder_eq_sum]
  apply Finset.sum_subset covers
  intro selected _ absent
  have empty : itemsAt symbol rows selected = [] := by
    apply List.eq_nil_iff_forall_not_mem.mpr
    intro row member
    obtain ⟨present, same⟩ := (mem_itemsAt symbol).mp member
    apply absent
    rw [List.mem_toFinset, List.mem_map]
    exact ⟨row, present, same⟩
  rw [empty]
  rfl

private theorem countGroup_itemsAt_concat (rows : List α) (row : α)
    (selected : κ) :
    countGroup tsEvent 0 (itemsAt symbol (rows ++ [row]) selected) =
      countGroup tsEvent 0 (itemsAt symbol rows selected) +
        if selected = symbol row then
          if ∃ earlier ∈ itemsAt symbol rows (symbol row),
            tsEvent row < tsEvent earlier then 1 else 0
        else 0 := by
  by_cases same : selected = symbol row
  · subst same
    rw [itemsAt_concat_same, countGroup_concat, if_pos rfl]
  · rw [itemsAt_concat_other symbol rows same, if_neg same, Nat.add_zero]

private theorem countOutOfOrder_concat (rows : List α) (row : α) :
    countOutOfOrder symbol tsEvent (rows ++ [row]) =
      countOutOfOrder symbol tsEvent rows +
        if ∃ earlier ∈ itemsAt symbol rows (symbol row),
          tsEvent row < tsEvent earlier then 1 else 0 := by
  have covers : (rows.map symbol).toFinset ⊆
      ((rows ++ [row]).map symbol).toFinset := by
    intro selected member
    rw [List.mem_toFinset] at member ⊢
    simp only [List.map_append]
    exact List.mem_append_left _ member
  have present : symbol row ∈ ((rows ++ [row]).map symbol).toFinset := by
    simp
  rw [countOutOfOrder_eq_sum, countOutOfOrder_eq_sum_of_subset _ _ covers]
  simp only [countGroup_itemsAt_concat]
  rw [Finset.sum_add_distrib, Finset.sum_ite_eq', if_pos present]

omit [DecidableEq κ] in
private theorem lateAt_concat_of_lt {rows : List α} (row : α) {index : Nat}
    (inside : index < rows.length) :
    LateAt symbol tsEvent (rows ++ [row]) index ↔
      LateAt symbol tsEvent rows index := by
  simp only [LateAt]
  rw [List.getElem?_append_left inside,
    List.take_append_of_le_length inside.le]

theorem lateAt_concat_last (rows : List α) (row : α) :
    LateAt symbol tsEvent (rows ++ [row]) rows.length ↔
      ∃ earlier ∈ itemsAt symbol rows (symbol row),
        tsEvent row < tsEvent earlier := by
  simp only [LateAt, mem_itemsAt]
  rw [List.take_left]
  simp [and_assoc]

private theorem length_lateRows_concat (rows : List α) (row : α) :
    (lateRows symbol tsEvent (rows ++ [row])).length =
      (lateRows symbol tsEvent rows).length +
        if ∃ earlier ∈ itemsAt symbol rows (symbol row),
          tsEvent row < tsEvent earlier then 1 else 0 := by
  have before :
      (List.range rows.length).filter
          (fun index => LateAt symbol tsEvent (rows ++ [row]) index) =
        lateRows symbol tsEvent rows := by
    apply List.filter_congr
    intro index member
    simp only [lateAt_concat_of_lt symbol tsEvent row (List.mem_range.mp member)]
  simp only [lateRows] at before ⊢
  rw [List.length_append, List.length_singleton, List.range_succ,
    List.filter_append, before, List.length_append]
  congr 1
  by_cases late : LateAt symbol tsEvent (rows ++ [row]) rows.length
  · rw [if_pos ((lateAt_concat_last symbol tsEvent rows row).mp late)]
    simp [late]
  · rw [if_neg (mt (lateAt_concat_last symbol tsEvent rows row).mpr late)]
    simp [late]

private theorem countOutOfOrder_eq_length (rows : List α) :
    countOutOfOrder symbol tsEvent rows =
      (lateRows symbol tsEvent rows).length := by
  induction rows using List.reverseRecOn with
  | nil => rfl
  | append_singleton rows row induction =>
      rw [countOutOfOrder_concat, length_lateRows_concat, induction]

theorem countGroup_eq_zero_iff (group : List α) :
    countGroup tsEvent 0 group = 0 ↔
      (group.map tsEvent).Pairwise (· ≤ ·) := by
  induction group using List.reverseRecOn with
  | nil => simp [countGroup]
  | append_singleton group row induction =>
      rw [countGroup_concat, Nat.add_eq_zero_iff, induction, List.map_append,
        List.pairwise_append]
      simp

/-- No record is late exactly when every symbol's rows are in order. -/
private theorem countOutOfOrder_eq_zero_iff (rows : List α) :
    countOutOfOrder symbol tsEvent rows = 0 ↔
      ∀ selected, ((itemsAt symbol rows selected).map tsEvent).Pairwise
        (· ≤ ·) := by
  constructor
  · intro none selected
    rw [← countGroup_eq_zero_iff]
    rw [countOutOfOrder_eq_sum_of_subset symbol tsEvent
      (Finset.subset_insert selected _), Finset.sum_eq_zero_iff] at none
    exact none selected (Finset.mem_insert_self _ _)
  · intro ordered
    rw [countOutOfOrder_eq_sum]
    apply Finset.sum_eq_zero
    intro selected _
    exact (countGroup_eq_zero_iff tsEvent _).mpr (ordered selected)

/-- Only each symbol's own timestamps matter. -/
private theorem countOutOfOrder_congr {rows other : List α}
    (sameStamps : ∀ selected,
      (itemsAt symbol rows selected).map tsEvent =
        (itemsAt symbol other selected).map tsEvent) :
    countOutOfOrder symbol tsEvent rows =
      countOutOfOrder symbol tsEvent other := by
  have left : (rows.map symbol).toFinset ⊆
      (rows.map symbol).toFinset ∪ (other.map symbol).toFinset :=
    Finset.subset_union_left
  have right : (other.map symbol).toFinset ⊆
      (rows.map symbol).toFinset ∪ (other.map symbol).toFinset :=
    Finset.subset_union_right
  rw [countOutOfOrder_eq_sum_of_subset symbol tsEvent left,
    countOutOfOrder_eq_sum_of_subset symbol tsEvent right]
  apply Finset.sum_congr rfl
  intro selected _
  simp only [countGroup, sameStamps selected]

/-- The count is the number of late rows; it is zero exactly when every
symbol's rows are in order, and interleaving the symbols in another way keeps
it. -/
theorem countOutOfOrder_exact (rows : List α) :
    countOutOfOrder symbol tsEvent rows =
        (lateRows symbol tsEvent rows).length ∧
      (countOutOfOrder symbol tsEvent rows = 0 ↔
        ∀ selected, ((itemsAt symbol rows selected).map tsEvent).Pairwise
          (· ≤ ·)) ∧
      ∀ other : List α,
        (∀ selected, (itemsAt symbol rows selected).map tsEvent =
          (itemsAt symbol other selected).map tsEvent) →
        countOutOfOrder symbol tsEvent rows =
          countOutOfOrder symbol tsEvent other := by
  refine ⟨countOutOfOrder_eq_length symbol tsEvent rows,
    countOutOfOrder_eq_zero_iff symbol tsEvent rows, ?_⟩
  intro other sameStamps
  exact countOutOfOrder_congr symbol tsEvent sameStamps

/-- Two late rows of one symbol: the first one is not remembered. -/
example :
    countOutOfOrder Prod.fst Prod.snd
      [("BTC-USD", 9), ("ETH-USD", 1), ("BTC-USD", 4), ("BTC-USD", 5)] = 2 := by
  decide

end Ordering

end TickStream
