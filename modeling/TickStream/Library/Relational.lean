import Mathlib.Algebra.BigOperators.Group.Finset.Basic
import Mathlib.Algebra.GroupWithZero.Nat
import Mathlib.Algebra.Ring.Rat
import Mathlib.Data.List.Sort
import TickStream.Library.KeyedFold

/-!
# Relational operators on lists of rows

Grouping, `row_number() = 1`, null-skipping aggregates and the full outer join
of SQL, on rows in scan order.  An aggregate or a division that SQL makes null
is `none`.
-/

namespace TickStream.Library

section Group

variable {α κ : Type} [DecidableEq κ] (key : α → κ)

/-- The groups of `group by`, each with its rows in scan order. -/
def groupBy (rows : List α) : Dict κ (List α) :=
  foldKeyed key (fun group row => group ++ [row]) [] rows

theorem foldl_concat (earlier rows : List α) :
    rows.foldl (fun group row => group ++ [row]) earlier = earlier ++ rows := by
  induction rows generalizing earlier with
  | nil => simp
  | cons row rest induction => simp [induction]

theorem mem_groupBy {rows : List α} {selected : κ} {group : List α} :
    (selected, group) ∈ (groupBy key rows).entries ↔
      (∃ row ∈ rows, key row = selected) ∧ group = itemsAt key rows selected := by
  simp only [groupBy]
  rw [mem_foldKeyed, foldl_concat, List.nil_append]

theorem mem_group {rows : List α} {selected : κ} {group : List α}
    (member : (selected, group) ∈ (groupBy key rows).entries) (row : α) :
    row ∈ group ↔ row ∈ rows ∧ key row = selected := by
  rw [((mem_groupBy key).mp member).2, mem_itemsAt]

/-- Every group has a row. -/
theorem group_ne_nil {rows : List α} {selected : κ} {group : List α}
    (member : (selected, group) ∈ (groupBy key rows).entries) : group ≠ [] := by
  obtain ⟨⟨row, rowMember, same⟩, _⟩ := (mem_groupBy key).mp member
  have present := (mem_group key member row).mpr ⟨rowMember, same⟩
  exact List.ne_nil_of_mem present

theorem keys_groupBy_toFinset (rows : List α) :
    (groupBy key rows).keys.toFinset = (rows.map key).toFinset := by
  ext selected
  rw [List.mem_toFinset, List.mem_toFinset]
  simp only [groupBy]
  rw [mem_keys_foldKeyed, List.mem_map]

/-- A total over the groups, as a sum over the keys that occur. -/
theorem sum_groupBy (measure : List α → Nat) (rows : List α) :
    ((groupBy key rows).entries.map (fun group => measure group.2)).sum =
      ∑ selected ∈ (rows.map key).toFinset,
        measure (itemsAt key rows selected) := by
  have measured :
      (groupBy key rows).entries.map (fun group => measure group.2) =
        (groupBy key rows).keys.map
          (fun selected => measure (itemsAt key rows selected)) := by
    simp only [Dict.keys, List.map_map]
    apply List.map_congr_left
    intro group member
    exact congrArg measure ((mem_groupBy key).mp member).2
  rw [measured, ← keys_groupBy_toFinset,
    List.sum_toFinset _ (groupBy key rows).keys_nodup]

end Group

section Aggregates

/-- `sum(..)` of a column without nulls: null on no rows. -/
def sqlSum (values : List Rat) : Option Rat :=
  if values = [] then none else some values.sum

/-- `avg(..)` of a column without nulls: null on no rows. -/
def sqlAvg (values : List Rat) : Option Rat :=
  if values = [] then none else some (values.sum / values.length)

def nullIf {F : Type} [DecidableEq F] (value : Option F) (banned : F) :
    Option F :=
  value.filter (fun found => found ≠ banned)

/-- `left / right`, null when an operand is. -/
def nullDiv {F : Type} [Div F] (left right : Option F) : Option F :=
  match left, right with
  | some numerator, some denominator => some (numerator / denominator)
  | _, _ => none

theorem sqlSum_of_ne_nil {values : List Rat} (nonempty : values ≠ []) :
    sqlSum values = some values.sum := if_neg nonempty

theorem nil_iff_of_perm {α : Type} {values other : List α}
    (same : values.Perm other) : values = [] ↔ other = [] := by
  rw [← List.length_eq_zero_iff, same.length_eq, List.length_eq_zero_iff]

theorem sqlSum_perm {values other : List Rat} (same : values.Perm other) :
    sqlSum values = sqlSum other := by
  simp only [sqlSum, nil_iff_of_perm same, same.sum_eq]

theorem sqlAvg_perm {values other : List Rat} (same : values.Perm other) :
    sqlAvg values = sqlAvg other := by
  simp only [sqlAvg, nil_iff_of_perm same, same.sum_eq, same.length_eq]

end Aggregates

section RowNumber

variable {α κ : Type} [DecidableEq κ] (key : α → κ) (le : α → α → Prop)
  [DecidableRel le]

/-- The first row of every partition under an order; among ties the first one
scanned. -/
def rowNumberOne (rows : List α) : List α :=
  (groupBy key rows).entries.filterMap
    (fun group => (group.2.insertionSort le).head?)

/-- The row a partition keeps. -/
def firstOf (rows : List α) (selected : κ) : Option α :=
  ((itemsAt key rows selected).insertionSort le).head?

theorem firstOf_mem {rows : List α} {selected : κ} {row : α}
    (first : firstOf key le rows selected = some row) :
    row ∈ rows ∧ key row = selected := by
  have sortedMember := List.mem_of_mem_head? (Option.mem_def.mpr first)
  have member := (List.perm_insertionSort le _).mem_iff.mp sortedMember
  exact (mem_itemsAt key).mp member

theorem firstOf_isSome {rows : List α} {row : α} (member : row ∈ rows) :
    ∃ first, firstOf key le rows (key row) = some first := by
  have present : row ∈ itemsAt key rows (key row) :=
    (mem_itemsAt key).mpr ⟨member, rfl⟩
  have sortedMember :=
    (List.perm_insertionSort le (itemsAt key rows (key row))).mem_iff.mpr
      present
  simp only [firstOf]
  cases sorted : (itemsAt key rows (key row)).insertionSort le with
  | nil => simp [sorted] at sortedMember
  | cons first rest => exact ⟨first, rfl⟩

theorem mem_rowNumberOne {rows : List α} {row : α} :
    row ∈ rowNumberOne key le rows ↔
      firstOf key le rows (key row) = some row := by
  simp only [rowNumberOne]
  rw [List.mem_filterMap]
  constructor
  · intro kept
    rcases kept with ⟨⟨selected, group⟩, member, first⟩
    have sameGroup := ((mem_groupBy key).mp member).2
    subst sameGroup
    have same := (firstOf_mem key le first).2
    subst same
    exact first
  · intro first
    have member := (firstOf_mem key le first).1
    exact ⟨(key row, itemsAt key rows (key row)),
      (mem_groupBy key).mpr ⟨⟨row, member, rfl⟩, rfl⟩, first⟩

theorem rowNumberOne_subset {rows : List α} {row : α}
    (member : row ∈ rowNumberOne key le rows) : row ∈ rows :=
  (firstOf_mem key le ((mem_rowNumberOne key le).mp member)).1

/-- Every partition keeps a row. -/
theorem exists_rowNumberOne {rows : List α} {row : α} (member : row ∈ rows) :
    ∃ first ∈ rowNumberOne key le rows, key first = key row := by
  obtain ⟨first, found⟩ := firstOf_isSome key le member
  have same := (firstOf_mem key le found).2
  exact ⟨first, (mem_rowNumberOne key le).mpr (same ▸ found), same⟩

omit [DecidableEq κ] in
private theorem filterMap_keys_sublist {γ : Type} (choose : γ → Option α)
    (name : γ → κ) {entries : List γ}
    (named : ∀ entry ∈ entries, ∀ row, choose entry = some row →
      key row = name entry) :
    ((entries.filterMap choose).map key).Sublist (entries.map name) := by
  induction entries with
  | nil => simp
  | cons entry rest induction =>
      have tail := induction
        (fun other member => named other (by simp [member]))
      cases chosen : choose entry with
      | none =>
          simp only [List.filterMap_cons, chosen, List.map_cons]
          exact tail.cons _
      | some row =>
          have same := named entry (by simp) row chosen
          simp only [List.filterMap_cons, chosen, List.map_cons, same]
          exact tail.cons_cons _

/-- No partition keeps two rows. -/
theorem rowNumberOne_keys_nodup (rows : List α) :
    ((rowNumberOne key le rows).map key).Nodup := by
  refine (groupBy key rows).keysDistinct.sublist ?_
  apply filterMap_keys_sublist
  intro entry member row first
  have sameGroup := ((mem_groupBy key).mp member).2
  rw [sameGroup] at first
  exact (firstOf_mem key le first).2

theorem rowNumberOne_nodup (rows : List α) :
    (rowNumberOne key le rows).Nodup :=
  List.Nodup.of_map key (rowNumberOne_keys_nodup key le rows)

/-- What `row_number() = 1` can keep when it may number ties in any order: one
row of every partition, with no row of the partition strictly before it. -/
structure KeepsFirst (rows kept : List α) : Prop where
  subset : ∀ first ∈ kept, first ∈ rows
  distinct : (kept.map key).Nodup
  covers : ∀ row ∈ rows, ∃ first ∈ kept, key first = key row
  least : ∀ first ∈ kept, ∀ row ∈ rows, key row = key first → le first row

omit [DecidableEq κ] [DecidableRel le] in
theorem KeepsFirst.of_perm {rows other kept : List α}
    (keeps : KeepsFirst key le rows kept) (permutation : rows.Perm other) :
    KeepsFirst key le other kept where
  subset first member := permutation.mem_iff.mp (keeps.subset first member)
  distinct := keeps.distinct
  covers row member := keeps.covers row (permutation.mem_iff.mpr member)
  least first firstMember row member :=
    keeps.least first firstMember row (permutation.mem_iff.mpr member)

omit [DecidableEq κ] [DecidableRel le] in
/-- Dropping rows that come last in their partitions. -/
theorem KeepsFirst.filter {rows kept : List α} (keeps : KeepsFirst key le rows
    kept) {keep : α → Bool}
    (downward : ∀ first row, key row = key first → le first row →
      keep row → keep first) :
    KeepsFirst key le (rows.filter keep) (kept.filter keep) where
  subset first member := by
    rw [List.mem_filter] at member ⊢
    exact ⟨keeps.subset first member.1, member.2⟩
  distinct := keeps.distinct.sublist (List.filter_sublist.map key)
  covers row member := by
    rw [List.mem_filter] at member
    obtain ⟨first, firstMember, same⟩ := keeps.covers row member.1
    have least := keeps.least first firstMember row member.1 same.symm
    exact ⟨first, List.mem_filter.mpr ⟨firstMember,
      downward first row same.symm least member.2⟩, same⟩
  least first firstMember row member :=
    keeps.least first (List.mem_filter.mp firstMember).1 row
      (List.mem_filter.mp member).1

/-- Taking the first row scanned among ties is one way. -/
theorem rowNumberOne_keepsFirst [Std.Total le] [IsTrans α le]
    (rows : List α) : KeepsFirst key le rows (rowNumberOne key le rows) where
  subset _ member := rowNumberOne_subset key le member
  distinct := rowNumberOne_keys_nodup key le rows
  covers _ member := exists_rowNumberOne key le member
  least := by
    intro head kept row member same
    have first := (mem_rowNumberOne key le).mp kept
    simp only [firstOf] at first
    have present := (List.perm_insertionSort le
      (itemsAt key rows (key head))).mem_iff.mpr
        ((mem_itemsAt key).mpr ⟨member, same⟩)
    have sorted := List.pairwise_insertionSort le
      (itemsAt key rows (key head))
    cases ordered : (itemsAt key rows (key head)).insertionSort le with
    | nil =>
        rw [ordered] at present
        cases present
    | cons found rest =>
        rw [ordered] at first present sorted
        cases first
        rcases List.mem_cons.mp present with same | later
        · rw [same]
          exact (Std.Total.total head head).elim id id
        · exact (List.pairwise_cons.mp sorted).1 row later

end RowNumber

/-- A list whose keys are distinct has one item at each of its keys. -/
theorem itemsAt_eq_singleton {α κ : Type} [DecidableEq κ] (key : α → κ)
    {items : List α} (distinct : (items.map key).Nodup) {item : α}
    (member : item ∈ items) : itemsAt key items (key item) = [item] := by
  simp only [itemsAt]
  induction items with
  | nil => cases member
  | cons head rest induction =>
      rw [List.map_cons, List.nodup_cons] at distinct
      obtain ⟨fresh, restDistinct⟩ := distinct
      rcases List.mem_cons.mp member with same | inRest
      · subst same
        have others : rest.filter (fun other => key other = key item) = [] := by
          apply List.filter_eq_nil_iff.mpr
          intro other otherMember same
          exact fresh (List.mem_map.mpr
            ⟨other, otherMember, of_decide_eq_true same⟩)
        simp [others]
      · have different : key head ≠ key item := by
          intro same
          exact fresh (List.mem_map.mpr ⟨item, inRest, same.symm⟩)
        simp [different, induction restDistinct inRest]

/-- A filter on a column that the choice keeps. -/
theorem filterMap_filter_of_agree {α β : Type} {choose : α → Option β}
    {keep : α → Bool} {keepChosen : β → Bool}
    (agree : ∀ row chosen, choose row = some chosen →
      keep row = keepChosen chosen) (rows : List α) :
    (rows.filter keep).filterMap choose =
      (rows.filterMap choose).filter keepChosen := by
  induction rows with
  | nil => rfl
  | cons row rest induction =>
      cases chosen : choose row with
      | none =>
          by_cases kept : keep row
          · simp [kept, chosen, induction]
          · simp [kept, chosen, induction]
      | some item =>
          have same := agree row item chosen
          by_cases kept : keep row
          · simp [kept, chosen, ← same, induction]
          · simp [kept, chosen, ← same, induction]

section Ranked

variable {α κ ρ : Type} [PartialOrder ρ] {key : α → κ} {rank : α → ρ}

/-- Every row has a row of its partition on the other side that ranks no
later. -/
def Dominates (key : α → κ) (rank : α → ρ) (rows other : List α) : Prop :=
  ∀ row ∈ other, ∃ earlier ∈ rows, key earlier = key row ∧
    rank earlier ≤ rank row

theorem dominates_of_subset {rows other : List α}
    (subset : ∀ row ∈ other, row ∈ rows) : Dominates key rank rows other :=
  fun row member => ⟨row, subset row member, rfl, le_refl (rank row)⟩

theorem KeepsFirst.rank_mem {rows other kept keptOther : List α}
    (keeps : KeepsFirst key (fun left right => rank left ≤ rank right) rows
      kept)
    (keepsOther : KeepsFirst key
      (fun left right => rank left ≤ rank right) other keptOther)
    (forth : Dominates key rank rows other)
    (back : Dominates key rank other rows) {first : α}
    (member : first ∈ kept) :
    ∃ twin ∈ keptOther, key twin = key first ∧ rank twin = rank first := by
  obtain ⟨near, nearMember, nearKey, nearRank⟩ :=
    back first (keeps.subset first member)
  obtain ⟨twin, twinMember, twinKey⟩ := keepsOther.covers near nearMember
  have sameKey : key twin = key first := twinKey.trans nearKey
  obtain ⟨far, farMember, farKey, farRank⟩ :=
    forth twin (keepsOther.subset twin twinMember)
  have above : rank first ≤ rank far :=
    keeps.least first member far farMember (farKey.trans sameKey)
  have below : rank twin ≤ rank near :=
    keepsOther.least twin twinMember near nearMember twinKey.symm
  exact ⟨twin, twinMember, sameKey,
    le_antisymm (below.trans nearRank) (above.trans farRank)⟩

/-- The partitions and ranks of the rows kept are the same for row lists that
dominate each other, in particular whatever the ties. -/
theorem KeepsFirst.ranked_perm {rows other kept keptOther : List α}
    (keeps : KeepsFirst key (fun left right => rank left ≤ rank right) rows
      kept)
    (keepsOther : KeepsFirst key
      (fun left right => rank left ≤ rank right) other keptOther)
    (forth : Dominates key rank rows other)
    (back : Dominates key rank other rows) :
    (kept.map (fun row => (key row, rank row))).Perm
      (keptOther.map (fun row => (key row, rank row))) := by
  have nodup : ∀ {rows kept : List α},
      KeepsFirst key (fun left right => rank left ≤ rank right) rows kept →
        (kept.map (fun row => (key row, rank row))).Nodup := by
    intro rows kept keeps
    apply List.Nodup.of_map Prod.fst
    rw [List.map_map]
    exact keeps.distinct
  rw [List.perm_ext_iff_of_nodup (nodup keeps) (nodup keepsOther)]
  intro pair
  simp only [List.mem_map]
  constructor
  · intro ranked
    rcases ranked with ⟨first, member, same⟩
    obtain ⟨twin, twinMember, sameKey, sameRank⟩ :=
      keeps.rank_mem keepsOther forth back member
    exact ⟨twin, twinMember, by rw [sameKey, sameRank, same]⟩
  · intro ranked
    rcases ranked with ⟨first, member, same⟩
    obtain ⟨twin, twinMember, sameKey, sameRank⟩ :=
      keepsOther.rank_mem keeps back forth member
    exact ⟨twin, twinMember, by rw [sameKey, sameRank, same]⟩

end Ranked

section Twins

variable {α κ β : Type} {key : α → κ} {le : α → α → Prop} {view : α → β}
  {Twin : α → α → Prop} {rows other kept keptOther : List α}

/-- Where rows have twins in the other list, the twin of a kept row stands in
the partition of a kept row that looks the same. -/
theorem KeepsFirst.view_mem (keeps : KeepsFirst key le rows kept)
    (keepsOther : KeepsFirst key le other keptOther)
    (forth : ∀ row ∈ rows, ∃ twin ∈ other, Twin row twin)
    (back : ∀ twin ∈ other, ∃ row ∈ rows, Twin row twin)
    (keyed : ∀ row twin, Twin row twin → key row = key twin)
    (agree : ∀ row twin row' twin', Twin row twin → Twin row' twin' →
      key row = key row' → le row row' → le twin' twin →
        view row = view twin')
    {first : α} (member : first ∈ kept) :
    ∃ twin ∈ keptOther, key twin = key first ∧ view twin = view first := by
  have inside := keeps.subset first member
  obtain ⟨near, nearMember, nearTwin⟩ := forth first inside
  obtain ⟨chosen, chosenMember, chosenKey⟩ := keepsOther.covers near nearMember
  obtain ⟨far, farMember, farTwin⟩ :=
    back chosen (keepsOther.subset chosen chosenMember)
  have chosenFirst : key chosen = key first :=
    chosenKey.trans (keyed first near nearTwin).symm
  have farFirst : key far = key first :=
    (keyed far chosen farTwin).trans chosenFirst
  have above := keeps.least first member far farMember farFirst
  have below := keepsOther.least chosen chosenMember near nearMember
    chosenKey.symm
  exact ⟨chosen, chosenMember, chosenFirst,
    (agree first near far chosen nearTwin farTwin farFirst.symm above
      below).symm⟩

/-- Both lists keep rows that look the same. -/
theorem KeepsFirst.view_perm (keeps : KeepsFirst key le rows kept)
    (keepsOther : KeepsFirst key le other keptOther)
    (forth : ∀ row ∈ rows, ∃ twin ∈ other, Twin row twin)
    (back : ∀ twin ∈ other, ∃ row ∈ rows, Twin row twin)
    (keyed : ∀ row twin, Twin row twin → key row = key twin)
    (agree : ∀ row twin row' twin', Twin row twin → Twin row' twin' →
      key row = key row' → le row row' → le twin' twin →
        view row = view twin') :
    (kept.map (fun row => (key row, view row))).Perm
      (keptOther.map (fun row => (key row, view row))) := by
  have nodup : ∀ {rows kept : List α}, KeepsFirst key le rows kept →
      (kept.map (fun row => (key row, view row))).Nodup := by
    intro rows kept keeps
    apply List.Nodup.of_map Prod.fst
    rw [List.map_map]
    exact keeps.distinct
  rw [List.perm_ext_iff_of_nodup (nodup keeps) (nodup keepsOther)]
  intro pair
  simp only [List.mem_map]
  constructor
  · intro viewed
    rcases viewed with ⟨first, member, same⟩
    obtain ⟨twin, twinMember, sameKey, sameView⟩ :=
      keeps.view_mem keepsOther forth back keyed agree member
    exact ⟨twin, twinMember, by rw [sameKey, sameView, same]⟩
  · intro viewed
    rcases viewed with ⟨twin, twinMember, same⟩
    obtain ⟨row, rowMember, rowTwin⟩ :=
      back twin (keepsOther.subset twin twinMember)
    obtain ⟨first, member, firstKey⟩ := keeps.covers row rowMember
    obtain ⟨found, foundMember, foundKey, foundView⟩ :=
      keeps.view_mem keepsOther forth back keyed agree member
    have here : key found = key twin := by
      rw [foundKey, firstKey, keyed row twin rowTwin]
    have foundIs : found = twin :=
      List.inj_on_of_nodup_map keepsOther.distinct foundMember twinMember here
    rw [foundIs] at foundKey foundView
    exact ⟨first, member, by rw [← foundKey, ← foundView, same]⟩

end Twins

/-- A row of a full outer join; at least one side is present. -/
inductive Joined (α β : Type) where
  | both (left : α) (right : β)
  | leftOnly (left : α)
  | rightOnly (right : β)

namespace Joined

variable {α β κ : Type}

def left? : Joined α β → Option α
  | both left _ => some left
  | leftOnly left => some left
  | rightOnly _ => none

def right? : Joined α β → Option β
  | both _ right => some right
  | leftOnly _ => none
  | rightOnly right => some right

/-- `coalesce` of the two sides' keys. -/
def key (leftKey : α → κ) (rightKey : β → κ) : Joined α β → κ
  | both left _ => leftKey left
  | leftOnly left => leftKey left
  | rightOnly right => rightKey right

end Joined

section Join

variable {α β κ : Type} [DecidableEq κ] (leftKey : α → κ) (rightKey : β → κ)

def matching (right : List β) (row : α) : List β :=
  right.filter (fun other => leftKey row = rightKey other)

def joinLeft (right : List β) (row : α) : List (Joined α β) :=
  match matching leftKey rightKey right row with
  | [] => [.leftOnly row]
  | matched => matched.map (Joined.both row)

def unmatched (left : List α) (right : List β) : List β :=
  right.filter (fun other => left.all (fun row => leftKey row ≠ rightKey other))

def fullOuterJoin (left : List α) (right : List β) : List (Joined α β) :=
  left.flatMap (joinLeft leftKey rightKey right) ++
    (unmatched leftKey rightKey left right).map Joined.rightOnly

theorem mem_joinLeft {right : List β} {row : α} {joined : Joined α β} :
    joined ∈ joinLeft leftKey rightKey right row ↔
      (∃ other ∈ right, leftKey row = rightKey other ∧
        joined = .both row other) ∨
      ((∀ other ∈ right, leftKey row ≠ rightKey other) ∧
        joined = .leftOnly row) := by
  have matchedIff : ∀ other, other ∈ matching leftKey rightKey right row ↔
      other ∈ right ∧ leftKey row = rightKey other := by
    intro other
    simp [matching]
  simp only [joinLeft]
  cases found : matching leftKey rightKey right row with
  | nil =>
      have none : ∀ other ∈ right, leftKey row ≠ rightKey other := by
        intro other member same
        have impossible := (matchedIff other).mpr ⟨member, same⟩
        simp [found] at impossible
      constructor
      · intro member
        exact Or.inr ⟨none, List.mem_singleton.mp member⟩
      · intro shape
        rcases shape with ⟨other, member, same, _⟩ | ⟨_, same⟩
        · exact (none other member same).elim
        · exact List.mem_singleton.mpr same
  | cons head tail =>
      simp only [← found, List.mem_map, matchedIff]
      constructor
      · intro paired
        rcases paired with ⟨other, ⟨member, same⟩, joinedEq⟩
        exact Or.inl ⟨other, member, same, joinedEq.symm⟩
      · intro shape
        rcases shape with ⟨other, member, same, joinedEq⟩ | ⟨none, _⟩
        · exact ⟨other, ⟨member, same⟩, joinedEq.symm⟩
        · have headMember : head ∈ matching leftKey rightKey right row := by
            simp [found]
          obtain ⟨member, same⟩ := (matchedIff head).mp headMember
          exact (none head member same).elim

theorem mem_unmatched {left : List α} {right : List β} {other : β} :
    other ∈ unmatched leftKey rightKey left right ↔
      other ∈ right ∧ ∀ row ∈ left, leftKey row ≠ rightKey other := by
  simp [unmatched]

/-- What a full outer join holds. -/
theorem mem_fullOuterJoin {left : List α} {right : List β}
    {joined : Joined α β} :
    joined ∈ fullOuterJoin leftKey rightKey left right ↔
      (∃ row ∈ left, ∃ other ∈ right, leftKey row = rightKey other ∧
        joined = .both row other) ∨
      (∃ row ∈ left, (∀ other ∈ right, leftKey row ≠ rightKey other) ∧
        joined = .leftOnly row) ∨
      (∃ other ∈ right, (∀ row ∈ left, leftKey row ≠ rightKey other) ∧
        joined = .rightOnly other) := by
  simp only [fullOuterJoin]
  rw [List.mem_append, List.mem_flatMap, List.mem_map]
  simp only [mem_joinLeft, mem_unmatched]
  constructor
  · intro shape
    rcases shape with ⟨row, member, ⟨other, otherMember, same, equality⟩ |
      ⟨none, equality⟩⟩ | ⟨other, ⟨member, none⟩, equality⟩
    · exact Or.inl ⟨row, member, other, otherMember, same, equality⟩
    · exact Or.inr (Or.inl ⟨row, member, none, equality⟩)
    · exact Or.inr (Or.inr ⟨other, member, none, equality.symm⟩)
  · intro shape
    rcases shape with ⟨row, member, other, otherMember, same, equality⟩ |
      ⟨row, member, none, equality⟩ | ⟨other, member, none, equality⟩
    · exact Or.inl ⟨row, member, Or.inl ⟨other, otherMember, same, equality⟩⟩
    · exact Or.inl ⟨row, member, Or.inr ⟨none, equality⟩⟩
    · exact Or.inr ⟨other, ⟨member, none⟩, equality.symm⟩

theorem joinLeft_keys {right : List β}
    (rightDistinct : (right.map rightKey).Nodup) (row : α) :
    ((joinLeft leftKey rightKey right row).map
      (Joined.key leftKey rightKey)).Nodup := by
  have matchedDistinct :
      ((matching leftKey rightKey right row).map rightKey).Nodup :=
    rightDistinct.sublist (List.filter_sublist.map rightKey)
  have sameKeys : (matching leftKey rightKey right row).map
      (fun _ => leftKey row) =
        (matching leftKey rightKey right row).map rightKey := by
    apply List.map_congr_left
    intro other member
    simpa using List.of_mem_filter member
  simp only [joinLeft]
  cases found : matching leftKey rightKey right row with
  | nil => simp
  | cons head tail =>
      rw [List.map_map, ← found]
      change ((matching leftKey rightKey right row).map
        (fun _ => leftKey row)).Nodup
      rw [sameKeys]
      exact matchedDistinct

/-- Keys distinct on each side stay distinct in the join: it cannot fan out. -/
theorem fullOuterJoin_keys_nodup {left : List α} {right : List β}
    (leftDistinct : (left.map leftKey).Nodup)
    (rightDistinct : (right.map rightKey).Nodup) :
    ((fullOuterJoin leftKey rightKey left right).map
      (Joined.key leftKey rightKey)).Nodup := by
  have leftKeys : ∀ row key, key ∈ (joinLeft leftKey rightKey right row).map
      (Joined.key leftKey rightKey) → key = leftKey row := by
    intro row key member
    obtain ⟨joined, joinedMember, same⟩ := List.mem_map.mp member
    rcases (mem_joinLeft leftKey rightKey).mp joinedMember with
      ⟨other, _, _, equality⟩ | ⟨_, equality⟩
    · subst equality
      exact same.symm
    · subst equality
      exact same.symm
  have unmatchedKeys : (((unmatched leftKey rightKey left right).map
      (Joined.rightOnly (α := α))).map
        (Joined.key leftKey rightKey)) =
      (unmatched leftKey rightKey left right).map rightKey := by
    rw [List.map_map]
    rfl
  simp only [fullOuterJoin]
  rw [List.map_append, unmatchedKeys, List.nodup_append, List.map_flatMap,
    List.nodup_flatMap]
  refine ⟨⟨?_, ?_⟩, ?_, ?_⟩
  · intro row _
    exact joinLeft_keys leftKey rightKey rightDistinct row
  · have distinct := List.pairwise_map.mp leftDistinct
    apply distinct.imp
    intro first second different key firstMember secondMember
    exact different
      ((leftKeys first key firstMember).symm.trans
        (leftKeys second key secondMember))
  · exact rightDistinct.sublist (List.filter_sublist.map rightKey)
  · intro first firstMember second secondMember same
    obtain ⟨row, rowMember, keyMember⟩ := List.mem_flatMap.mp firstMember
    obtain ⟨other, otherMember, otherKey⟩ := List.mem_map.mp secondMember
    have absent := ((mem_unmatched leftKey rightKey).mp otherMember).2 row
      rowMember
    have rowKey := leftKeys row first keyMember
    exact absent (rowKey.symm.trans (same.trans otherKey.symm))

end Join

end TickStream.Library
