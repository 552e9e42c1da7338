import TickStream.Library.WatermarkMachine

/-!
# Orders that agree on every key

Two orders of the same items that agree on the items of every key.  A windowed
fold whose windows belong to keys cannot tell them apart: the same messages are
late, the same windows close, with the same accumulators.
-/

namespace TickStream.Library

/-- Both lists have the same items of every key, in the same order. -/
def SameKeyOrder {α κ : Type} [DecidableEq κ] (key : α → κ)
    (left right : List α) : Prop :=
  ∀ selected, itemsAt key left selected = itemsAt key right selected

theorem subperm_filterMap {α β : Type} {left right : List α}
    (part : left.Subperm right) (view : α → Option β) :
    (left.filterMap view).Subperm (right.filterMap view) := by
  obtain ⟨same, permutation, sub⟩ := part
  exact ⟨same.filterMap view, permutation.filterMap view, sub.filterMap view⟩

theorem subperm_map {α β : Type} {left right : List α}
    (part : left.Subperm right) (view : α → β) :
    (left.map view).Subperm (right.map view) := by
  obtain ⟨same, permutation, sub⟩ := part
  exact ⟨same.map view, permutation.map view, sub.map view⟩

/-- The items of a key seen through a partial view, where the view keeps the
key. -/
theorem itemsAt_filterMap {α β κ κ' : Type} [DecidableEq κ] [DecidableEq κ']
    {key : α → κ} {key' : β → κ'} {view : α → Option β} {items : List α}
    {selected : κ} {selected' : κ'}
    (agrees : ∀ item ∈ items, ∀ seen, view item = some seen →
      (key' seen = selected' ↔ key item = selected)) :
    itemsAt key' (items.filterMap view) selected' =
      (itemsAt key items selected).filterMap view := by
  simp only [itemsAt]
  rw [List.filter_filterMap, List.filterMap_filter]
  apply List.filterMap_congr
  intro item member
  cases seen : view item with
  | none => simp
  | some out => simp [Option.filter, agrees item member out seen]

namespace SameKeyOrder

variable {α κ : Type} [DecidableEq κ] {key : α → κ} {left right : List α}

theorem refl (items : List α) : SameKeyOrder key items items :=
  fun _ => rfl

theorem symm (same : SameKeyOrder key left right) :
    SameKeyOrder key right left :=
  fun selected => (same selected).symm

theorem trans {other : List α} (first : SameKeyOrder key left right)
    (second : SameKeyOrder key right other) : SameKeyOrder key left other :=
  fun selected => (first selected).trans (second selected)

theorem perm (same : SameKeyOrder key left right) : left.Perm right := by
  classical
  rw [List.perm_iff_count]
  intro item
  rw [← count_itemsAt key left, ← count_itemsAt key right, same]

/-- Items that stand in order under every key are part of the whole. -/
theorem subperm_of_sublists
    (sublists : ∀ selected,
      (itemsAt key left selected).Sublist (itemsAt key right selected)) :
    left.Subperm right := by
  classical
  rw [List.subperm_ext_iff]
  intro item _
  rw [← count_itemsAt key left, ← count_itemsAt key right]
  exact (sublists (key item)).count_le item

/-- If nothing is missing, the orders agree. -/
theorem of_sublists
    (sublists : ∀ selected,
      (itemsAt key left selected).Sublist (itemsAt key right selected))
    (whole : left.Perm right) : SameKeyOrder key left right := by
  intro selected
  apply (sublists selected).eq_of_length
  exact (itemsAt_perm key whole selected).length_eq

/-- Under a single key the order is that of the list. -/
theorem eq_of_one_key (same : SameKeyOrder key left right) {selected : κ}
    (one : ∀ item ∈ right, key item = selected) : left = right := by
  have all : ∀ items : List α, (∀ item ∈ items, key item = selected) →
      itemsAt key items selected = items := by
    intro items keyed
    apply List.filter_eq_self.mpr
    intro item member
    simp [keyed item member]
  have here := same selected
  rwa [all right one,
    all left (fun item member => one item (same.perm.subset member))] at here

/-- A key that is a function of the finer one agrees too. -/
theorem finer {κ' : Type} [DecidableEq κ'] {fine : α → κ'}
    (same : SameKeyOrder key left right)
    (coarse : κ' → κ) (factors : ∀ item, key item = coarse (fine item)) :
    SameKeyOrder fine left right := by
  have within : ∀ (items : List α) selected,
      itemsAt fine items selected =
        itemsAt fine (itemsAt key items (coarse selected)) selected := by
    intro items selected
    simp only [itemsAt, List.filter_filter]
    apply List.filter_congr
    intro item _
    by_cases here : fine item = selected
    · simp [here, factors]
    · simp [here]
  intro selected
  rw [within left, within right, same]

/-- Both lists seen through a view whose keys locate those of the items. -/
theorem map_located {β κ' : Type} [DecidableEq κ'] {key' : β → κ'}
    {view : α → β} {locate : κ' → κ} (same : SameKeyOrder key left right)
    (located : ∀ item ∈ left, ∀ selected,
      key' (view item) = selected ↔ key item = locate selected) :
    SameKeyOrder key' (left.map view) (right.map view) := by
  have commutes : ∀ items : List α, (∀ item ∈ items, item ∈ left) →
      ∀ selected, itemsAt key' (items.map view) selected =
        (itemsAt key items (locate selected)).map view := by
    intro items inLeft selected
    simp only [itemsAt, List.filter_map]
    congr 1
    apply List.filter_congr
    intro item member
    simp only [Function.comp_apply, located item (inLeft item member)]
  intro selected
  rw [commutes left (fun _ member => member), same,
    commutes right (fun _ member => same.perm.mem_iff.mpr member)]

/-- An item may be moved before the items of other keys. -/
theorem move_front {earlier : List α} {item : α} (later : List α)
    (others : ∀ other ∈ earlier, key other ≠ key item) :
    SameKeyOrder key (item :: (earlier ++ later))
      (earlier ++ item :: later) := by
  intro selected
  by_cases here : key item = selected
  · subst here
    have none : itemsAt key earlier (key item) = [] :=
      itemsAt_eq_nil key others
    simp only [itemsAt] at none ⊢
    simp [List.filter_append, none]
  · simp only [itemsAt]
    simp [List.filter_append, here]

theorem cons (same : SameKeyOrder key left right) (item : α) :
    SameKeyOrder key (item :: left) (item :: right) := by
  intro selected
  have tails := same selected
  simp only [itemsAt] at tails ⊢
  by_cases here : key item = selected
  · simp [here, tails]
  · simp [here, tails]

end SameKeyOrder

section Prefixes

variable {α κ : Type} [DecidableEq κ] {key : α → κ}

/-- The first item of a key stands behind items of other keys only. -/
theorem split_at_key {items : List α} {item : α} {rest : List α}
    (first : itemsAt key items (key item) = item :: rest) :
    ∃ earlier later, items = earlier ++ item :: later ∧
      (∀ other ∈ earlier, key other ≠ key item) := by
  obtain ⟨earlier, later, same, before, _, _⟩ :=
    List.filter_eq_cons_iff.mp first
  refine ⟨earlier, later, same, ?_⟩
  intro other member
  simpa using before other member

/-- What has the start of every key's items can be completed to all of them
without changing the order of any key. -/
theorem exists_completion {part whole : List α}
    (starts : ∀ selected,
      itemsAt key part selected <+: itemsAt key whole selected) :
    ∃ rest, SameKeyOrder key (part ++ rest) whole := by
  induction part generalizing whole with
  | nil => exact ⟨whole, SameKeyOrder.refl whole⟩
  | cons item part induction =>
      obtain ⟨missing, reached⟩ := starts (key item)
      have headed : itemsAt key (item :: part) (key item) =
          item :: itemsAt key part (key item) := by
        simp [itemsAt]
      rw [headed, List.cons_append] at reached
      obtain ⟨earlier, later, rfl, others⟩ := split_at_key reached.symm
      have moved := SameKeyOrder.move_front later others
      have shorter : ∀ selected, itemsAt key part selected <+:
          itemsAt key (earlier ++ later) selected := by
        intro selected
        have start := starts selected
        rw [← moved selected] at start
        simp only [itemsAt, List.filter_cons] at start ⊢
        by_cases here : key item = selected
        · simpa [here] using start
        · simpa [here] using start
      obtain ⟨rest, same⟩ := induction shorter
      exact ⟨rest, (same.cons item).trans moved⟩

end Prefixes

/-- The left list has the start of every key's items. -/
def KeyPrefix {α κ : Type} [DecidableEq κ] (key : α → κ) (left right : List α) :
    Prop :=
  ∀ selected, itemsAt key left selected <+: itemsAt key right selected

namespace KeyPrefix

variable {α κ : Type} [DecidableEq κ] {key : α → κ} {left right : List α}

theorem nil (items : List α) : KeyPrefix key [] items :=
  fun _ => List.nil_prefix

theorem trans {other : List α} (first : KeyPrefix key left right)
    (second : KeyPrefix key right other) : KeyPrefix key left other :=
  fun selected => (first selected).trans (second selected)

theorem of_prefix (start : left <+: right) : KeyPrefix key left right :=
  fun _ => start.filter _

theorem subset (starts : KeyPrefix key left right) : left ⊆ right := by
  intro item member
  have here : item ∈ itemsAt key left (key item) :=
    (mem_itemsAt _).mpr ⟨member, rfl⟩
  exact ((mem_itemsAt _).mp ((starts (key item)).subset here)).1

/-- Two lists that start the same whole never disagree: for every key one of
them starts the other. -/
theorem comparable {other : List α} (first : KeyPrefix key left other)
    (second : KeyPrefix key right other) (selected : κ) :
    itemsAt key left selected <+: itemsAt key right selected ∨
      itemsAt key right selected <+: itemsAt key left selected :=
  List.prefix_or_prefix_of_prefix (first selected) (second selected)

/-- Seen through a partial view whose keys locate those of the items. -/
theorem filterMap {β κ' : Type} [DecidableEq κ'] {key' : β → κ'}
    {view : α → Option β} {locate : κ' → κ} (starts : KeyPrefix key left right)
    (located : ∀ item ∈ right, ∀ seen, view item = some seen →
      key item = locate (key' seen)) :
    KeyPrefix key' (left.filterMap view) (right.filterMap view) := by
  have commutes : ∀ items : List α, items ⊆ right → ∀ selected,
      itemsAt key' (items.filterMap view) selected =
        itemsAt key' ((itemsAt key items (locate selected)).filterMap view)
          selected := by
    intro items inside selected
    simp only [itemsAt, List.filter_filterMap, List.filterMap_filter]
    apply List.filterMap_congr
    intro item member
    cases seen : view item with
    | none => simp
    | some out =>
        by_cases here : key' out = selected
        · simp [Option.filter, located item (inside member) out seen, here]
        · by_cases there : key item = locate selected
          · simp [Option.filter, here, there]
          · simp [Option.filter, here, there]
  intro selected
  rw [commutes left starts.subset, commutes right (List.Subset.refl right)]
  exact ((starts (locate selected)).filterMap view).filter _

end KeyPrefix

theorem SameKeyOrder.keyPrefix {α κ : Type} [DecidableEq κ] {key : α → κ}
    {left right : List α} (same : SameKeyOrder key left right) :
    KeyPrefix key left right := by
  intro selected
  refine ⟨[], ?_⟩
  rw [List.append_nil, same selected]

theorem foldKeyed_of_sameKeyOrder {α κ β : Type} [DecidableEq κ] {key : α → κ}
    {left right : List α} (same : SameKeyOrder key left right)
    (step : β → α → β) (init : β) :
    (foldKeyed key step init left).entries.Perm
      (foldKeyed key step init right).entries := by
  have nodup : ∀ items, (foldKeyed key step init items).entries.Nodup :=
    fun items => List.Nodup.of_map Prod.fst
      (foldKeyed key step init items).keysDistinct
  apply (List.perm_ext_iff_of_nodup (nodup left) (nodup right)).mpr
  intro entry
  obtain ⟨selected, value⟩ := entry
  have occupied : (∃ item ∈ left, key item = selected) ↔
      ∃ item ∈ right, key item = selected := by
    simp only [same.perm.mem_iff]
  rw [mem_foldKeyed, mem_foldKeyed, occupied, same]

namespace WindowedFold

variable {α κ β : Type} [DecidableEq κ] (spec : WindowedFold α κ β)
  {left right : List α}

theorem expired_perm (permutation : left.Perm right) :
    spec.expired left = spec.expired right := by
  funext window
  rw [Bool.eq_iff_iff, expired_iff, expired_iff]
  simp only [permutation.mem_iff]

/-- Only the messages of its own key decide whether a message is late. -/
theorem late_itemsAt (earlier : List α) (message : α) :
    spec.late earlier message =
      spec.late (itemsAt spec.key earlier (spec.key message)) message := by
  rw [Bool.eq_iff_iff]
  simp only [late, expired_iff, window, List.mem_append, List.mem_singleton,
    mem_itemsAt]
  constructor
  · intro passed
    rcases passed with ⟨seen, earlierSeen | rfl, sameKey, reached⟩
    · exact ⟨seen, Or.inl ⟨earlierSeen, sameKey⟩, sameKey, reached⟩
    · exact ⟨seen, Or.inr rfl, sameKey, reached⟩
  · intro passed
    rcases passed with ⟨seen, ⟨earlierSeen, _⟩ | rfl, sameKey, reached⟩
    · exact ⟨seen, Or.inl earlierSeen, sameKey, reached⟩
    · exact ⟨seen, Or.inr rfl, sameKey, reached⟩

/-- The messages of a key that are on time are decided among themselves. -/
theorem itemsAt_onTime (messages : List α) (selected : κ) :
    itemsAt spec.key (spec.onTime messages) selected =
      spec.onTime (itemsAt spec.key messages selected) := by
  induction messages using List.reverseRecOn with
  | nil => rfl
  | append_singleton messages message induction =>
      rw [onTime_concat]
      by_cases here : selected = spec.key message
      · subst here
        rw [itemsAt_concat_same, onTime_concat, ← late_itemsAt, ← induction]
        by_cases late : spec.late messages message = true
        · simp [late]
        · simp only [late, Bool.false_eq_true, if_false]
          rw [itemsAt_concat_same]
      · rw [itemsAt_concat_other _ _ here]
        by_cases late : spec.late messages message = true
        · simpa [late] using induction
        · simp only [late, Bool.false_eq_true, if_false]
          rw [itemsAt_concat_other _ _ here]
          exact induction

theorem onTime_of_sameKeyOrder (same : SameKeyOrder spec.key left right) :
    SameKeyOrder spec.key (spec.onTime left) (spec.onTime right) := by
  intro selected
  rw [itemsAt_onTime, itemsAt_onTime, same]

/-- A run emits the same windows in every order that keeps each key's. -/
theorem run_emitted_of_sameKeyOrder
    (same : SameKeyOrder spec.key left right) :
    (spec.run left).2.Perm (spec.run right).2 := by
  have onTime : SameKeyOrder spec.window (spec.onTime left)
      (spec.onTime right) :=
    (spec.onTime_of_sameKeyOrder same).finer Prod.fst (fun _ => rfl)
  have groups := foldKeyed_of_sameKeyOrder onTime spec.step spec.init
  have closed := groups.filter
    (fun entry => spec.expired left entry.1)
  apply (spec.run_emitted_perm left).trans
  apply List.Perm.trans _ (spec.run_emitted_perm right).symm
  rw [← spec.expired_perm same.perm, Dict.entries_filter, Dict.entries_filter]
  exact closed

end WindowedFold

end TickStream.Library
