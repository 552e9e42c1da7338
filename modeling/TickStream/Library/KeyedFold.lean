import Mathlib.Data.List.Nodup
import Mathlib.Data.List.Perm.Basic
import Mathlib.Data.List.Induction

/-!
# Keyed folds over insertion-ordered dictionaries

A dictionary is an association list with distinct keys.  `foldKeyed` sends
every item of a list to the accumulator of its key, creating the accumulator
on first use.  Its specification is a set-builder one: a key is bound exactly
when some item carries it, and its value is the fold over the items of that
key alone, in their original order.
-/

namespace TickStream.Library

/-- An association list with distinct keys, in insertion order. -/
structure Dict (κ β : Type) where
  entries : List (κ × β)
  keysDistinct : (entries.map Prod.fst).Nodup

namespace Dict

section Lookup

variable {κ β : Type}

def empty : Dict κ β := ⟨[], List.nodup_nil⟩

@[simp] theorem entries_empty : (empty : Dict κ β).entries = [] := rfl

def keys (dict : Dict κ β) : List κ := dict.entries.map Prod.fst

theorem keys_nodup (dict : Dict κ β) : dict.keys.Nodup := dict.keysDistinct

@[ext] theorem eq_of_entries {left right : Dict κ β}
    (same : left.entries = right.entries) : left = right := by
  cases left
  cases right
  cases same
  rfl

/-- Two bindings of one key are the same binding. -/
theorem value_unique (dict : Dict κ β) {key : κ} {first second : β}
    (firstMember : (key, first) ∈ dict.entries)
    (secondMember : (key, second) ∈ dict.entries) : first = second := by
  have same : ((key, first) : κ × β) = (key, second) :=
    List.inj_on_of_nodup_map dict.keysDistinct firstMember secondMember rfl
  exact (Prod.mk.inj same).2

variable [DecidableEq κ]

def get? (dict : Dict κ β) (key : κ) : Option β :=
  (dict.entries.find? (fun entry => entry.1 = key)).map Prod.snd

theorem get?_eq_some_iff (dict : Dict κ β) {key : κ} {value : β} :
    dict.get? key = some value ↔ (key, value) ∈ dict.entries := by
  simp only [get?]
  constructor
  · intro found
    obtain ⟨⟨foundKey, foundValue⟩, search, rfl⟩ := Option.map_eq_some_iff.mp found
    have sameKey : foundKey = key := by simpa using List.find?_some search
    subst sameKey
    exact List.mem_of_find?_eq_some search
  · intro member
    cases search : dict.entries.find? (fun entry => entry.1 = key) with
    | none =>
        have absent := List.find?_eq_none.mp search (key, value) member
        simp at absent
    | some entry =>
        obtain ⟨foundKey, foundValue⟩ := entry
        have sameKey : foundKey = key := by simpa using List.find?_some search
        subst sameKey
        have foundMember := List.mem_of_find?_eq_some search
        simp [dict.value_unique foundMember member]

theorem get?_eq_none_iff (dict : Dict κ β) {key : κ} :
    dict.get? key = none ↔ key ∉ dict.keys := by
  simp only [get?, keys, Option.map_eq_none_iff, List.find?_eq_none,
    decide_eq_true_eq, List.mem_map, not_exists, not_and]

@[simp] theorem get?_empty (key : κ) : (empty : Dict κ β).get? key = none := rfl

end Lookup

section Alter

variable {κ β : Type} [DecidableEq κ]

/-- Rebind `key` in place, or append a binding when there is none. -/
def alterEntries (key : κ) (change : Option β → β) :
    List (κ × β) → List (κ × β)
  | [] => [(key, change none)]
  | (head, value) :: rest =>
      if head = key then (head, change (some value)) :: rest
      else (head, value) :: alterEntries key change rest

theorem keys_alterEntries (key : κ) (change : Option β → β)
    (entries : List (κ × β)) :
    (alterEntries key change entries).map Prod.fst =
      if key ∈ entries.map Prod.fst then entries.map Prod.fst
      else entries.map Prod.fst ++ [key] := by
  induction entries with
  | nil => simp [alterEntries]
  | cons entry rest induction =>
      obtain ⟨head, value⟩ := entry
      by_cases same : head = key
      · simp [alterEntries, same]
      · have reverse : key ≠ head := Ne.symm same
        simp only [alterEntries, if_neg same, List.map_cons, induction]
        by_cases member : key ∈ rest.map Prod.fst
        · simp [member]
        · simp only [List.mem_cons, reverse, member, or_false, if_false,
            List.cons_append]

theorem alterEntries_nodup (key : κ) (change : Option β → β)
    {entries : List (κ × β)} (distinct : (entries.map Prod.fst).Nodup) :
    ((alterEntries key change entries).map Prod.fst).Nodup := by
  rw [keys_alterEntries]
  by_cases member : key ∈ entries.map Prod.fst
  · rwa [if_pos member]
  · rw [if_neg member]
    exact List.nodup_append.mpr
      ⟨distinct, List.nodup_singleton key, by
        intro first firstMember second secondMember same
        rw [List.mem_singleton] at secondMember
        subst second
        subst first
        exact member firstMember⟩

def alter (dict : Dict κ β) (key : κ) (change : Option β → β) : Dict κ β :=
  ⟨alterEntries key change dict.entries,
    alterEntries_nodup key change dict.keysDistinct⟩

theorem find?_alterEntries_same (key : κ) (change : Option β → β)
    (entries : List (κ × β)) :
    ((alterEntries key change entries).find? (fun entry => entry.1 = key)).map
        Prod.snd =
      some (change
        ((entries.find? (fun entry => entry.1 = key)).map Prod.snd)) := by
  induction entries with
  | nil => simp [alterEntries]
  | cons entry rest induction =>
      obtain ⟨head, value⟩ := entry
      by_cases same : head = key
      · simp [alterEntries, same]
      · simpa [alterEntries, same] using induction

theorem find?_alterEntries_other {key other : κ} (different : other ≠ key)
    (change : Option β → β) (entries : List (κ × β)) :
    (alterEntries key change entries).find? (fun entry => entry.1 = other) =
      entries.find? (fun entry => entry.1 = other) := by
  have reverse : key ≠ other := Ne.symm different
  induction entries with
  | nil => simp [alterEntries, reverse]
  | cons entry rest induction =>
      obtain ⟨head, value⟩ := entry
      by_cases same : head = key
      · simp [alterEntries, same, reverse]
      · simp only [alterEntries, if_neg same, List.find?_cons, induction]

@[simp] theorem get?_alter_same (dict : Dict κ β) (key : κ)
    (change : Option β → β) :
    (dict.alter key change).get? key = some (change (dict.get? key)) :=
  find?_alterEntries_same key change dict.entries

theorem get?_alter_other (dict : Dict κ β) {key other : κ}
    (different : other ≠ key) (change : Option β → β) :
    (dict.alter key change).get? other = dict.get? other := by
  simp only [get?, alter]
  rw [find?_alterEntries_other different]

theorem mem_keys_alter (dict : Dict κ β) (key other : κ)
    (change : Option β → β) :
    other ∈ (dict.alter key change).keys ↔ other = key ∨ other ∈ dict.keys := by
  simp only [keys, alter, keys_alterEntries]
  by_cases member : key ∈ dict.entries.map Prod.fst
  · rw [if_pos member]
    constructor
    · exact Or.inr
    · intro bound
      rcases bound with rfl | old
      · exact member
      · exact old
  · rw [if_neg member, List.mem_append, List.mem_singleton, or_comm]

/-- Raising the number bound to a key: a bound is reached where it was reached
before, and at the key also by the new number. -/
theorem reaches_alter_iff (dict : Dict κ Int) (key : κ)
    (change : Option Int → Int) (time : Int)
    (raises : ∀ bound, bound ≤ change (dict.get? key) ↔
      (∃ seen, dict.get? key = some seen ∧ bound ≤ seen) ∨ bound ≤ time)
    (other : κ) (bound : Int) :
    (∃ seen, (dict.alter key change).get? other = some seen ∧ bound ≤ seen) ↔
      (∃ seen, dict.get? other = some seen ∧ bound ≤ seen) ∨
        key = other ∧ bound ≤ time := by
  by_cases same : other = key
  · subst same
    rw [get?_alter_same]
    simp only [Option.some.injEq, exists_eq_left', raises bound, true_and]
  · have reverse : key ≠ other := Ne.symm same
    rw [get?_alter_other _ same]
    simp [reverse]

/-- Numbers bound to a key are equal once they reach the same bounds. -/
theorem get?_eq_of_reaches {left right : Dict κ Int} {key : κ}
    (same : ∀ bound, (∃ seen, left.get? key = some seen ∧ bound ≤ seen) ↔
      ∃ seen, right.get? key = some seen ∧ bound ≤ seen) :
    left.get? key = right.get? key := by
  cases leftLookup : left.get? key with
  | none =>
      cases rightLookup : right.get? key with
      | none => rfl
      | some seen =>
          obtain ⟨other, impossible, _⟩ :=
            (same seen).mpr ⟨seen, rightLookup, Int.le_refl seen⟩
          rw [leftLookup] at impossible
          cases impossible
  | some seen =>
      obtain ⟨other, rightLookup, below⟩ :=
        (same seen).mp ⟨seen, leftLookup, Int.le_refl seen⟩
      obtain ⟨again, leftAgain, above⟩ :=
        (same other).mpr ⟨other, rightLookup, Int.le_refl other⟩
      rw [leftLookup] at leftAgain
      cases leftAgain
      rw [rightLookup, Int.le_antisymm below above]

/-- Rebinding a key that a selection keeps commutes with the selection. -/
theorem filter_alterEntries_of_kept (keep : κ → Bool) {key : κ}
    (kept : keep key = true) (change : Option β → β)
    (entries : List (κ × β)) :
    (alterEntries key change entries).filter (fun entry => keep entry.1) =
      alterEntries key change
        (entries.filter (fun entry => keep entry.1)) := by
  induction entries with
  | nil => simp [alterEntries, kept]
  | cons entry rest induction =>
      obtain ⟨head, value⟩ := entry
      by_cases same : head = key
      · simp [alterEntries, same, kept]
      · by_cases keptHead : keep head = true
        · simp [alterEntries, same, keptHead, induction]
        · simp [alterEntries, same, keptHead, induction]

/-- Rebinding a key that a selection drops does not change the selection. -/
theorem filter_alterEntries_of_dropped (keep : κ → Bool) {key : κ}
    (dropped : keep key = false) (change : Option β → β)
    (entries : List (κ × β)) :
    (alterEntries key change entries).filter (fun entry => keep entry.1) =
      entries.filter (fun entry => keep entry.1) := by
  induction entries with
  | nil => simp [alterEntries, dropped]
  | cons entry rest induction =>
      obtain ⟨head, value⟩ := entry
      by_cases same : head = key
      · simp [alterEntries, same, dropped]
      · simp [alterEntries, same, List.filter_cons, induction]

end Alter

section Filter

variable {κ β : Type}

def filter (dict : Dict κ β) (keep : κ → Bool) : Dict κ β :=
  ⟨dict.entries.filter (fun entry => keep entry.1),
    dict.keysDistinct.sublist (List.filter_sublist.map Prod.fst)⟩

@[simp] theorem entries_filter (dict : Dict κ β) (keep : κ → Bool) :
    (dict.filter keep).entries =
      dict.entries.filter (fun entry => keep entry.1) := rfl

theorem filter_filter (dict : Dict κ β) (first second : κ → Bool) :
    (dict.filter first).filter second =
      dict.filter (fun key => first key && second key) := by
  apply eq_of_entries
  simp only [entries_filter, List.filter_filter]
  exact List.filter_congr (fun entry _ => Bool.and_comm _ _)

theorem filter_append_perm (dict : Dict κ β) (keep : κ → Bool) :
    ((dict.filter keep).entries ++
      (dict.filter (fun key => !keep key)).entries).Perm dict.entries :=
  List.filter_append_perm (fun entry : κ × β => keep entry.1) dict.entries

variable [DecidableEq κ]

theorem filter_alter_of_kept (dict : Dict κ β) {keep : κ → Bool} {key : κ}
    (kept : keep key = true) (change : Option β → β) :
    (dict.alter key change).filter keep = (dict.filter keep).alter key change :=
  eq_of_entries (filter_alterEntries_of_kept keep kept change dict.entries)

theorem filter_alter_of_dropped (dict : Dict κ β) {keep : κ → Bool} {key : κ}
    (dropped : keep key = false) (change : Option β → β) :
    (dict.alter key change).filter keep = dict.filter keep :=
  eq_of_entries
    (filter_alterEntries_of_dropped keep dropped change dict.entries)

end Filter

end Dict

section FoldKeyed

variable {α κ β : Type} [DecidableEq κ]

/-- Send each item to the accumulator of its key, starting a new accumulator
from `init`. -/
def foldKeyed (key : α → κ) (step : β → α → β) (init : β)
    (items : List α) : Dict κ β :=
  items.foldl
    (fun dict item =>
      dict.alter (key item) (fun bound => step (bound.getD init) item))
    Dict.empty

variable (key : α → κ) (step : β → α → β) (init : β)

@[simp] theorem foldKeyed_nil : foldKeyed key step init [] = Dict.empty := rfl

theorem foldKeyed_concat (items : List α) (item : α) :
    foldKeyed key step init (items ++ [item]) =
      (foldKeyed key step init items).alter (key item)
        (fun bound => step (bound.getD init) item) := by
  simp [foldKeyed]

/-- The items of one key, in their original order. -/
def itemsAt (items : List α) (selected : κ) : List α :=
  items.filter (fun item => key item = selected)

theorem mem_itemsAt {items : List α} {selected : κ} {item : α} :
    item ∈ itemsAt key items selected ↔ item ∈ items ∧ key item = selected := by
  simp [itemsAt]

theorem itemsAt_perm {left right : List α} (permutation : left.Perm right)
    (selected : κ) :
    (itemsAt key left selected).Perm (itemsAt key right selected) :=
  permutation.filter _

theorem itemsAt_eq_nil {items : List α} {selected : κ}
    (absent : ∀ item ∈ items, key item ≠ selected) :
    itemsAt key items selected = [] := by
  apply List.filter_eq_nil_iff.mpr
  intro item member
  rw [decide_eq_true_iff]
  exact absent item member

/-- An item occurs under its own key as often as anywhere. -/
theorem count_itemsAt [DecidableEq α] (items : List α) (item : α) :
    (itemsAt key items (key item)).count item = items.count item :=
  List.count_filter (by simp)

theorem itemsAt_concat_same (items : List α) (item : α) :
    itemsAt key (items ++ [item]) (key item) =
      itemsAt key items (key item) ++ [item] := by
  simp [itemsAt]

theorem itemsAt_concat_other (items : List α) {item : α} {selected : κ}
    (different : selected ≠ key item) :
    itemsAt key (items ++ [item]) selected = itemsAt key items selected := by
  have reverse : key item ≠ selected := Ne.symm different
  simp [itemsAt, reverse]

theorem mem_keys_foldKeyed {items : List α} {selected : κ} :
    selected ∈ (foldKeyed key step init items).keys ↔
      ∃ item ∈ items, key item = selected := by
  induction items using List.reverseRecOn with
  | nil => simp [Dict.keys]
  | append_singleton items item induction =>
      rw [foldKeyed_concat, Dict.mem_keys_alter, induction]
      constructor
      · intro bound
        rcases bound with rfl | ⟨old, member, same⟩
        · exact ⟨item, by simp, rfl⟩
        · exact ⟨old, by simp [member], same⟩
      · intro carried
        rcases carried with ⟨found, member, same⟩
        rcases List.mem_append.mp member with old | new
        · exact Or.inr ⟨found, old, same⟩
        · rw [List.mem_singleton] at new
          subst found
          exact Or.inl same.symm

theorem getD_foldKeyed (items : List α) (selected : κ) :
    ((foldKeyed key step init items).get? selected).getD init =
      (itemsAt key items selected).foldl step init := by
  induction items using List.reverseRecOn with
  | nil => rfl
  | append_singleton items item induction =>
      rw [foldKeyed_concat]
      by_cases same : selected = key item
      · subst selected
        rw [Dict.get?_alter_same, itemsAt_concat_same]
        simp [induction]
      · rw [Dict.get?_alter_other _ same, itemsAt_concat_other key items same,
          induction]

/-- A keyed fold binds exactly the keys that occur, each to the fold over its
own items. -/
theorem mem_foldKeyed {items : List α} {selected : κ} {value : β} :
    (selected, value) ∈ (foldKeyed key step init items).entries ↔
      (∃ item ∈ items, key item = selected) ∧
        value = (itemsAt key items selected).foldl step init := by
  rw [← Dict.get?_eq_some_iff]
  have folded := getD_foldKeyed key step init items selected
  cases lookup : (foldKeyed key step init items).get? selected with
  | none =>
      have absent := (Dict.get?_eq_none_iff _).mp lookup
      rw [mem_keys_foldKeyed] at absent
      simp [absent]
  | some bound =>
      have present : selected ∈ (foldKeyed key step init items).keys := by
        by_contra absent
        rw [← Dict.get?_eq_none_iff, lookup] at absent
        cases absent
      rw [mem_keys_foldKeyed] at present
      rw [lookup, Option.getD_some] at folded
      subst bound
      simp only [Option.some.injEq, present, true_and]
      exact eq_comm

/-- A keyed fold of steps that commute binds the same accumulators whatever
the order of the items. -/
theorem foldKeyed_perm [RightCommutative step] {left right : List α}
    (permutation : left.Perm right) :
    (foldKeyed key step init left).entries.Perm
      (foldKeyed key step init right).entries := by
  have nodup : ∀ items, (foldKeyed key step init items).entries.Nodup :=
    fun items => List.Nodup.of_map Prod.fst
      (foldKeyed key step init items).keysDistinct
  apply (List.perm_ext_iff_of_nodup (nodup left) (nodup right)).mpr
  intro entry
  obtain ⟨selected, value⟩ := entry
  have folded := (itemsAt_perm key permutation selected).foldl_eq
    (f := step) init
  rw [mem_foldKeyed, mem_foldKeyed, folded]
  simp only [permutation.mem_iff]

/-- A property that every first step establishes and every later step keeps
holds of all values of a keyed fold. -/
theorem foldKeyed_value {property : β → Prop} {items : List α}
    (first : ∀ item ∈ items, property (step init item))
    (next : ∀ value, property value → ∀ item ∈ items, property (step value item))
    {selected : κ} {value : β}
    (member : (selected, value) ∈ (foldKeyed key step init items).entries) :
    property value := by
  obtain ⟨⟨item, itemMember, sameKey⟩, folded⟩ :=
    (mem_foldKeyed key step init).mp member
  have members : ∀ other ∈ itemsAt key items selected, other ∈ items :=
    fun other otherMember => ((mem_itemsAt key).mp otherMember).1
  have present : item ∈ itemsAt key items selected :=
    (mem_itemsAt key).mpr ⟨itemMember, sameKey⟩
  rw [folded]
  generalize itemsAt key items selected = chosen at members present
  cases chosen with
  | nil => simp at present
  | cons head tail =>
      have started : property (step init head) :=
        first head (members head (by simp))
      rw [List.foldl_cons]
      apply List.foldlRecOn tail step started
      intro current held other otherMember
      exact next current held other (members other (by simp [otherMember]))

theorem foldKeyed_map {γ : Type} (view : γ → α) (items : List γ) :
    foldKeyed key step init (items.map view) =
      foldKeyed (fun item => key (view item))
        (fun value item => step value (view item)) init items := by
  simp only [foldKeyed, List.foldl_map]

/-- A keyed fold follows an injective renaming of keys and a simulation of
the accumulators. -/
theorem foldKeyed_entries_map {κ' β' : Type} [DecidableEq κ']
    (rename : κ → κ') (injective : Function.Injective rename)
    (project : β → β') (key' : α → κ') (step' : β' → α → β') {items : List α}
    (renames : ∀ item ∈ items, key' item = rename (key item))
    (simulates : ∀ value, ∀ item ∈ items,
      project (step value item) = step' (project value) item) :
    (foldKeyed key' step' (project init) items).entries =
      (foldKeyed key step init items).entries.map
        (Prod.map rename project) := by
  have alterMap : ∀ (item : α), item ∈ items →
      ∀ entries : List (κ × β),
        Dict.alterEntries (key' item)
            (fun bound => step' (bound.getD (project init)) item)
            (entries.map (Prod.map rename project)) =
          (Dict.alterEntries (key item)
            (fun bound => step (bound.getD init) item) entries).map
              (Prod.map rename project) := by
    intro item itemMember entries
    rw [renames item itemMember]
    induction entries with
    | nil => simp [Dict.alterEntries, simulates init item itemMember]
    | cons entry rest induction =>
        obtain ⟨head, value⟩ := entry
        by_cases same : head = key item
        · simp [Dict.alterEntries, same, simulates value item itemMember]
        · have renamed : rename head ≠ rename (key item) :=
            fun equality => same (injective equality)
          simp [Dict.alterEntries, same, renamed, induction]
  induction items using List.reverseRecOn with
  | nil => rfl
  | append_singleton items item induction =>
      have earlier := induction
        (fun old member => renames old (by simp [member]))
        (fun value old member => simulates value old (by simp [member]))
        (fun old member => alterMap old (by simp [member]))
      rw [foldKeyed_concat, foldKeyed_concat]
      simp only [Dict.alter, earlier]
      exact alterMap item (by simp) _

end FoldKeyed

end TickStream.Library
