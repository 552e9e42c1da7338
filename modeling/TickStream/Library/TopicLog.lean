import Mathlib.Data.List.Perm.Subperm
import Mathlib.Logic.Function.Basic
import TickStream.Library.KeyedFold

/-!
# Append-only logs and their consumers

A broker appends every item to the log of its cell.  A consumer fetches from
the cells it is subscribed to, each from its start and in order, and goes from
cell to cell as it likes.  However appends and fetches interleave, a consumer
has received a prefix of every log it reads.  Items whose key keeps them in one
cell therefore arrive in the order they were appended.
-/

namespace TickStream.Library

/-- Where a consumer stands in each cell, and what it has received. -/
structure Consumer (α ι : Type) where
  position : ι → Nat
  received : List α

inductive Happening (α ι γ : Type) where
  | append (item : α)
  | fetch (consumer : γ) (cell : ι)
deriving DecidableEq, Repr

/-- The items appended so far, and the consumers. -/
structure Cluster (α ι γ : Type) where
  appended : List α
  consumers : γ → Consumer α ι

def Cluster.fresh {α ι γ : Type} : Cluster α ι γ :=
  ⟨[], fun _ => ⟨fun _ => 0, []⟩⟩

/-- The cell of an item, and the cells a consumer is subscribed to. -/
structure Layout (α ι γ : Type) where
  cell : α → ι
  subscribed : γ → ι → Bool

namespace Layout

variable {α ι γ : Type} [DecidableEq ι] [DecidableEq γ]
  (layout : Layout α ι γ)

/-- Take the next item of a cell, if there is one. -/
def fetch (appended : List α) (consumer : Consumer α ι) (cell : ι) :
    Consumer α ι :=
  match (itemsAt layout.cell appended cell)[consumer.position cell]? with
  | none => consumer
  | some item =>
      { position :=
          Function.update consumer.position cell (consumer.position cell + 1)
        received := consumer.received ++ [item] }

def step (cluster : Cluster α ι γ) : Happening α ι γ → Cluster α ι γ
  | .append item => { cluster with appended := cluster.appended ++ [item] }
  | .fetch consumer cell =>
      if layout.subscribed consumer cell then
        { cluster with
          consumers := Function.update cluster.consumers consumer
            (layout.fetch cluster.appended (cluster.consumers consumer) cell) }
      else cluster

def run (history : List (Happening α ι γ)) : Cluster α ι γ :=
  history.foldl layout.step Cluster.fresh

/-- A consumer has read a prefix of every log, of its own cells only. -/
structure Follows (appended : List α) (name : γ) (consumer : Consumer α ι) :
    Prop where
  within : ∀ cell,
    consumer.position cell ≤ (itemsAt layout.cell appended cell).length
  read : ∀ cell, itemsAt layout.cell consumer.received cell =
    (itemsAt layout.cell appended cell).take (consumer.position cell)
  subscribed : ∀ item ∈ consumer.received,
    layout.subscribed name (layout.cell item) = true

variable {layout} {appended : List α} {name : γ} {consumer : Consumer α ι}

omit [DecidableEq γ] in
/-- An append lengthens the logs and leaves what has been read. -/
theorem Follows.append (follows : layout.Follows appended name consumer)
    (item : α) : layout.Follows (appended ++ [item]) name consumer := by
  have longer : ∀ cell, itemsAt layout.cell appended cell <+:
      itemsAt layout.cell (appended ++ [item]) cell := by
    intro cell
    simp only [itemsAt, List.filter_append]
    exact List.prefix_append _ _
  refine ⟨?_, ?_, follows.subscribed⟩
  · intro cell
    exact Nat.le_trans (follows.within cell) (longer cell).length_le
  · intro cell
    obtain ⟨rest, same⟩ := longer cell
    rw [follows.read, ← same,
      List.take_append_of_le_length (follows.within cell)]

omit [DecidableEq γ] in
theorem Follows.fetch (follows : layout.Follows appended name consumer)
    {cell : ι} (permitted : layout.subscribed name cell = true) :
    layout.Follows appended name (layout.fetch appended consumer cell) := by
  simp only [Layout.fetch]
  split
  · exact follows
  · rename_i item next
    obtain ⟨inside, same⟩ := List.getElem?_eq_some_iff.mp next
    have member : item ∈ itemsAt layout.cell appended cell := by
      rw [← same]
      exact List.getElem_mem inside
    have placed : layout.cell item = cell := ((mem_itemsAt _).mp member).2
    refine ⟨?_, ?_, ?_⟩
    · intro other
      by_cases here : other = cell
      · subst here
        dsimp only
        rw [Function.update_self]
        exact inside
      · dsimp only
        rw [Function.update_of_ne here]
        exact follows.within other
    · intro other
      by_cases here : other = cell
      · subst here
        dsimp only
        rw [Function.update_self]
        subst placed
        rw [itemsAt_concat_same, follows.read, List.take_add_one, next]
        rfl
      · have apart : other ≠ layout.cell item := by
          rw [placed]
          exact here
        dsimp only
        rw [Function.update_of_ne here, itemsAt_concat_other _ _ apart]
        exact follows.read other
    · intro other received
      rcases List.mem_append.mp received with old | new
      · exact follows.subscribed other old
      · rw [List.mem_singleton] at new
        rw [new, placed]
        exact permitted

/-- Whatever happens, every consumer follows the logs. -/
theorem run_follows (layout : Layout α ι γ)
    (history : List (Happening α ι γ)) (name : γ) :
    layout.Follows (layout.run history).appended name
      ((layout.run history).consumers name) := by
  induction history using List.reverseRecOn generalizing name with
  | nil =>
      refine ⟨fun _ => Nat.zero_le _, fun _ => rfl, ?_⟩
      intro item received
      cases received
  | append_singleton history happening induction =>
      simp only [run, List.foldl_append, List.foldl_cons, List.foldl_nil]
      change layout.Follows (layout.step (layout.run history) _).appended name
        ((layout.step (layout.run history) _).consumers name)
      cases happening with
      | append item => exact (induction name).append item
      | fetch consumer cell =>
          simp only [step]
          split
          · rename_i permitted
            by_cases same : name = consumer
            · subst same
              dsimp only
              rw [Function.update_self]
              exact (induction name).fetch permitted
            · dsimp only
              rw [Function.update_of_ne same]
              exact induction name
          · exact induction name

/-- The items appended in a history, in order. -/
def appends (history : List (Happening α ι γ)) : List α :=
  history.filterMap (fun happening =>
    match happening with
    | .append item => some item
    | .fetch _ _ => none)

omit [DecidableEq ι] [DecidableEq γ] in
theorem appends_append (earlier later : List (Happening α ι γ)) :
    appends (earlier ++ later) = appends earlier ++ appends later :=
  List.filterMap_append

theorem run_appended (layout : Layout α ι γ)
    (history : List (Happening α ι γ)) :
    (layout.run history).appended = appends history := by
  induction history using List.reverseRecOn with
  | nil => rfl
  | append_singleton history happening induction =>
      simp only [run, List.foldl_append, List.foldl_cons, List.foldl_nil,
        appends, List.filterMap_append]
      change (layout.step (layout.run history) _).appended =
        appends history ++ _
      cases happening with
      | append item =>
          simp only [step, induction, List.filterMap_cons, List.filterMap_nil]
      | fetch consumer cell =>
          simp only [step, List.filterMap_cons, List.filterMap_nil,
            List.append_nil]
          split <;> exact induction

section Keys

variable {κ : Type} [DecidableEq κ] (key : α → κ)

omit [DecidableEq γ] in
theorem Follows.received_subset
    (follows : layout.Follows appended name consumer) :
    consumer.received ⊆ appended := by
  intro item received
  have here : item ∈ itemsAt layout.cell consumer.received
      (layout.cell item) := (mem_itemsAt _).mpr ⟨received, rfl⟩
  rw [follows.read] at here
  exact ((mem_itemsAt _).mp (List.mem_of_mem_take here)).1

omit [DecidableEq γ] in
/-- The items of a key are the items of that key in its cell. -/
theorem itemsAt_of_placed {items : List α} {selected : κ} {cell : ι}
    (placed : ∀ item ∈ items, key item = selected → layout.cell item = cell) :
    itemsAt key items selected =
      itemsAt key (itemsAt layout.cell items cell) selected := by
  simp only [itemsAt, List.filter_filter]
  apply List.filter_congr
  intro item member
  by_cases same : key item = selected
  · simp [same, placed item member same]
  · simp [same]

omit [DecidableEq γ] in
/-- A key that stays in one cell arrives in order. -/
theorem Follows.key_initial
    (follows : layout.Follows appended name consumer) {selected : κ} {cell : ι}
    (placed : ∀ item ∈ appended,
      key item = selected → layout.cell item = cell) :
    itemsAt key consumer.received selected <+:
      itemsAt key appended selected := by
  have received : ∀ item ∈ consumer.received,
      key item = selected → layout.cell item = cell := by
    intro item member
    exact placed item (follows.received_subset member)
  rw [itemsAt_of_placed key received, itemsAt_of_placed key placed,
    follows.read]
  exact (List.take_prefix _ _).filter _

end Keys

variable (layout) in
/-- The appended items of the cells a consumer is subscribed to. -/
def visible (name : γ) (appended : List α) : List α :=
  appended.filter (fun item => layout.subscribed name (layout.cell item))

omit [DecidableEq γ] [DecidableEq ι] in
theorem itemsAt_visible [DecidableEq ι] {cell : ι}
    (permitted : layout.subscribed name cell = true) (appended : List α) :
    itemsAt layout.cell (layout.visible name appended) cell =
      itemsAt layout.cell appended cell := by
  simp only [itemsAt, visible, List.filter_filter]
  apply List.filter_congr
  intro item _
  by_cases here : layout.cell item = cell
  · simp [here, permitted]
  · simp [here]

omit [DecidableEq γ] in
theorem Follows.received_subperm
    (follows : layout.Follows appended name consumer) :
    consumer.received.Subperm (layout.visible name appended) := by
  classical
  rw [List.subperm_ext_iff]
  intro item member
  have permitted := follows.subscribed item member
  rw [← count_itemsAt layout.cell,
    ← count_itemsAt layout.cell (layout.visible name appended),
    itemsAt_visible permitted, follows.read]
  exact (List.take_sublist _ _).count_le item

/-- The consumer has nothing left to read. -/
def CaughtUp (layout : Layout α ι γ) (name : γ) (appended : List α)
    (consumer : Consumer α ι) : Prop :=
  ∀ cell, layout.subscribed name cell = true →
    consumer.position cell = (itemsAt layout.cell appended cell).length

omit [DecidableEq γ] in
theorem Follows.itemsAt_of_caughtUp
    (follows : layout.Follows appended name consumer)
    (done : layout.CaughtUp name appended consumer) (cell : ι) :
    itemsAt layout.cell consumer.received cell =
      itemsAt layout.cell (layout.visible name appended) cell := by
  by_cases permitted : layout.subscribed name cell = true
  · rw [follows.read, done cell permitted, List.take_length,
      itemsAt_visible permitted]
  · have unread : itemsAt layout.cell consumer.received cell = [] := by
      apply itemsAt_eq_nil
      intro item member here
      exact permitted (here ▸ follows.subscribed item member)
    have unseen : itemsAt layout.cell (layout.visible name appended) cell =
        [] := by
      apply itemsAt_eq_nil
      intro item member here
      exact permitted (here ▸ (List.mem_filter.mp member).2)
    rw [unread, unseen]

omit [DecidableEq γ] in
/-- A consumer that has caught up has received everything once. -/
theorem Follows.received_perm
    (follows : layout.Follows appended name consumer)
    (done : layout.CaughtUp name appended consumer) :
    consumer.received.Perm (layout.visible name appended) := by
  classical
  rw [List.perm_iff_count]
  intro item
  rw [← count_itemsAt layout.cell,
    ← count_itemsAt layout.cell (layout.visible name appended),
    follows.itemsAt_of_caughtUp done]

omit [DecidableEq γ] in
theorem Follows.key_eq_of_caughtUp {κ : Type} [DecidableEq κ] (key : α → κ)
    (follows : layout.Follows appended name consumer)
    (done : layout.CaughtUp name appended consumer) {selected : κ} {cell : ι}
    (placed : ∀ item ∈ layout.visible name appended,
      key item = selected → layout.cell item = cell) :
    itemsAt key consumer.received selected =
      itemsAt key (layout.visible name appended) selected := by
  have received : ∀ item ∈ consumer.received,
      key item = selected → layout.cell item = cell := by
    intro item member
    exact placed item ((follows.received_perm done).subset member)
  rw [itemsAt_of_placed key received, itemsAt_of_placed key placed,
    follows.itemsAt_of_caughtUp done]

omit [DecidableEq γ] in
/-- A consumer that has received as much as it can see has caught up. -/
theorem Follows.caughtUp_of_length
    (follows : layout.Follows appended name consumer)
    (whole : consumer.received.length =
      (layout.visible name appended).length) :
    layout.CaughtUp name appended consumer := by
  have perm := follows.received_subperm.perm_of_length_le (by omega)
  intro cell permitted
  have lengths := (itemsAt_perm layout.cell perm cell).length_eq
  rw [follows.read, itemsAt_visible permitted,
    List.length_take_of_le (follows.within cell)] at lengths
  exact lengths

end Layout

end TickStream.Library
