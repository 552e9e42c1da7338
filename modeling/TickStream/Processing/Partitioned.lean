import TickStream.Library.KeyOrder
import TickStream.Processing.Refinement

/-!
# The processor behind partitions

A topic with several partitions reaches the processor in an order that keeps
each symbol's messages and nothing else.  Windows and watermarks belong to a
symbol, so the processor emits the same windows in every such order, and stops
in one exactly when it stops in all.
-/

namespace TickStream

open Python Library

section Order

variable {F C β : Type} {topic : Topic F C β} {left right :
  List (MarketEvent F)}

/-- Where every message has its columns, the rows of a symbol are the rows of
its messages. -/
theorem Topic.rows_itemsAt {values : List (MarketEvent F)}
    (complete : ∀ value ∈ values, ∃ columns, topic.columns value = .ok columns)
    (symbol : String) :
    itemsAt (fun row : Row F C => row.value.key) (topic.rows values) symbol =
      topic.rows (itemsAt MarketEvent.key values symbol) := by
  induction values with
  | nil => rfl
  | cons value rest induction =>
      obtain ⟨columns, defined⟩ := complete value (by simp)
      have tail := induction
        (fun other member => complete other (by simp [member]))
      simp only [itemsAt] at tail ⊢
      by_cases here : value.key = symbol
      · simp [Topic.rows, defined, here, tail]
      · simp [Topic.rows, defined, here, tail]

theorem Topic.rows_of_sameKeyOrder
    (same : SameKeyOrder MarketEvent.key left right)
    (complete : ∀ value ∈ left, ∃ columns, topic.columns value = .ok columns) :
    SameKeyOrder (fun row : Row F C => row.value.key) (topic.rows left)
      (topic.rows right) := by
  intro symbol
  rw [topic.rows_itemsAt complete, same, topic.rows_itemsAt]
  intro value member
  exact complete value (same.perm.mem_iff.mpr member)

/-- The processor stops in one order exactly when it stops in the other; if it
does not, both emit the same windows. -/
theorem Topic.run_of_sameKeyOrder (graceSeconds : Nat)
    (same : SameKeyOrder MarketEvent.key left right) :
    ((topic.run graceSeconds left).stopped = none ↔
      (topic.run graceSeconds right).stopped = none) ∧
    ((topic.run graceSeconds left).stopped = none →
      (topic.run graceSeconds left).emitted.Perm
        (topic.run graceSeconds right).emitted) := by
  have goes : ∀ values, (topic.run graceSeconds values).stopped = none ↔
      ∀ value ∈ values, ∃ columns, topic.columns value = .ok columns := by
    intro values
    rw [← rows_complete_iff]
    exact topic.runFrom_stopped graceSeconds _ values
  constructor
  · rw [goes, goes]
    simp only [same.perm.mem_iff]
  · intro ran
    have rows := Topic.rows_of_sameKeyOrder same ((goes left).mp ran)
    apply (topic.run_emitted_perm graceSeconds left).trans
    apply List.Perm.trans _ (topic.run_emitted_perm graceSeconds right).symm
    apply List.Perm.flatMap_left
    intro branch member
    obtain ⟨size, _, rfl⟩ := List.mem_map.mp member
    exact ((topic.branch graceSeconds size).fold.run_emitted_of_sameKeyOrder
      rows).map _

/-- A processor that gets through all messages has got through the earlier
ones, and had emitted the start of what it emits. -/
theorem Topic.runFrom_initial (graceSeconds : Nat)
    {states : List (WindowedFold.State String β)}
    {earlier later : List (MarketEvent F)}
    (ran : (topic.runFrom graceSeconds states (earlier ++ later)).stopped =
      none) :
    (topic.runFrom graceSeconds states earlier).stopped = none ∧
      (topic.runFrom graceSeconds states earlier).emitted <+:
        (topic.runFrom graceSeconds states (earlier ++ later)).emitted := by
  induction earlier generalizing states with
  | nil => exact ⟨rfl, List.nil_prefix⟩
  | cons value rest induction =>
      simp only [List.cons_append, Topic.runFrom] at ran ⊢
      cases received : topic.receive graceSeconds states value with
      | error failure =>
          rw [received] at ran
          cases ran
      | ok outcome =>
          rw [received] at ran
          obtain ⟨stopped, initial⟩ := induction ran
          exact ⟨stopped, (List.prefix_append_right_inj _).mpr initial⟩

/-- On the start of every symbol's messages the processor emits windows it
would emit on all of them, with the same metrics. -/
theorem Topic.run_of_starts (graceSeconds : Nat)
    {part whole : List (MarketEvent F)}
    (starts : ∀ symbol, itemsAt MarketEvent.key part symbol <+:
      itemsAt MarketEvent.key whole symbol)
    (ran : (topic.run graceSeconds whole).stopped = none) :
    (topic.run graceSeconds part).stopped = none ∧
      (topic.run graceSeconds part).emitted.Subperm
        (topic.run graceSeconds whole).emitted := by
  obtain ⟨rest, same⟩ := exists_completion starts
  obtain ⟨alike, windows⟩ := topic.run_of_sameKeyOrder graceSeconds same
  have completed := alike.mpr ran
  obtain ⟨stopped, initial⟩ := topic.runFrom_initial graceSeconds completed
  exact ⟨stopped, initial.sublist.subperm.trans
    (windows completed).subperm⟩

end Order

end TickStream
