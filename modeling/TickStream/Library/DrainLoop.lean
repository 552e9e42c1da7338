import Mathlib.Data.List.Basic
import Mathlib.Order.Lattice

/-!
# Drains with a deadline and an idle limit

A drain polls a source until a deadline passes or an unproductive poll ends
after the idle limit, which every message pushes back.  It collects a prefix
of the messages the source would deliver; it collects all of them exactly when
nothing ends it before the last one.
-/

namespace TickStream.Library

/-- What a poll returns. -/
inductive Poll (α : Type) where
  | message (value : α)
  | empty
  | error
deriving DecidableEq, Repr

def Poll.value? {α : Type} : Poll α → Option α
  | .message value => some value
  | _ => none

/-- One turn of a drain: the clock when it starts, the poll, and the clock
when it ends. -/
structure Turn (τ α : Type) where
  start : τ
  poll : Poll α
  stop : τ
deriving DecidableEq, Repr

namespace Turn

variable {τ α : Type}

def message? (turn : Turn τ α) : Option α := turn.poll.value?

end Turn

/-- The limits of a drain. -/
structure Limits (τ : Type) where
  deadline : τ
  idle : τ

section Drain

variable {τ α : Type} [Add τ] [LinearOrder τ]

/-- Collect messages over the given turns; `idleUntil` is the idle limit in
force. -/
def drain (limits : Limits τ) : τ → List (Turn τ α) → List α
  | _, [] => []
  | idleUntil, turn :: rest =>
      if turn.start < limits.deadline then
        match turn.message? with
        | some value => value :: drain limits (turn.stop + limits.idle) rest
        | none =>
            if idleUntil ≤ turn.stop then []
            else drain limits idleUntil rest
      else []

/-- The messages of all turns. -/
def delivered (turns : List (Turn τ α)) : List α :=
  turns.filterMap Turn.message?

/-- The idle limit in force after some turns. -/
def idleLimit (limits : Limits τ) (initial : τ) (turns : List (Turn τ α)) :
    τ :=
  turns.foldl
    (fun limit turn =>
      if turn.message?.isSome then turn.stop + limits.idle else limit)
    initial

/-- Every turn up to the last message starts before the deadline, and every
unproductive one among them ends before the idle limit then in force. -/
def StaysOpen (limits : Limits τ) (initial : τ) (turns : List (Turn τ α)) :
    Prop :=
  ∀ before turn after, turns = before ++ turn :: after →
    delivered (turn :: after) ≠ [] →
      turn.start < limits.deadline ∧
        (turn.message? = none → turn.stop < idleLimit limits initial before)

omit [Add τ] [LinearOrder τ] in
@[simp] theorem delivered_nil : delivered ([] : List (Turn τ α)) = [] := rfl

omit [Add τ] [LinearOrder τ] in
theorem delivered_cons (turn : Turn τ α) (rest : List (Turn τ α)) :
    delivered (turn :: rest) = turn.message?.toList ++ delivered rest := by
  simp only [delivered]
  rw [List.filterMap_cons]
  cases turn.message? <;> rfl

variable {limits : Limits τ}

theorem staysOpen_cons_iff {initial : τ} {turn : Turn τ α}
    {rest : List (Turn τ α)} :
    StaysOpen limits initial (turn :: rest) ↔
      (delivered (turn :: rest) ≠ [] →
        turn.start < limits.deadline ∧
          (turn.message? = none → turn.stop < initial)) ∧
      StaysOpen limits (idleLimit limits initial [turn]) rest := by
  constructor
  · intro stays
    constructor
    · exact stays [] turn rest rfl
    · intro before next after split
      exact stays (turn :: before) next after (by rw [split]; rfl)
  · intro stays before next after split
    rcases stays with ⟨first, later⟩
    cases before with
    | nil =>
        cases split
        exact first
    | cons head before =>
        obtain ⟨same, tail⟩ := List.cons.inj split
        subst same
        exact later before next after tail

/-- Where no message is to come, nothing has to stay open. -/
theorem staysOpen_of_delivered_nil {initial : τ} {turns : List (Turn τ α)}
    (silent : delivered turns = []) : StaysOpen limits initial turns := by
  intro before turn after split some
  rw [split, delivered, List.filterMap_append, List.append_eq_nil_iff]
    at silent
  exact absurd silent.2 some

theorem drain_initial (limits : Limits τ) (initial : τ) (turns : List (Turn τ α)) :
    drain limits initial turns <+: delivered turns := by
  induction turns generalizing initial with
  | nil => exact List.prefix_rfl
  | cons turn rest induction =>
      rw [delivered_cons]
      by_cases early : turn.start < limits.deadline
      · cases message : turn.message? with
        | some value => simpa [drain, early, message] using induction _
        | none =>
            by_cases idle : initial ≤ turn.stop
            · simp [drain, early, message, idle]
            · simpa [drain, early, message, idle] using induction initial
      · simp [drain, early]

theorem drain_eq_delivered_iff (initial : τ) (turns : List (Turn τ α)) :
    drain limits initial turns = delivered turns ↔
      StaysOpen limits initial turns := by
  induction turns generalizing initial with
  | nil =>
      simp only [drain, delivered_nil, true_iff]
      exact staysOpen_of_delivered_nil rfl
  | cons turn rest induction =>
      rw [staysOpen_cons_iff, ← induction, delivered_cons]
      cases message : turn.message? with
      | some value =>
          have limit : idleLimit limits initial [turn] =
              turn.stop + limits.idle := by simp [idleLimit, message]
          rw [limit]
          by_cases early : turn.start < limits.deadline
          · simp [drain, early, message]
          · simp [drain, early]
      | none =>
          have limit : idleLimit limits initial [turn] = initial := by
            simp [idleLimit, message]
          rw [limit]
          simp only [Option.toList_none, List.nil_append, forall_const]
          by_cases silent : delivered rest = []
          · have nothing : ∀ limit, drain limits limit rest = [] := by
              intro limit
              have within := drain_initial limits limit rest
              rw [silent] at within
              exact List.prefix_nil.mp within
            have stopped : drain limits initial (turn :: rest) = [] := by
              simp [drain, message, nothing]
            simp [stopped, silent, nothing]
          · by_cases early : turn.start < limits.deadline
            · by_cases idle : initial ≤ turn.stop
              · have late : ¬ turn.stop < initial := not_lt.mpr idle
                simp [drain, early, message, idle, silent, Ne.symm silent,
                  late]
              · simp [drain, early, message, idle, not_le.mp idle, silent]
            · simp [drain, early, silent, Ne.symm silent]

/-- A drain of everything there is collects as many messages as there are. -/
theorem drain_length_iff (initial : τ) (turns : List (Turn τ α)) :
    (drain limits initial turns).length = (delivered turns).length ↔
      StaysOpen limits initial turns := by
  rw [← drain_eq_delivered_iff]
  constructor
  · intro lengths
    exact (drain_initial limits initial turns).eq_of_length lengths
  · intro same
    rw [same]

end Drain

end TickStream.Library
