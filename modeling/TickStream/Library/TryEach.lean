import Mathlib.Data.List.Basic

/-!
# Loops that catch failures item by item

A computation that may raise is contained when every exception it can raise
is one the surrounding handler catches.  `attempt` runs one item under the
handler and `forEach` runs a loop of such items: an exception that is not
caught ends the loop, a caught one is logged and the loop goes on.
-/

namespace TickStream.Library

section Results

variable {ε α β : Type}

theorem bind_eq_ok_iff {run : Except ε α} {next : α → Except ε β}
    {result : β} :
    (run >>= next) = .ok result ↔
      ∃ value, run = .ok value ∧ next value = .ok result := by
  cases run with
  | error failure => simp [bind, Except.bind]
  | ok value => simp [bind, Except.bind]

theorem map_eq_ok_iff {change : α → β} {run : Except ε α} {result : β} :
    change <$> run = .ok result ↔
      ∃ value, run = .ok value ∧ change value = result := by
  cases run with
  | error failure => simp [Functor.map, Except.map]
  | ok value => simp [Functor.map, Except.map]

theorem mapM_ok {step : α → Except ε β} {value : α → β} {items : List α}
    (returns : ∀ item ∈ items, step item = .ok (value item)) :
    items.mapM step = .ok (items.map value) := by
  induction items with
  | nil => rfl
  | cons item rest induction =>
      rw [List.mapM_cons, returns item (by simp),
        induction (fun other member => returns other (by simp [member]))]
      rfl

/-- A loop returns when every step does. -/
theorem mapM_eq_ok_iff {step : α → Except ε β} {returns : α → Prop}
    {value : α → β} {items : List α}
    (steps : ∀ item ∈ items, ∀ result,
      step item = .ok result ↔ returns item ∧ result = value item)
    {results : List β} :
    items.mapM step = .ok results ↔
      (∀ item ∈ items, returns item) ∧ results = items.map value := by
  induction items generalizing results with
  | nil =>
      rw [List.mapM_nil]
      simp [pure, Except.pure, eq_comm]
  | cons item rest induction =>
      have tail := @induction
        (fun other member => steps other (by simp [member]))
      simp only [List.mapM_cons, bind_eq_ok_iff, steps item (by simp), tail,
        List.forall_mem_cons, List.map_cons]
      constructor
      · intro returned
        obtain ⟨_, ⟨first, rfl⟩, _, ⟨others, rfl⟩, joined⟩ := returned
        cases joined
        exact ⟨⟨first, others⟩, rfl⟩
      · intro returned
        obtain ⟨⟨first, others⟩, rfl⟩ := returned
        exact ⟨_, ⟨first, rfl⟩, _, ⟨others, rfl⟩, rfl⟩

/-- The computation returns. -/
def Returns (run : Except ε α) : Prop := ∃ value, run = .ok value

@[simp] theorem returns_ok (value : α) :
    Returns (.ok value : Except ε α) := ⟨value, rfl⟩

@[simp] theorem not_returns_error (failure : ε) :
    ¬ Returns (.error failure : Except ε α) := by
  intro returned
  rcases returned with ⟨value, same⟩
  cases same

theorem returns_bind_iff {run : Except ε α} {next : α → Except ε β} :
    Returns (run >>= next) ↔
      ∃ value, run = .ok value ∧ Returns (next value) := by
  simp only [Returns, bind_eq_ok_iff]
  constructor
  · intro returned
    rcases returned with ⟨result, value, ran, continued⟩
    exact ⟨value, ran, result, continued⟩
  · intro returned
    rcases returned with ⟨value, ran, result, continued⟩
    exact ⟨result, value, ran, continued⟩

/-- Every exception the computation can raise is caught. -/
def Contained (caught : ε → Bool) (run : Except ε α) : Prop :=
  ∀ failure, run = .error failure → caught failure = true

variable {caught : ε → Bool}

@[simp] theorem contained_ok (value : α) :
    Contained caught (.ok value : Except ε α) := by
  intro failure raised
  cases raised

@[simp] theorem contained_error_iff {failure : ε} :
    Contained caught (.error failure : Except ε α) ↔
      caught failure = true := by
  constructor
  · intro contained
    exact contained failure rfl
  · intro isCaught other raised
    cases raised
    exact isCaught

theorem contained_bind_iff {run : Except ε α} {next : α → Except ε β} :
    Contained caught (run >>= next) ↔
      Contained caught run ∧
        ∀ value, run = .ok value → Contained caught (next value) := by
  cases run with
  | error failure => simp [bind, Except.bind]
  | ok value => simp [bind, Except.bind]

theorem contained_map_iff {change : α → β} {run : Except ε α} :
    Contained caught (change <$> run) ↔ Contained caught run := by
  cases run with
  | error failure => simp [Functor.map, Except.map]
  | ok value => simp [Functor.map, Except.map]

/-- A run does what another does, unless it raises what is not caught. -/
def Follows (caught : ε → Bool) (run other : Except ε α) : Prop :=
  run = other ∨ ∃ failure, run = .error failure ∧ caught failure = false

namespace Follows

variable {run other : Except ε α}

theorem rfl : Follows caught run run := Or.inl (Eq.refl run)

theorem eq_ok (follows : Follows caught run other) {value : α}
    (ran : run = .ok value) : other = .ok value := by
  rcases follows with same | ⟨failure, raised, _⟩
  · rw [← same, ran]
  · rw [raised] at ran
    cases ran

theorem bind {next otherNext : α → Except ε β}
    (follows : Follows caught run other)
    (nexts : ∀ value, Follows caught (next value) (otherNext value)) :
    Follows caught (run >>= next) (other >>= otherNext) := by
  rcases follows with same | ⟨failure, raised, uncaught⟩
  · rw [same]
    cases other with
    | ok value => exact nexts value
    | error failure => exact .rfl
  · exact Or.inr ⟨failure, by rw [raised]; exact Eq.refl _, uncaught⟩

theorem map {change : α → β} (follows : Follows caught run other) :
    Follows caught (change <$> run) (change <$> other) := by
  rcases follows with same | ⟨failure, raised, uncaught⟩
  · rw [same]
    exact .rfl
  · exact Or.inr ⟨failure, by rw [raised]; exact Eq.refl _, uncaught⟩

end Follows

end Results

/-- What a loop has produced, and what it has turned away. -/
structure Log (β γ : Type) where
  done : List β
  refused : List γ

namespace Log

variable {β β' γ : Type}

def empty : Log β γ := ⟨[], []⟩

def append (left right : Log β γ) : Log β γ :=
  ⟨left.done ++ right.done, left.refused ++ right.refused⟩

/-- View the produced items. -/
def view (change : β → β') (log : Log β γ) : Log β' γ :=
  ⟨log.done.map change, log.refused⟩

@[simp] theorem view_append (change : β → β') (left right : Log β γ) :
    (left.append right).view change =
      (left.view change).append (right.view change) := by
  simp [view, append]

end Log

section Loop

variable {ε α β β' γ : Type}

/-- Run one item under a handler.  A body that produces nothing skips it. -/
def attempt (caught : ε → Bool) (refuse : ε → γ)
    (body : Except ε (Option β)) : Except ε (Log β γ) :=
  match body with
  | .ok produced => .ok ⟨produced.toList, []⟩
  | .error failure =>
      if caught failure then .ok ⟨[], [refuse failure]⟩ else .error failure

def forEach (visit : α → Except ε (Log β γ)) : List α → Except ε (Log β γ)
  | [] => .ok .empty
  | item :: rest => do
      let first ← visit item
      let others ← forEach visit rest
      return first.append others

variable {caught : ε → Bool} {refuse : ε → γ} {body : Except ε (Option β)}

theorem returns_attempt_iff :
    Returns (attempt caught refuse body) ↔ Contained caught body := by
  cases body with
  | ok produced => simp [attempt]
  | error failure =>
      cases isCaught : caught failure with
      | true => simp [attempt, isCaught]
      | false => simp [attempt, isCaught]

theorem attempt_error_eq_ok_iff {failure : ε} {log : Log β γ} :
    attempt caught refuse (.error failure) = .ok log ↔
      caught failure = true ∧ log = ⟨[], [refuse failure]⟩ := by
  cases isCaught : caught failure with
  | true =>
      simp only [attempt, isCaught, if_true, Except.ok.injEq, true_and]
      exact eq_comm
  | false => simp [attempt, isCaught]

theorem mem_done_attempt {log : Log β γ}
    (ran : attempt caught refuse body = .ok log) {item : β} :
    item ∈ log.done ↔ body = .ok (some item) := by
  cases body with
  | ok produced =>
      cases ran
      simp [Option.mem_toList]
  | error failure =>
      obtain ⟨_, rfl⟩ := attempt_error_eq_ok_iff.mp ran
      simp

theorem mem_refused_attempt {log : Log β γ}
    (ran : attempt caught refuse body = .ok log) {entry : γ} :
    entry ∈ log.refused ↔
      ∃ failure, body = .error failure ∧ entry = refuse failure := by
  cases body with
  | ok produced =>
      cases ran
      simp
  | error failure =>
      obtain ⟨_, rfl⟩ := attempt_error_eq_ok_iff.mp ran
      simp

/-- Viewing what an item produced is running a body that produces the view. -/
theorem view_attempt (change : β → β') :
    Log.view change <$> attempt caught refuse body =
      attempt caught refuse (Option.map change <$> body) := by
  cases body with
  | ok produced =>
      cases produced with
      | none => rfl
      | some item => rfl
  | error failure =>
      cases isCaught : caught failure with
      | true => simp [attempt, isCaught, Functor.map, Except.map, Log.view]
      | false => simp [attempt, isCaught, Functor.map, Except.map]

variable {visit : α → Except ε (Log β γ)} {items : List α}

theorem forEach_cons_eq_ok_iff {item : α} {rest : List α} {log : Log β γ} :
    forEach visit (item :: rest) = .ok log ↔
      ∃ first others, visit item = .ok first ∧
        forEach visit rest = .ok others ∧ log = first.append others := by
  have unfolded : forEach visit (item :: rest) =
      (visit item >>= fun first => forEach visit rest >>= fun others =>
        .ok (first.append others)) := rfl
  rw [unfolded]
  simp only [bind_eq_ok_iff, Except.ok.injEq]
  constructor
  · intro ran
    rcases ran with ⟨first, visited, others, looped, same⟩
    exact ⟨first, others, visited, looped, same.symm⟩
  · intro ran
    rcases ran with ⟨first, others, visited, looped, same⟩
    exact ⟨first, visited, others, looped, same.symm⟩

/-- A loop returns exactly when every item does. -/
theorem returns_forEach_iff :
    Returns (forEach visit items) ↔ ∀ item ∈ items, Returns (visit item) := by
  induction items with
  | nil => simp [forEach]
  | cons item rest induction =>
      rw [List.forall_mem_cons, ← induction]
      simp only [Returns, forEach_cons_eq_ok_iff]
      constructor
      · intro returned
        rcases returned with ⟨_, first, others, visited, looped, _⟩
        exact ⟨⟨first, visited⟩, ⟨others, looped⟩⟩
      · intro returned
        rcases returned with ⟨⟨first, visited⟩, ⟨others, looped⟩⟩
        exact ⟨_, first, others, visited, looped, rfl⟩

theorem mem_done_forEach {log : Log β γ} (ran : forEach visit items = .ok log)
    {produced : β} :
    produced ∈ log.done ↔
      ∃ item ∈ items, ∃ part, visit item = .ok part ∧
        produced ∈ part.done := by
  induction items generalizing log with
  | nil =>
      cases ran
      simp [Log.empty]
  | cons item rest induction =>
      obtain ⟨first, others, visited, looped, rfl⟩ :=
        forEach_cons_eq_ok_iff.mp ran
      simp [Log.append, induction looped, visited]

theorem mem_refused_forEach {log : Log β γ}
    (ran : forEach visit items = .ok log) {entry : γ} :
    entry ∈ log.refused ↔
      ∃ item ∈ items, ∃ part, visit item = .ok part ∧
        entry ∈ part.refused := by
  induction items generalizing log with
  | nil =>
      cases ran
      simp [Log.empty]
  | cons item rest induction =>
      obtain ⟨first, others, visited, looped, rfl⟩ :=
        forEach_cons_eq_ok_iff.mp ran
      simp [Log.append, induction looped, visited]

theorem view_forEach (change : β → β') :
    Log.view change <$> forEach visit items =
      forEach (fun item => Log.view change <$> visit item) items := by
  induction items with
  | nil => rfl
  | cons item rest induction =>
      simp only [forEach]
      rw [← induction]
      cases visit item with
      | error failure => rfl
      | ok first =>
          cases forEach visit rest with
          | error failure => rfl
          | ok others =>
              exact congrArg Except.ok (Log.view_append change first others)

/-- What a loop returns is what its items return, in their order. -/
theorem forEach_eq_flatMap {log : Log β γ}
    (ran : forEach visit items = .ok log) (parts : α → Log β γ)
    (each : ∀ item ∈ items, ∀ part, visit item = .ok part →
      part = parts item) :
    log.done = items.flatMap (fun item => (parts item).done) ∧
      log.refused = items.flatMap (fun item => (parts item).refused) := by
  induction items generalizing log with
  | nil =>
      cases ran
      exact ⟨rfl, rfl⟩
  | cons item rest induction =>
      obtain ⟨first, others, visited, looped, rfl⟩ :=
        forEach_cons_eq_ok_iff.mp ran
      have head := each item (by simp) first visited
      obtain ⟨done, refused⟩ := induction looped
        (fun other member => each other (by simp [member]))
      subst head
      simp [Log.append, done, refused]

theorem follows_attempt {refuse : ε → γ} {body other : Except ε (Option β)}
    (follows : Follows caught body other) :
    Follows caught (attempt caught refuse body)
      (attempt caught refuse other) := by
  rcases follows with same | ⟨failure, raised, uncaught⟩
  · rw [same]
    exact .rfl
  · refine Or.inr ⟨failure, ?_, uncaught⟩
    simp [attempt, raised, uncaught]

/-- A loop whose visits follow others follows the loop of these. -/
theorem follows_forEach {visit' : α → Except ε (Log β γ)}
    (visits : ∀ item, Follows caught (visit item) (visit' item)) :
    Follows caught (forEach visit items) (forEach visit' items) := by
  induction items with
  | nil => exact .rfl
  | cons item rest induction =>
      exact (visits item).bind (fun first => induction.bind (fun _ => .rfl))

theorem forEach_congr {visit' : α → Except ε (Log β γ)}
    (same : ∀ item ∈ items, visit item = visit' item) :
    forEach visit items = forEach visit' items := by
  induction items with
  | nil => rfl
  | cons item rest induction =>
      simp only [forEach]
      rw [same item (by simp),
        induction (fun other member => same other (by simp [member]))]

end Loop

end TickStream.Library
