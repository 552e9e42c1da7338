import Mathlib.Data.List.Basic

/-!
# Runs that act

A run does something to the outside, action by action, and ends in a state:
either it is done and the next run goes on from there, or it stops with a
reason.  A specification of a run says what holds of all actions so far, the
ones before the run included, so that the rules below compose.
-/

namespace TickStream.Library

/-- What a run did, the state it ended in, and why it stopped if it did. -/
structure Run (α σ ε : Type) where
  actions : List α
  state : σ
  stopped : Option ε

section Runs

variable {α σ ε ι : Type}

namespace Run

def done (state : σ) : Run α σ ε := ⟨[], state, none⟩

def act (action : α) (state : σ) : Run α σ ε := ⟨[action], state, none⟩

def stop (reason : ε) (state : σ) : Run α σ ε := ⟨[], state, some reason⟩

/-- Go on with `next` unless the run has stopped. -/
def andThen (run : Run α σ ε) (next : σ → Run α σ ε) : Run α σ ε :=
  match run.stopped with
  | none =>
      let rest := next run.state
      ⟨run.actions ++ rest.actions, rest.state, rest.stopped⟩
  | some _ => run

/-- Go on with `handler` if the run has stopped. -/
def handle (run : Run α σ ε) (handler : ε → σ → Run α σ ε) : Run α σ ε :=
  match run.stopped with
  | none => run
  | some reason =>
      let rest := handler reason run.state
      ⟨run.actions ++ rest.actions, rest.state, rest.stopped⟩

theorem andThen_assoc (run : Run α σ ε) (next last : σ → Run α σ ε) :
    (run.andThen next).andThen last =
      run.andThen (fun state => (next state).andThen last) := by
  simp only [andThen]
  cases stopped : run.stopped with
  | none =>
      cases later : (next run.state).stopped with
      | none => simp
      | some reason => simp [later]
  | some reason => simp [stopped]

theorem andThen_stopped_none {run : Run α σ ε} (next : σ → Run α σ ε)
    (done : run.stopped = none) :
    (run.andThen next).stopped = (next run.state).stopped := by
  simp only [andThen, done]

/-- Act once more when the run has stopped. -/
def lastly (run : Run α σ ε) (action : α) : Run α σ ε :=
  match run.stopped with
  | none => run
  | some reason => ⟨run.actions ++ [action], run.state, some reason⟩

theorem lastly_stopped (run : Run α σ ε) (action : α) :
    (run.lastly action).stopped = run.stopped := by
  cases stopped : run.stopped with
  | none => simp only [lastly, stopped]
  | some reason => simp only [lastly, stopped]

theorem lastly_eq {run : Run α σ ε} (action : α)
    (done : run.stopped = none) : run.lastly action = run := by
  simp only [lastly, done]

end Run

def runEach (step : σ → ι → Run α σ ε) : σ → List ι → Run α σ ε
  | state, [] => .done state
  | state, item :: rest =>
      (step state item).andThen (fun state => runEach step state rest)

theorem runEach_append {step : σ → ι → Run α σ ε} {state : σ}
    (first second : List ι) :
    runEach step state (first ++ second) =
      (runEach step state first).andThen
        (fun state => runEach step state second) := by
  induction first generalizing state with
  | nil => rfl
  | cons item rest induction =>
      simp only [List.cons_append, runEach, induction, Run.andThen_assoc]

/-- After the actions `history`, a run that is done leaves `normal`, and one
that has stopped leaves `exits`. -/
structure Run.Meets (run : Run α σ ε) (history : List α)
    (normal : List α → σ → Prop) (exits : List α → σ → ε → Prop) : Prop where
  normal : run.stopped = none → normal (history ++ run.actions) run.state
  exits : ∀ reason, run.stopped = some reason →
    exits (history ++ run.actions) run.state reason

variable {history : List α} {state : σ} {run : Run α σ ε}
  {normal between : List α → σ → Prop} {exits raised : List α → σ → ε → Prop}

namespace Run

theorem done_meets (holds : normal history state) :
    (done state : Run α σ ε).Meets history normal exits := by
  constructor
  · intro _
    simpa [done] using holds
  · intro reason stopped
    cases stopped

theorem act_meets {action : α} (holds : normal (history ++ [action]) state) :
    (act action state : Run α σ ε).Meets history normal exits := by
  constructor
  · intro _
    exact holds
  · intro reason stopped
    cases stopped

theorem stop_meets {reason : ε} (holds : exits history state reason) :
    (stop reason state : Run α σ ε).Meets history normal exits := by
  constructor
  · intro stopped
    cases stopped
  · intro other stopped
    cases stopped
    simpa [stop] using holds

theorem Meets.mono (meets : run.Meets history between raised)
    (weaker : ∀ history state, between history state → normal history state)
    (weakerExits : ∀ history state reason, raised history state reason →
      exits history state reason) :
    run.Meets history normal exits := by
  constructor
  · intro done
    exact weaker _ _ (meets.normal done)
  · intro reason stopped
    exact weakerExits _ _ _ (meets.exits reason stopped)

theorem Meets.andThen {next : σ → Run α σ ε}
    (first : run.Meets history between exits)
    (second : ∀ history state, between history state →
      (next state).Meets history normal exits) :
    (run.andThen next).Meets history normal exits := by
  cases stopped : run.stopped with
  | none =>
      have rest := second _ _ (first.normal stopped)
      simp only [Run.andThen, stopped]
      constructor
      · intro done
        simpa using rest.normal done
      · intro reason later
        simpa using rest.exits reason later
  | some reason =>
      simp only [Run.andThen, stopped]
      constructor
      · intro done
        rw [stopped] at done
        cases done
      · exact first.exits

theorem Meets.handle {handler : ε → σ → Run α σ ε}
    (first : run.Meets history normal raised)
    (second : ∀ history state reason, raised history state reason →
      (handler reason state).Meets history normal exits) :
    (run.handle handler).Meets history normal exits := by
  cases stopped : run.stopped with
  | none =>
      simp only [Run.handle, stopped]
      constructor
      · exact first.normal
      · intro reason later
        rw [stopped] at later
        cases later
  | some reason =>
      have rest := second _ _ _ (first.exits reason stopped)
      simp only [Run.handle, stopped]
      constructor
      · intro done
        simpa using rest.normal done
      · intro other later
        simpa using rest.exits other later

theorem Meets.lastly {action : α}
    (first : run.Meets history normal raised)
    (last : ∀ history state reason, raised history state reason →
      exits (history ++ [action]) state reason) :
    (run.lastly action).Meets history normal exits := by
  cases stopped : run.stopped with
  | none =>
      simp only [Run.lastly, stopped]
      constructor
      · exact first.normal
      · intro reason later
        rw [stopped] at later
        cases later
  | some reason =>
      simp only [Run.lastly, stopped]
      constructor
      · intro done
        cases done
      · intro other later
        cases later
        simpa using last _ _ _ (first.exits reason stopped)

end Run

/-- The rule for loops: the invariant speaks of the items still to come. -/
theorem runEach_meets {step : σ → ι → Run α σ ε}
    (invariant : List ι → List α → σ → Prop) {items : List ι}
    (kept : ∀ item ∈ items, ∀ rest history state,
      invariant (item :: rest) history state →
        (step state item).Meets history (invariant rest) exits)
    (holds : invariant items history state) :
    (runEach step state items).Meets history (invariant []) exits := by
  induction items generalizing history state with
  | nil => exact Run.done_meets holds
  | cons item rest induction =>
      apply (kept item (by simp) rest history state holds).andThen
      intro history state between
      exact induction
        (fun other member => kept other (by simp [member])) between

/-- A property of histories that a run keeps, however it ends. -/
def Run.Keeps (run : Run α σ ε) (kept : List α → Prop) : Prop :=
  ∀ history, kept history →
    run.Meets history (fun history _ => kept history)
      (fun history _ _ => kept history)

section Keeps

variable {kept : List α → Prop}

theorem done_keeps : (Run.done state : Run α σ ε).Keeps kept :=
  fun _ holds => Run.done_meets holds

theorem stop_keeps {reason : ε} :
    (Run.stop reason state : Run α σ ε).Keeps kept :=
  fun _ holds => Run.stop_meets holds

theorem act_keeps {action : α}
    (allowed : ∀ history, kept history → kept (history ++ [action])) :
    (Run.act action state : Run α σ ε).Keeps kept :=
  fun history holds => Run.act_meets (allowed history holds)

theorem Run.Keeps.andThen {next : σ → Run α σ ε} (first : run.Keeps kept)
    (second : ∀ state, (next state).Keeps kept) :
    (run.andThen next).Keeps kept :=
  fun history holds =>
    (first history holds).andThen (fun later state => second state later)

theorem Run.Keeps.handle {handler : ε → σ → Run α σ ε}
    (first : run.Keeps kept)
    (second : ∀ reason state, (handler reason state).Keeps kept) :
    (run.handle handler).Keeps kept :=
  fun history holds =>
    (first history holds).handle
      (fun later state reason => second reason state later)

theorem Run.Keeps.lastly {action : α} (first : run.Keeps kept)
    (allowed : ∀ history, kept history → kept (history ++ [action])) :
    (run.lastly action).Keeps kept :=
  fun history holds =>
    (first history holds).lastly (fun later _ _ => allowed later)

theorem runEach_keeps {step : σ → ι → Run α σ ε}
    (each : ∀ state item, (step state item).Keeps kept) (state : σ)
    (items : List ι) : (runEach step state items).Keeps kept := by
  induction items generalizing state with
  | nil => exact done_keeps
  | cons item rest induction => exact (each state item).andThen induction

end Keeps

/-- Every action is allowed by the actions before it. -/
def Legal (allowed : List α → α → Prop) (actions : List α) : Prop :=
  ∀ before action after, actions = before ++ action :: after →
    allowed before action

variable {allowed : List α → α → Prop}

theorem legal_nil : Legal allowed [] := by
  intro before action after split
  exact absurd split.symm (by simp)

theorem Legal.left {actions : List α}
    (legal : Legal allowed (history ++ actions)) : Legal allowed history := by
  intro before action after split
  exact legal before action (after ++ actions) (by simp [split])

theorem legal_snoc {action : α} :
    Legal allowed (history ++ [action]) ↔
      Legal allowed history ∧ allowed history action := by
  constructor
  · intro legal
    exact ⟨legal.left, legal history action [] rfl⟩
  · intro legal
    rcases legal with ⟨earlier, last⟩
    intro before other after split
    rcases List.eq_nil_or_concat after with empty | ⟨init, final, same⟩
    · subst empty
      obtain ⟨sameHistory, sameAction⟩ :=
        List.append_inj' split (by simp)
      cases sameAction
      rw [← sameHistory]
      exact last
    · subst same
      rw [List.concat_eq_append, ← List.cons_append, ← List.append_assoc]
        at split
      exact earlier before other init (List.append_inj_left' split (by simp))

/-- Actions that are allowed after anything extend a legal history. -/
theorem Legal.append_free {actions : List α} (legal : Legal allowed history)
    (free : ∀ action ∈ actions, ∀ before, allowed before action) :
    Legal allowed (history ++ actions) := by
  induction actions generalizing history with
  | nil => simpa using legal
  | cons action rest induction =>
      have snoc := legal_snoc.mpr ⟨legal, free action (by simp) history⟩
      have extended := induction snoc
        (fun later member => free later (by simp [member]))
      simpa using extended

end Runs

end TickStream.Library
