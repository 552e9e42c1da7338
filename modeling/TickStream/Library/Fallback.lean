import Mathlib.Data.List.Basic

/-!
# The first candidate that delivers

Candidates are tried in turn until one delivers something.  One that fails, or
delivers nothing, is passed over; when none is left the last failure, if there
was one, is what remains.
-/

namespace TickStream.Library

section Fallback

variable {κ α ε : Type} (attempt : κ → Except ε (Option α))

/-- The first candidate that delivers, and what it delivers. -/
def firstSuccess : Option ε → List κ → Except (Option ε) (κ × α)
  | lastError, [] => .error lastError
  | lastError, candidate :: rest =>
      match attempt candidate with
      | .error failure => firstSuccess (some failure) rest
      | .ok none => firstSuccess lastError rest
      | .ok (some value) => .ok (candidate, value)

/-- The candidate fails or delivers nothing. -/
def Fruitless (candidate : κ) : Prop :=
  ∀ value, attempt candidate ≠ .ok (some value)

/-- What the candidate fails with. -/
def failureOf (candidate : κ) : Option ε :=
  match attempt candidate with
  | .error failure => some failure
  | .ok _ => none

/-- The failure of the last candidate that failed. -/
def lastFailure (lastError : Option ε) (candidates : List κ) : Option ε :=
  (candidates.filterMap (failureOf attempt)).getLast?.or lastError

variable {attempt} {lastError : Option ε} {candidates : List κ}

/-- A fruitless candidate is passed over. -/
theorem firstSuccess_cons_fruitless {candidate : κ}
    (fruitless : Fruitless attempt candidate) (rest : List κ) :
    firstSuccess attempt lastError (candidate :: rest) =
      firstSuccess attempt ((failureOf attempt candidate).or lastError)
        rest := by
  cases tried : attempt candidate with
  | error failure => simp only [firstSuccess, failureOf, tried, Option.some_or]
  | ok delivered =>
      cases delivered with
      | none => simp only [firstSuccess, failureOf, tried, Option.none_or]
      | some value => exact absurd tried (fruitless value)

theorem lastFailure_cons (candidate : κ) (rest : List κ) :
    lastFailure attempt lastError (candidate :: rest) =
      lastFailure attempt ((failureOf attempt candidate).or lastError)
        rest := by
  simp only [lastFailure]
  cases failed : failureOf attempt candidate with
  | none => simp [failed]
  | some failure =>
      cases later : rest.filterMap (failureOf attempt) with
      | nil => simp [failed, later]
      | cons other others =>
          simp [failed, later, List.getLast?_cons]

theorem firstSuccess_append {earlier : List κ}
    (fruitless : ∀ candidate ∈ earlier, Fruitless attempt candidate)
    (rest : List κ) :
    firstSuccess attempt lastError (earlier ++ rest) =
      firstSuccess attempt (lastFailure attempt lastError earlier) rest := by
  induction earlier generalizing lastError with
  | nil => rfl
  | cons candidate others induction =>
      rw [List.cons_append,
        firstSuccess_cons_fruitless (fruitless candidate (by simp)),
        lastFailure_cons]
      exact induction (fun other member => fruitless other (by simp [member]))

/-- Without a candidate that delivers, the last failure remains. -/
theorem firstSuccess_fruitless
    (fruitless : ∀ candidate ∈ candidates, Fruitless attempt candidate) :
    firstSuccess attempt lastError candidates =
      .error (lastFailure attempt lastError candidates) := by
  have whole : firstSuccess attempt lastError (candidates ++ []) = _ :=
    firstSuccess_append fruitless []
  rwa [List.append_nil] at whole

/-- The first candidate that delivers is taken. -/
theorem firstSuccess_delivered {earlier later : List κ} {name : κ} {value : α}
    (fruitless : ∀ candidate ∈ earlier, Fruitless attempt candidate)
    (delivered : attempt name = .ok (some value)) :
    firstSuccess attempt lastError (earlier ++ name :: later) =
      .ok (name, value) := by
  rw [firstSuccess_append fruitless]
  simp only [firstSuccess, delivered]

theorem fruitless_or_delivered (attempt : κ → Except ε (Option α))
    (candidates : List κ) :
    (∀ candidate ∈ candidates, Fruitless attempt candidate) ∨
      ∃ earlier name later value, candidates = earlier ++ name :: later ∧
        (∀ candidate ∈ earlier, Fruitless attempt candidate) ∧
        attempt name = .ok (some value) := by
  induction candidates with
  | nil => exact Or.inl (fun _ member => absurd member List.not_mem_nil)
  | cons candidate rest induction =>
      by_cases delivers : ∃ value, attempt candidate = .ok (some value)
      · obtain ⟨value, delivered⟩ := delivers
        exact Or.inr ⟨[], candidate, rest, value, rfl,
          fun _ member => absurd member List.not_mem_nil, delivered⟩
      · have passed : Fruitless attempt candidate :=
          fun value delivered => delivers ⟨value, delivered⟩
        rcases induction with all | ⟨earlier, name, later, value, split,
          fruitless, delivered⟩
        · exact Or.inl (List.forall_mem_cons.mpr ⟨passed, all⟩)
        · exact Or.inr ⟨candidate :: earlier, name, later, value,
            by rw [split, List.cons_append],
            List.forall_mem_cons.mpr ⟨passed, fruitless⟩, delivered⟩

end Fallback

end TickStream.Library
