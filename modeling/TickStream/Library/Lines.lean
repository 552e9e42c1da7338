import Mathlib.Data.List.Basic

/-!
# Records on lines

A file of records, each followed by a newline, read back line by line with
the blanks around a line stripped and blank lines skipped.  Records that hold
no newline and do not start or end with a blank come back as they were.
-/

namespace TickStream.Library

section Lines

variable {α : Type} [DecidableEq α]

/-- The lines of a file with their newlines; the last line may lack its own. -/
def splitLines (newline : α) : List α → List (List α)
  | [] => []
  | symbol :: rest =>
      if symbol = newline then [symbol] :: splitLines newline rest
      else
        match splitLines newline rest with
        | [] => [[symbol]]
        | line :: others => (symbol :: line) :: others

omit [DecidableEq α] in
/-- Drop the blanks on both ends. -/
def strip (blank : α → Bool) (line : List α) : List α :=
  ((line.dropWhile blank).reverse.dropWhile blank).reverse

/-- A record that survives framing: it holds no newline and neither its first
nor its last symbol is blank. -/
structure Framable (newline : α) (blank : α → Bool) (text : List α) : Prop where
  fresh : newline ∉ text
  outer : ∃ first middle last, text = first :: (middle ++ [last]) ∧
    blank first = false ∧ blank last = false

variable {newline : α} {blank : α → Bool}

theorem splitLines_append {text : List α} (fresh : newline ∉ text)
    (rest : List α) :
    splitLines newline (text ++ newline :: rest) =
      (text ++ [newline]) :: splitLines newline rest := by
  induction text with
  | nil => simp [splitLines]
  | cons symbol text induction =>
      rw [List.mem_cons, not_or] at fresh
      have different : symbol ≠ newline := Ne.symm fresh.1
      simp only [List.cons_append, splitLines, if_neg different,
        induction fresh.2]

/-- The lines of a framed file are the records with their newlines. -/
theorem splitLines_frame {records : List (List α)}
    (fresh : ∀ text ∈ records, newline ∉ text) :
    splitLines newline
        (records.flatMap (fun text => text ++ [newline])) =
      records.map (fun text => text ++ [newline]) := by
  induction records with
  | nil => rfl
  | cons text rest induction =>
      have tail := induction
        (fun other member => fresh other (by simp [member]))
      rw [List.flatMap_cons, List.append_assoc, List.singleton_append,
        splitLines_append (fresh text (by simp)), tail, List.map_cons]

omit [DecidableEq α] in
theorem Framable.ne_nil {text : List α}
    (framable : Framable newline blank text) : text ≠ [] := by
  obtain ⟨first, middle, last, same, _, _⟩ := framable.outer
  rw [same]
  exact List.cons_ne_nil _ _

omit [DecidableEq α] in
/-- Stripping a line gives the record back. -/
theorem Framable.strip_line {text : List α}
    (framable : Framable newline blank text)
    (newlineBlank : blank newline = true) :
    strip blank (text ++ [newline]) = text := by
  obtain ⟨first, middle, last, same, firstKept, lastKept⟩ := framable.outer
  subst same
  simp [strip, firstKept, lastKept, newlineBlank]

end Lines

end TickStream.Library
