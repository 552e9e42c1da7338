import TickStream.Python.Value

/-!
# What `orjson` can write

A value is written as the payload of a record.  An integer of more than 64 bits
and a container that lies too deep make `orjson.dumps` raise a `TypeError`.
-/

namespace TickStream

open Python

mutual

/-- The integers of a value have 64 bits. -/
def integersFit : Json → Bool
  | .int value => -(2 ^ 63) ≤ value && value < 2 ^ 64
  | .arr items => itemsFit items
  | .obj members => membersFit members
  | _ => true

def itemsFit : List Json → Bool
  | [] => true
  | item :: rest => integersFit item && itemsFit rest

def membersFit : List (String × Json) → Bool
  | [] => true
  | (_, value) :: rest => integersFit value && membersFit rest

end

/-- Whether `orjson` can write a record with this payload: it nests at most 254
containers, of which the record is one. -/
def dumpable (value : Json) : Bool :=
  integersFit value && value.nesting < 254

/-- What it raises otherwise. -/
def dumpFailure (value : Json) : Exc :=
  if integersFit value then ⟨.typeError, "Recursion limit reached"⟩
  else ⟨.typeError, "Integer exceeds 64-bit range"⟩

theorem dumpable_iff {value : Json} :
    dumpable value = true ↔
      integersFit value = true ∧ value.nesting < 254 := by
  rw [dumpable, Bool.and_eq_true, decide_eq_true_eq]

private theorem itemsFit_mem {items : List Json} {item : Json}
    (all : itemsFit items = true) (member : item ∈ items) :
    integersFit item = true := by
  induction items with
  | nil => cases member
  | cons head rest induction =>
      simp only [itemsFit, Bool.and_eq_true] at all
      rcases List.mem_cons.mp member with first | later
      · rw [first]
        exact all.1
      · exact induction all.2 later

private theorem membersFit_mem {members : List (String × Json)}
    {entry : String × Json} (all : membersFit members = true)
    (member : entry ∈ members) : integersFit entry.2 = true := by
  induction members with
  | nil => cases member
  | cons head rest induction =>
      simp only [membersFit, Bool.and_eq_true] at all
      rcases List.mem_cons.mp member with first | later
      · rw [first]
        exact all.1
      · exact induction all.2 later

/-- The parts of a value that can be written can be written. -/
private theorem dumpable_item {items : List Json} {item : Json}
    (whole : dumpable (.arr items) = true) (member : item ∈ items) :
    dumpable item = true := by
  obtain ⟨fits, nested⟩ := dumpable_iff.mp whole
  have below := nesting_le_items member
  rw [Json.nesting] at nested
  exact dumpable_iff.mpr ⟨itemsFit_mem fits member, by omega⟩

private theorem dumpable_member {members : List (String × Json)}
    {entry : String × Json} (whole : dumpable (.obj members) = true)
    (member : entry ∈ members) : dumpable entry.2 = true := by
  obtain ⟨fits, nested⟩ := dumpable_iff.mp whole
  have below := nesting_le_members member
  rw [Json.nesting] at nested
  exact dumpable_iff.mpr ⟨membersFit_mem fits member, by omega⟩

theorem dumpable_get {value fallback found : Json} {name : String}
    (got : value.get name fallback = .ok found)
    (whole : dumpable value = true) (other : dumpable fallback = true) :
    dumpable found = true := by
  cases value with
  | obj members =>
      cases got
      cases looked : Json.member? members name with
      | none => exact other
      | some inner =>
          simp only [Json.member?, Option.map_eq_some_iff] at looked
          obtain ⟨entry, present, same⟩ := looked
          rw [Option.getD_some, ← same]
          exact dumpable_member whole (List.mem_of_find?_eq_some present)
  | _ => cases got

theorem dumpable_iterate {value item : Json} {items : List Json}
    (iterated : value.iterate = .ok items) (whole : dumpable value = true)
    (member : item ∈ items) : dumpable item = true := by
  cases value with
  | arr inner =>
      cases iterated
      exact dumpable_item whole member
  | str text =>
      cases iterated
      obtain ⟨char, _, same⟩ := List.mem_map.mp member
      rw [← same]
      rfl
  | obj members =>
      cases iterated
      obtain ⟨entry, _, same⟩ := List.mem_map.mp member
      rw [← same]
      rfl
  | _ => cases iterated

end TickStream
