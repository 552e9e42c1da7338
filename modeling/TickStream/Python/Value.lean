import Mathlib.Data.Rat.Floor

/-!
# Python values and exceptions

Decoded JSON as the Python objects the producer receives, the exceptions a
step can raise, and the object operations normalization applies to values it
has not checked yet.
-/

namespace TickStream.Python

/-- A Python `float`.  Finite values are read as exact rationals. -/
inductive PyFloat where
  | nan
  | inf (negative : Bool)
  | fin (value : Rat)
deriving DecidableEq, Repr

/-- A decoded JSON value.  A dictionary lists its members in insertion order;
its keys are distinct, and look-ups take the first match. -/
inductive Json where
  | null
  | bool (value : Bool)
  | int (value : Int)
  | float (value : PyFloat)
  | str (value : String)
  | arr (items : List Json)
  | obj (members : List (String × Json))
deriving Repr

mutual

/-- How deep the lists and dictionaries of a value are nested. -/
def Json.nesting : Json → Nat
  | .arr items => itemsNesting items + 1
  | .obj members => membersNesting members + 1
  | _ => 0

def itemsNesting : List Json → Nat
  | [] => 0
  | item :: rest => max item.nesting (itemsNesting rest)

def membersNesting : List (String × Json) → Nat
  | [] => 0
  | (_, value) :: rest => max value.nesting (membersNesting rest)

end

theorem nesting_le_items {items : List Json} {item : Json}
    (member : item ∈ items) : item.nesting ≤ itemsNesting items := by
  induction items with
  | nil => cases member
  | cons head rest induction =>
      rw [itemsNesting]
      rcases List.mem_cons.mp member with first | later
      · rw [first]
        exact le_max_left _ _
      · exact (induction later).trans (le_max_right _ _)

theorem nesting_le_members {members : List (String × Json)}
    {entry : String × Json} (member : entry ∈ members) :
    entry.2.nesting ≤ membersNesting members := by
  induction members with
  | nil => cases member
  | cons head rest induction =>
      rw [membersNesting]
      rcases List.mem_cons.mp member with first | later
      · rw [first]
        exact le_max_left _ _
      · exact (induction later).trans (le_max_right _ _)

abbrev Bytes := List UInt8

inductive ExcClass where
  | validationError
  | valueError
  | keyError
  | typeError
  | attributeError
  | overflowError
  | osError
  | runtimeError
  | recursionError
  | fileNotFoundError
  | stopIteration
  | webSocketException
deriving DecidableEq, Repr

/-- A raised exception: its class and `str` of it. -/
structure Exc where
  cls : ExcClass
  text : String
deriving DecidableEq, Repr

/-- What a Python call returns or raises. -/
abbrev Result (α : Type) := Except Exc α

def raise {α : Type} (cls : ExcClass) (text : String) : Result α :=
  .error ⟨cls, text⟩

namespace Json

/-- The class name Python prints in its messages. -/
def typeName : Json → String
  | .null => "NoneType"
  | .bool _ => "bool"
  | .int _ => "int"
  | .float _ => "float"
  | .str _ => "str"
  | .arr _ => "list"
  | .obj _ => "dict"

/-- `bool(value)`. -/
def truthy : Json → Bool
  | .null => false
  | .bool value => value
  | .int value => value ≠ 0
  | .float value => value ≠ .fin 0
  | .str value => value ≠ ""
  | .arr items => !items.isEmpty
  | .obj members => !members.isEmpty

def isNull : Json → Bool
  | .null => true
  | _ => false

/-- Whether a value equals a string. -/
def isStr (value : Json) (text : String) : Bool :=
  match value with
  | .str found => found = text
  | _ => false

/-- The member of a dictionary under `name`, if there is one. -/
def member? (members : List (String × Json)) (name : String) : Option Json :=
  (members.find? (fun entry => entry.1 = name)).map Prod.snd

/-- `value[name]` with a string index. -/
def item (value : Json) (name : String) : Result Json :=
  match value with
  | .obj members =>
      match member? members name with
      | some found => .ok found
      | none => raise .keyError ("'" ++ name ++ "'")
  | .str _ => raise .typeError "string indices must be integers, not 'str'"
  | .arr _ =>
      raise .typeError "list indices must be integers or slices, not str"
  | other =>
      raise .typeError
        ("'" ++ other.typeName ++ "' object is not subscriptable")

/-- `value.get(name, fallback)`; only dictionaries have the method. -/
def get (value : Json) (name : String) (fallback : Json) : Result Json :=
  match value with
  | .obj members => .ok ((member? members name).getD fallback)
  | other =>
      raise .attributeError
        ("'" ++ other.typeName ++ "' object has no attribute 'get'")

/-- The values a `for` loop over `value` visits. -/
def iterate : Json → Result (List Json)
  | .arr items => .ok items
  | .str value => .ok (value.toList.map (fun char => .str char.toString))
  | .obj members => .ok (members.map (fun entry => .str entry.1))
  | other =>
      raise .typeError ("'" ++ other.typeName ++ "' object is not iterable")

/-- `names <= value.keys()`. -/
def hasKeys (names : List String) : Json → Bool
  | .obj members => names.all (fun name => (member? members name).isSome)
  | _ => false

/-- Looking `value` up in a dictionary keyed by strings.  A list or a
dictionary cannot be hashed; a value that is not a string equals no key. -/
def lookupIn {α : Type} (table : List (String × α)) :
    Json → Result (Option α)
  | .str name =>
      .ok ((table.find? (fun entry => entry.1 = name)).map Prod.snd)
  | .arr _ => raise .typeError "unhashable type: 'list'"
  | .obj _ => raise .typeError "unhashable type: 'dict'"
  | _ => .ok none

end Json

end TickStream.Python
