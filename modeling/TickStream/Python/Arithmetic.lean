import TickStream.Python.Rounding

/-!
# Arithmetic of doubles

The operators of `float`: the exact result, rounded once.  Python raises on a
zero divisor and SQL answers null; the code divides by positive numbers only,
and the quotient by zero stands here as NaN.
-/

namespace TickStream.Python

namespace PyFloat

/-- `left + right`. -/
def add : PyFloat → PyFloat → PyFloat
  | .nan, _ => .nan
  | _, .nan => .nan
  | .inf negative, .inf other => if negative = other then .inf negative else .nan
  | .inf negative, .fin _ => .inf negative
  | .fin _, .inf negative => .inf negative
  | .fin left, .fin right => roundToDouble (left + right)

/-- `left * right`. -/
def mul : PyFloat → PyFloat → PyFloat
  | .nan, _ => .nan
  | _, .nan => .nan
  | .inf negative, .inf other => .inf (negative != other)
  | .inf negative, .fin value =>
      if value = 0 then .nan else .inf (negative != decide (value < 0))
  | .fin value, .inf negative =>
      if value = 0 then .nan else .inf (negative != decide (value < 0))
  | .fin left, .fin right => roundToDouble (left * right)

/-- `left / right`. -/
def div : PyFloat → PyFloat → PyFloat
  | .nan, _ => .nan
  | _, .nan => .nan
  | .inf _, .inf _ => .nan
  | .inf negative, .fin value =>
      if value = 0 then .nan else .inf (negative != decide (value < 0))
  | .fin _, .inf _ => .fin 0
  | .fin left, .fin right =>
      if right = 0 then .nan else roundToDouble (left / right)

end PyFloat

instance : Zero PyFloat := ⟨.fin 0⟩
instance : NatCast PyFloat := ⟨fun number => roundToDouble number⟩
instance : Add PyFloat := ⟨PyFloat.add⟩
instance : Sub PyFloat := ⟨fun left right => left.add right.negate⟩
instance : Mul PyFloat := ⟨PyFloat.mul⟩
instance : Div PyFloat := ⟨PyFloat.div⟩
instance : LT PyFloat := ⟨fun left right => left.lt right = true⟩

instance : DecidableLT PyFloat := fun left right =>
  inferInstanceAs (Decidable (left.lt right = true))

instance : Std.Irrefl (fun left right : PyFloat => left < right) where
  irrefl value := by
    cases value with
    | nan => simp [LT.lt, PyFloat.lt]
    | inf negative => cases negative <;> simp [LT.lt, PyFloat.lt]
    | fin value => simpa [LT.lt, PyFloat.lt] using lt_irrefl value

@[simp] theorem PyFloat.fin_add (left right : Rat) :
    (PyFloat.fin left + .fin right) = roundToDouble (left + right) := rfl

@[simp] theorem PyFloat.fin_mul (left right : Rat) :
    (PyFloat.fin left * .fin right) = roundToDouble (left * right) := rfl

example : (PyFloat.fin (1 / 2) + .fin (1 / 4)) * .fin 4 = .fin 3 := by
  decide +kernel

end TickStream.Python
