import TickStream.Python.Value

/-!
# Python numbers

The conversions `float()` and `int()`, binary64 rounding, comparison and
`repr`, as CPython computes them.  The sign of a zero is not represented: it
shows only in the text of a float.
-/

namespace TickStream.Python

/-- Code points `str.isspace` accepts. -/
def spaceCodes : List Nat :=
  [0x9, 0xa, 0xb, 0xc, 0xd, 0x1c, 0x1d, 0x1e, 0x1f, 0x20, 0x85, 0xa0, 0x1680,
    0x2000, 0x2001, 0x2002, 0x2003, 0x2004, 0x2005, 0x2006, 0x2007, 0x2008,
    0x2009, 0x200a, 0x2028, 0x2029, 0x202f, 0x205f, 0x3000]

def isSpace (char : Char) : Bool := spaceCodes.contains char.toNat

/-- The first of every run of ten decimal digits in Unicode. -/
def decimalZeros : List Nat :=
  [0x30, 0x660, 0x6f0, 0x7c0, 0x966, 0x9e6, 0xa66, 0xae6, 0xb66, 0xbe6, 0xc66,
    0xce6, 0xd66, 0xde6, 0xe50, 0xed0, 0xf20, 0x1040, 0x1090, 0x17e0, 0x1810,
    0x1946, 0x19d0, 0x1a80, 0x1a90, 0x1b50, 0x1bb0, 0x1c40, 0x1c50, 0xa620,
    0xa8d0, 0xa900, 0xa9d0, 0xa9f0, 0xaa50, 0xabf0, 0xff10, 0x104a0, 0x10d30,
    0x11066, 0x110f0, 0x11136, 0x111d0, 0x112f0, 0x11450, 0x114d0, 0x11650,
    0x116c0, 0x11730, 0x118e0, 0x11950, 0x11c50, 0x11d50, 0x11da0, 0x16a60,
    0x16ac0, 0x16b50, 0x1d7ce, 0x1d7d8, 0x1d7e2, 0x1d7ec, 0x1d7f6, 0x1e140,
    0x1e2f0, 0x1e950, 0x1fbf0]

def decimalValue? (char : Char) : Option Nat :=
  (decimalZeros.find? (fun first => first ≤ char.toNat && char.toNat < first + 10)).map
    (fun first => char.toNat - first)

/-- `\d` of a Python regular expression over text. -/
def isDecimal (char : Char) : Bool := (decimalValue? char).isSome

/-- Fold digits and blanks beyond ASCII to ASCII, as both conversions do
before they read a numeral. -/
def foldNumeral (char : Char) : Char :=
  if char.toNat < 127 then char
  else if isSpace char then ' '
  else
    match decimalValue? char with
    | some digit => Char.ofNat (0x30 + digit)
    | none => '?'

/-- The blanks a numeral may be surrounded by, once folded. -/
def isNumeralBlank (char : Char) : Bool :=
  char = ' ' || (0x9 ≤ char.toNat && char.toNat ≤ 0xd)

def stripBy (blank : Char → Bool) (text : List Char) : List Char :=
  ((text.dropWhile blank).reverse.dropWhile blank).reverse

def numeralChars (text : String) : List Char :=
  stripBy isNumeralBlank (text.toList.map foldNumeral)

/-- Drop underscores, each of which must stand between two digits. -/
def dropUnderscores : Char → List Char → Option (List Char)
  | previous, [] => if previous = '_' then none else some []
  | previous, char :: rest =>
      if char = '_' then
        if previous.isDigit then dropUnderscores '_' rest else none
      else if previous = '_' && !char.isDigit then none
      else (dropUnderscores char rest).map (fun tail => char :: tail)

def readDigits (digits : List Char) : Nat :=
  digits.foldl (fun total char => 10 * total + (char.toNat - 0x30)) 0

/-- Split off an optional sign; the flag is set for a minus. -/
def splitSign : List Char → Bool × List Char
  | '+' :: rest => (false, rest)
  | '-' :: rest => (true, rest)
  | text => (false, text)

def pow2 (exponent : Int) : Rat :=
  if 0 ≤ exponent then ((2 ^ exponent.toNat : Nat) : Rat)
  else mkRat 1 (2 ^ (-exponent).toNat)

def pow10 (exponent : Int) : Rat :=
  if 0 ≤ exponent then ((10 ^ exponent.toNat : Nat) : Rat)
  else mkRat 1 (10 ^ (-exponent).toNat)

/-- Nearest integer, ties to even. -/
def roundHalfEven (value : Rat) : Int :=
  let below := value.floor
  let fraction := value - below
  if fraction < 1 / 2 then below
  else if 1 / 2 < fraction then below + 1
  else if below % 2 = 0 then below
  else below + 1

/-- The exponent of the largest power of two not above `|value|`. -/
def binaryExponent (value : Rat) : Int :=
  let guess : Int := Nat.log2 value.num.natAbs - Nat.log2 value.den
  if |value| < pow2 guess then guess - 1 else guess

/-- The double nearest to a rational. -/
def roundToDouble (value : Rat) : PyFloat :=
  if value = 0 then .fin 0
  else
    let ulp := pow2 (max (binaryExponent value - 52) (-1074))
    let rounded := (roundHalfEven (value / ulp) : Rat) * ulp
    if pow2 1024 ≤ |rounded| then .inf (decide (value < 0)) else .fin rounded

namespace PyFloat

/-- `left < right`; false whenever an operand is NaN. -/
def lt : PyFloat → PyFloat → Bool
  | .nan, _ => false
  | _, .nan => false
  | .inf negative, .inf other => negative && !other
  | .inf negative, .fin _ => negative
  | .fin _, .inf negative => !negative
  | .fin left, .fin right => left < right

/-- `left <= right`; false whenever an operand is NaN. -/
def le : PyFloat → PyFloat → Bool
  | .nan, _ => false
  | _, .nan => false
  | .inf negative, .inf other => negative || !other
  | .inf negative, .fin _ => negative
  | .fin _, .inf negative => !negative
  | .fin left, .fin right => left ≤ right

def isNaN : PyFloat → Bool
  | .nan => true
  | _ => false

def isFinite : PyFloat → Bool
  | .fin _ => true
  | _ => false

/-- Numbers other than NaN are linearly ordered. -/
theorem lt_of_not_le {left right : PyFloat} (leftNumber : left.isNaN = false)
    (rightNumber : right.isNaN = false) (notLe : left.le right = false) :
    right.lt left = true := by
  cases left with
  | nan => cases leftNumber
  | inf negative =>
      cases right with
      | nan => cases rightNumber
      | inf other => cases negative <;> cases other <;> simp_all [lt, le]
      | fin value => simpa [lt, le] using notLe
  | fin value =>
      cases right with
      | nan => cases rightNumber
      | inf other => simpa [lt, le] using notLe
      | fin other => simpa [lt, le] using notLe

theorem le_of_not_lt {left right : PyFloat} (leftNumber : left.isNaN = false)
    (rightNumber : right.isNaN = false) (notLt : left.lt right = false) :
    right.le left = true := by
  cases left with
  | nan => cases leftNumber
  | inf negative =>
      cases right with
      | nan => cases rightNumber
      | inf other => cases negative <;> cases other <;> simp_all [lt, le]
      | fin value => simpa [lt, le] using notLt
  | fin value =>
      cases right with
      | nan => cases rightNumber
      | inf other => simpa [lt, le] using notLt
      | fin other => simpa [lt, le] using notLt

end PyFloat

/-- The value of a decimal numeral.  Exponents that put it far outside the
doubles are answered without computing the power. -/
def decimalFloat (mantissa : Nat) (exponent : Int) : PyFloat :=
  if mantissa = 0 then .fin 0
  else
    let magnitude := (Nat.toDigits 10 mantissa).length + exponent
    if 310 < magnitude then .inf false
    else if magnitude < -330 then .fin 0
    else roundToDouble (mantissa * pow10 exponent)

def readExponent (text : List Char) : Option Int :=
  let (negative, digits) := splitSign text
  if digits.isEmpty || !digits.all Char.isDigit then none
  else some (if negative then -(readDigits digits : Int) else readDigits digits)

/-- An unsigned decimal numeral: digits, fraction and exponent. -/
def readDecimal (text : List Char) : Option PyFloat :=
  let whole := text.takeWhile Char.isDigit
  let afterWhole := text.dropWhile Char.isDigit
  let (fraction, afterFraction) :=
    match afterWhole with
    | '.' :: rest => (rest.takeWhile Char.isDigit, rest.dropWhile Char.isDigit)
    | _ => ([], afterWhole)
  if whole.isEmpty && fraction.isEmpty then none
  else
    let mantissa := readDigits (whole ++ fraction)
    match afterFraction with
    | [] => some (decimalFloat mantissa (-fraction.length))
    | mark :: rest =>
        if mark = 'e' || mark = 'E' then
          (readExponent rest).map (fun exponent =>
            decimalFloat mantissa (exponent - fraction.length))
        else none

def PyFloat.negate : PyFloat → PyFloat
  | .nan => .nan
  | .inf negative => .inf (!negative)
  | .fin value => .fin (-value)

/-- The double a numeral denotes, if it is one. -/
def readFloat (text : String) : Option PyFloat := do
  let chars ← dropUnderscores ' ' (numeralChars text)
  let (negative, unsigned) := splitSign chars
  let word := unsigned.map Char.toLower
  let value ←
    if word = "inf".toList || word = "infinity".toList then some (.inf false)
    else if word = "nan".toList then some .nan
    else readDecimal unsigned
  return if negative then value.negate else value

/-- `|value|` as a decimal: the exponent of its first digit. -/
def decimalExponent (value : Rat) : Int :=
  let guess : Int :=
    (Nat.toDigits 10 value.num.natAbs).length -
      (Nat.toDigits 10 value.den).length
  if |value| < pow10 guess then guess - 1 else guess

/-- The shortest digits that read back as the positive double `value`, with
the exponent of the first of them. -/
def shortestDigits (value : Rat) : List Char × Int :=
  let exponent := decimalExponent value
  let scaled (length : Nat) : Int :=
    roundHalfEven (value * pow10 (length - 1 - exponent))
  let readsBack (length : Nat) : Bool :=
    roundToDouble (scaled length * pow10 (exponent - length + 1)) = .fin value
  let length := ((List.range 17).map Nat.succ).find? readsBack |>.getD 17
  let digits := Nat.toDigits 10 (scaled length).toNat
  let stripped := (digits.reverse.dropWhile (· = '0')).reverse
  (stripped, exponent + (digits.length - length))

def padExponent (exponent : Nat) : List Char :=
  let digits := Nat.toDigits 10 exponent
  if digits.length < 2 then '0' :: digits else digits

/-- `repr` of a float. -/
def PyFloat.repr : PyFloat → String
  | .nan => "nan"
  | .inf false => "inf"
  | .inf true => "-inf"
  | .fin value =>
      if value = 0 then "0.0"
      else
        let (digits, exponent) := shortestDigits |value|
        let body :=
          if 0 ≤ exponent && exponent < 16 then
            let whole := exponent.toNat + 1
            digits.take whole ++
              List.replicate (whole - digits.length) '0' ++ ['.'] ++
              (if digits.length ≤ whole then ['0'] else digits.drop whole)
          else if -4 ≤ exponent && exponent < 0 then
            ['0', '.'] ++ List.replicate (-exponent - 1).toNat '0' ++ digits
          else
            digits.take 1 ++
              (if digits.length ≤ 1 then [] else '.' :: digits.drop 1) ++
              (if exponent < 0 then ['e', '-'] else ['e', '+']) ++
              padExponent exponent.natAbs
        String.ofList (if value < 0 then '-' :: body else body)

def hexPad (width value : Nat) : List Char :=
  let digits := Nat.toDigits 16 value
  List.replicate (width - digits.length) '0' ++ digits

/-- One character inside the `repr` of a string quoted by `quote`.
Characters beyond Latin-1 are taken to be printable. -/
def reprChar (quote char : Char) : List Char :=
  if char = '\\' || char = quote then ['\\', char]
  else if char = '\n' then ['\\', 'n']
  else if char = '\r' then ['\\', 'r']
  else if char = '\t' then ['\\', 't']
  else if char.toNat < 0x20 || (0x7f ≤ char.toNat && char.toNat ≤ 0xa0) ||
      char.toNat = 0xad then
    '\\' :: 'x' :: hexPad 2 char.toNat
  else [char]

/-- `repr` of a string. -/
def reprStr (text : String) : String :=
  let chars := text.toList
  let quote := if chars.contains '\'' && !chars.contains '"' then '"' else '\''
  String.ofList (quote :: chars.flatMap (reprChar quote) ++ [quote])

/-- Digits a conversion between integers and text may have. -/
def maxIntDigits : Nat := 4300

/-- `str` of an integer. -/
def strInt (value : Int) : Result String :=
  if 10 ^ maxIntDigits ≤ value.natAbs then
    raise .valueError "Exceeds the limit (4300 digits) for integer string conversion; use sys.set_int_max_str_digits() to increase the limit"
  else .ok (toString value)

/-- How many recursive calls the interpreter still allows, if its limit can be
reached at all. -/
abbrev Room := Option Nat

/-- Enter a recursive call that is getting the `what` of an object. -/
def Room.enter (room : Room) (what : String) : Result Room :=
  match room with
  | none => .ok none
  | some 0 =>
      raise .recursionError
        ("maximum recursion depth exceeded while getting the " ++ what ++
          " of an object")
  | some (left + 1) => .ok (some left)

mutual

/-- `repr` of a decoded value, once its own call has been entered. -/
def Json.repr (room : Room) : Json → Result String
  | .null => .ok "None"
  | .bool true => .ok "True"
  | .bool false => .ok "False"
  | .int value => strInt value
  | .float value => .ok value.repr
  | .str value => .ok (reprStr value)
  | .arr items => do
      let inner ← reprItems room items
      return "[" ++ ", ".intercalate inner ++ "]"
  | .obj members => do
      let inner ← reprMembers room members
      return "\x7b" ++ ", ".intercalate inner ++ "\x7d"

def reprItems (room : Room) : List Json → Result (List String)
  | [] => .ok []
  | item :: rest => do
      let inside ← room.enter "repr"
      let head ← item.repr inside
      let tail ← reprItems room rest
      return head :: tail

def reprMembers (room : Room) : List (String × Json) → Result (List String)
  | [] => .ok []
  | (name, value) :: rest => do
      let inside ← room.enter "repr"
      let shown ← value.repr inside
      let tail ← reprMembers room rest
      return (reprStr name ++ ": " ++ shown) :: tail

end

/-- `str(value)`: a string is itself, anything else its `repr`. -/
def Json.toStr (room : Room) : Json → Result String
  | .str value => .ok value
  | other => do
      let inside ← room.enter "str"
      other.repr inside

/-- `float(n)` of an integer. -/
def floatOfInt (value : Int) : Result PyFloat :=
  match roundToDouble value with
  | .inf _ => raise .overflowError "int too large to convert to float"
  | double => .ok double

/-- `float(value)`. -/
def Json.toFloat : Json → Result PyFloat
  | .float value => .ok value
  | .int value => floatOfInt value
  | .bool value => .ok (.fin (if value then 1 else 0))
  | .str text =>
      match readFloat text with
      | some value => .ok value
      | none =>
          raise .valueError
            ("could not convert string to float: " ++ reprStr text)
  | other =>
      raise .typeError
        ("float() argument must be a string or a real number, not '" ++
          other.typeName ++ "'")

/-- The integer a numeral denotes in base ten, if it is one. -/
def readInt (text : String) : Result Int :=
  let (negative, unsigned) := splitSign (numeralChars text)
  match dropUnderscores ' ' unsigned with
  | some (first :: rest) =>
      let digits := first :: rest
      if !digits.all Char.isDigit then
        raise .valueError
          ("invalid literal for int() with base 10: " ++ reprStr text)
      else if maxIntDigits < digits.length then
        raise .valueError
          ("Exceeds the limit (4300 digits) for integer string conversion: value has " ++
            toString digits.length ++
            " digits; use sys.set_int_max_str_digits() to increase the limit")
      else
        .ok (if negative then -(readDigits digits : Int) else readDigits digits)
  | _ =>
      raise .valueError
        ("invalid literal for int() with base 10: " ++ reprStr text)

/-- Rounding toward zero. -/
def truncate (value : Rat) : Int :=
  if value < 0 then value.ceil else value.floor

/-- `int(value)`. -/
def Json.toInt : Json → Result Int
  | .int value => .ok value
  | .bool value => .ok (if value then 1 else 0)
  | .float .nan => raise .valueError "cannot convert float NaN to integer"
  | .float (.inf _) =>
      raise .overflowError "cannot convert float infinity to integer"
  | .float (.fin value) => .ok (truncate value)
  | .str text => readInt text
  | other =>
      raise .typeError
        ("int() argument must be a string, a bytes-like object or a real number, not '" ++
          other.typeName ++ "'")

end TickStream.Python
