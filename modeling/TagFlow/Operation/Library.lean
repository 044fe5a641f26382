import TagFlow.Decimal.Reading
import TagFlow.Decimal.Remainder
import TagFlow.Operation.Registry
import TagFlow.Signature
import TagFlow.Text.Blank
import TagFlow.Text.Search
import TagFlow.Text.Uppercase

/-!
# The built-in operations and adapters

Each built-in is a body, which computes an untagged value from the payloads of its arguments, and a
rule that is the same for all: the result carries the tags of every argument. The exceptions are
the pass adapters, which hand on their argument as it is.

An operation looks at its first argument before its second, and at the types of both before
anything else about them.
-/

namespace TagFlow.Library

/-! ### Reading arguments -/

/-- Refuse a value of the wrong type. -/
def mismatch {α : Type} (operation : String) (expected : BaseType) (v : Value) : Except Fault α :=
  .error (.error (.typeMismatch operation expected v.baseType))

def expectNumber (operation : String) (v : Value) : Except Fault Float :=
  match v.asNumber? with
  | some n => .ok n
  | none => mismatch operation .number v

def expectString (operation : String) (v : Value) : Except Fault String :=
  match v.asString? with
  | some s => .ok s
  | none => mismatch operation .string v

def expectBool (operation : String) (v : Value) : Except Fault Bool :=
  match v.asBool? with
  | some b => .ok b
  | none => mismatch operation .boolean v

def expectArray (operation : String) (v : Value) : Except Fault (List Raw) :=
  match v.asArray? with
  | some items => .ok items
  | none => mismatch operation .array v

/-- The largest count or index. -/
def maxIndex : Nat := Nat.pow 2 32 - 1

/-- The natural number that a count or index denotes: it must be an integer from 0 to
`maxIndex`. -/
def index? (n : Float) : Option Nat :=
  if n.isFinite && n.floor == n && !(n < 0) && !(Float.ofNat maxIndex < n) then
    some n.toUInt64.toNat
  else none

def expectIndex (operation : String) (n : Float) : Except Fault Nat :=
  match index? n with
  | some i => .ok i
  | none => .error (.error (.invalidNumber operation (.notIndex n)))

/-! ### From bodies to implementations -/

/-- A body under a name; the result carries the tags of both arguments. -/
def binary (name : String) (body : String → Value → Value → Except Fault Value) :
    String × Binary :=
  (name, fun left right => (body name left right).map (·.derivedFrom [left, right]))

/-- A body under a name; the result carries the tags of the argument. -/
def adapter (name : String) (body : String → Value → Except Fault Value) : String × Adapter :=
  (name, fun v => (body name v).map (·.derivedFrom [v]))

/-- The adapter that hands on values of one type. -/
def pass (name : String) (ty : BaseType) : String × Adapter :=
  (name, fun v => if v.baseType = ty then .ok v else mismatch name ty v)

/-! ### Numbers -/

def arithmetic (f : Float → Float → Float) (operation : String) (a b : Value) :
    Except Fault Value := do
  let x ← expectNumber operation a
  let y ← expectNumber operation b
  return .number (f x y)

def comparison (f : Float → Float → Bool) (operation : String) (a b : Value) :
    Except Fault Value := do
  let x ← expectNumber operation a
  let y ← expectNumber operation b
  return .boolean (f x y)

/-- The smaller of two numbers; the other one if one is NaN, the second if they are equal, as the
two zeros are. -/
def smaller (x y : Float) : Float :=
  if x.isNaN || y ≤ x then y else x

/-- The larger of two numbers; the other one if one is NaN, the second if they are equal, as the
two zeros are. -/
def larger (x y : Float) : Float :=
  if x.isNaN || x ≤ y then y else x

def numberBinaries : List (String × Binary) :=
  [ binary "number::add" (arithmetic (· + ·))
  , binary "number::subtract" (arithmetic (· - ·))
  , binary "number::multiply" (arithmetic (· * ·))
  , binary "number::divide" (arithmetic (· / ·))
  , binary "number::modulo" (arithmetic Decimal.remainder)
  , binary "number::power" (arithmetic Float.pow)
  , binary "number::min" (arithmetic smaller)
  , binary "number::max" (arithmetic larger)
  , binary "number::greaterThan" (comparison fun x y => y < x)
  , binary "number::lessThan" (comparison fun x y => x < y) ]

def negate (operation : String) (v : Value) : Except Fault Value := do
  let n ← expectNumber operation v
  return .number (-n)

def numberToString (operation : String) (v : Value) : Except Fault Value := do
  let n ← expectNumber operation v
  return .string (Decimal.numberText n)

def numberAdapters : List (String × Adapter) :=
  [ pass "number::pass" .number
  , adapter "number::negate" negate
  , adapter "number::toString" numberToString ]

/-! ### Texts -/

def concatStrings (operation : String) (a b : Value) : Except Fault Value := do
  let s ← expectString operation a
  let t ← expectString operation b
  return .string (s ++ t)

def includes (operation : String) (a b : Value) : Except Fault Value := do
  let s ← expectString operation a
  let t ← expectString operation b
  return .boolean (Text.occursIn t.toList s.toList)

/-- The most bytes a repeated text may have. -/
def maxRepeatBytes : Nat := Nat.pow 2 26

def repeatString (operation : String) (a b : Value) : Except Fault Value := do
  let s ← expectString operation a
  let n ← expectNumber operation b
  let count ← expectIndex operation n
  if s.utf8ByteSize * count ≤ maxRepeatBytes then
    return .string (Text.repeated s count)
  else
    .error (.error (.invalidNumber operation (.repeatTooLong s.utf8ByteSize count maxRepeatBytes)))

def stringBinaries : List (String × Binary) :=
  [ binary "string::concat" concatStrings
  , binary "string::includes" includes
  , binary "string::repeat" repeatString ]

def upper (operation : String) (v : Value) : Except Fault Value := do
  let s ← expectString operation v
  return .string (Text.upper s)

/-- The number of characters of a text. -/
def stringLength (operation : String) (v : Value) : Except Fault Value := do
  let s ← expectString operation v
  return .number (Float.ofNat s.length)

/-- The number that a text denotes: 0 if it is blank, NaN if it is no numeral. -/
def numberOf (text : String) : Float :=
  let text := Text.trim text
  if text = "" then 0 else (Decimal.readNumber? text).getD (0.0 / 0.0)

def toNumber (operation : String) (v : Value) : Except Fault Value := do
  let s ← expectString operation v
  return .number (numberOf s)

def stringAdapters : List (String × Adapter) :=
  [ pass "string::pass" .string
  , adapter "string::upper" upper
  , adapter "string::length" stringLength
  , adapter "string::toNumber" toNumber ]

/-! ### Truth values -/

def logic (f : Bool → Bool → Bool) (operation : String) (a b : Value) : Except Fault Value := do
  let x ← expectBool operation a
  let y ← expectBool operation b
  return .boolean (f x y)

def booleanBinaries : List (String × Binary) :=
  [ binary "boolean::and" (logic and)
  , binary "boolean::or" (logic or)
  , binary "boolean::xor" (logic xor) ]

def negation (operation : String) (v : Value) : Except Fault Value := do
  let b ← expectBool operation v
  return .boolean (!b)

def booleanAdapters : List (String × Adapter) :=
  [ pass "boolean::pass" .boolean
  , adapter "boolean::not" negation ]

/-! ### Arrays -/

/-- The element type of two arrays one after the other: that of the other one if one has no items,
a common one if both declare it; otherwise it is left to the items. -/
def concatElement (left right : List Raw) (a b : Option BaseType) : Option BaseType :=
  if left.isEmpty then b
  else if right.isEmpty then a
  else if a = b then a
  else none

def concatArrays (operation : String) (a b : Value) : Except Fault Value := do
  let left ← expectArray operation a
  let right ← expectArray operation b
  return .arrayWith (concatElement left right a.element b.element) (left ++ right)

/-- The element type of an array with one more item: the type of the item, if the array is empty or
declares that type; otherwise it is left to the items. -/
def appendElement (items : List Raw) (element : Option BaseType) (item : BaseType) :
    Option BaseType :=
  if items.isEmpty || element == some item then some item else none

def append (operation : String) (a b : Value) : Except Fault Value := do
  let items ← expectArray operation a
  return .arrayWith (appendElement items a.element b.baseType) (items ++ [b.raw])

/-- The item of an array at an index counted from 0. -/
def itemAt (operation : String) (a b : Value) : Except Fault Value := do
  let items ← expectArray operation a
  let n ← expectNumber operation b
  let i ← expectIndex operation n
  match items[i]? with
  | some item => return .ofRaw item
  | none => .error (.error (.indexOutOfBounds operation n items.length))

def arrayBinaries : List (String × Binary) :=
  [ binary "array::concat" concatArrays
  , binary "array::append" append
  , binary "array::at" itemAt ]

def arrayLength (operation : String) (v : Value) : Except Fault Value := do
  let items ← expectArray operation v
  return .number (Float.ofNat items.length)

def arrayAdapters : List (String × Adapter) :=
  [ pass "array::pass" .array
  , adapter "array::length" arrayLength ]

/-! ### Values of any type -/

def genericBinaries : List (String × Binary) :=
  [ binary "generic::equals" fun _ a b => .ok (.boolean (a.raw == b.raw))
  , binary "generic::notEquals" fun _ a b => .ok (.boolean (!(a.raw == b.raw))) ]

def genericAdapters : List (String × Adapter) :=
  [ pass "null::pass" .null
  , ("generic::pass", .ok)
  , adapter "generic::toString" fun _ v => .ok (.string v.raw.text) ]

/-! ### All of them -/

def binaries : List (String × Binary) :=
  numberBinaries ++ stringBinaries ++ booleanBinaries ++ arrayBinaries ++ genericBinaries

def adapters : List (String × Adapter) :=
  numberAdapters ++ stringAdapters ++ booleanAdapters ++ arrayAdapters ++ genericAdapters

end TagFlow.Library

namespace TagFlow.Registry

/-- The registry of all built-in operations and adapters. -/
def standard : Registry := empty.extend Library.binaries Library.adapters

end TagFlow.Registry
