import TagFlow.Decimal.Text

/-!
# Payloads

A payload is a number, a text, a truth value, an array of payloads or nothing. Its *base type* says
which. Arrays may be mixed; the *common element* of an array is the base type of all its items,
where they agree and there is at least one.

Payloads are compared the way numbers are: a NaN differs from itself and the two zeros are equal,
so `==` on payloads is not equality.
-/

namespace TagFlow

/-- The base type of a value. -/
inductive BaseType where
  | number
  | string
  | boolean
  | array
  | null
deriving DecidableEq

namespace BaseType

/-- All base types, in the order in which they are listed. -/
def all : List BaseType := [number, string, boolean, array, null]

/-- The name of a base type in messages and in the names of operations. -/
def name : BaseType → String
  | number => "number"
  | string => "string"
  | boolean => "boolean"
  | array => "array"
  | null => "null"

/-- The base type of a name. -/
def ofName? (text : String) : Option BaseType := all.find? (·.name == text)

theorem mem_all (ty : BaseType) : ty ∈ all := by cases ty <;> decide

@[simp] theorem ofName?_name (ty : BaseType) : ofName? ty.name = some ty := by
  cases ty <;> decide

end BaseType

/-- The payload of a value. -/
inductive Raw where
  | number (n : Float)
  | string (s : String)
  | boolean (b : Bool)
  | array (items : List Raw)
  | null

namespace Raw

/-- Which kind of payload it is. -/
def baseType : Raw → BaseType
  | number _ => .number
  | string _ => .string
  | boolean _ => .boolean
  | array _ => .array
  | null => .null

/-- The base type of all items; none for no items and for mixed ones. -/
def commonElement : List Raw → Option BaseType
  | [] => none
  | first :: rest =>
    if rest.all (·.baseType == first.baseType) then some first.baseType else none

/-! ### Comparison -/

mutual

/-- Two payloads agree: numbers numerically, texts and truth values literally, arrays item by
item. -/
def agrees : Raw → Raw → Bool
  | number x, number y => x == y
  | string s, string t => s == t
  | boolean a, boolean b => a == b
  | array xs, array ys => agreesAll xs ys
  | null, null => true
  | _, _ => false

/-- Two lists of payloads have the same length and agree item by item. -/
def agreesAll : List Raw → List Raw → Bool
  | [], [] => true
  | x :: xs, y :: ys => agrees x y && agreesAll xs ys
  | _, _ => false

end

instance : BEq Raw := ⟨agrees⟩

/-! ### Text -/

mutual

/-- The text of a payload: texts stand as they are, the items of an array stand in brackets,
separated by commas. -/
def text : Raw → String
  | number n => Decimal.numberText n
  | string s => s
  | boolean b => if b then "true" else "false"
  | array items => "[" ++ ",".intercalate (texts items) ++ "]"
  | null => "null"

/-- The texts of the items of an array. -/
def texts : List Raw → List String
  | [] => []
  | x :: rest => text x :: texts rest

end

end Raw

end TagFlow
