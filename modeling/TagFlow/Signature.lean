import TagFlow.Value.Raw

/-!
# Signatures

What is known about the built-in operations and adapters without running them: which base types
they accept and what they return. An *operation* combines two values, an *adapter* turns one value
into another before an operation sees it. Names have the form `namespace::operation`, where the
namespace names the family of the operands.

Type inference, validation and the choice of a default adapter read these two tables; the
implementations stand in `TagFlow.Operation`.
-/

namespace TagFlow

/-- What a parameter accepts. -/
inductive Parameter where
  /-- Exactly one base type. -/
  | type (ty : BaseType)
  | any
deriving DecidableEq

namespace Parameter

def accepts : Parameter → BaseType → Bool
  | type expected, ty => expected == ty
  | any, _ => true

/-- The one accepted type, if the parameter names one. -/
def concrete? : Parameter → Option BaseType
  | type ty => some ty
  | any => none

end Parameter

/-- What an operation or adapter returns. -/
inductive Return where
  | type (ty : BaseType)
  /-- The element type of the array argument. -/
  | element
  /-- Whatever came in. -/
  | sameAsInput
deriving DecidableEq

/-- The part of a name before the first `::`, or the whole name. -/
def namespaceOf (name : String) : String := String.ofList (go name.toList)
where
  go : List Char → List Char
    | ':' :: ':' :: _ => []
    | c :: rest => c :: go rest
    | [] => []

/-! ### Operations -/

/-- The signature of a binary operation. -/
structure OperationSignature where
  name : String
  first : Parameter
  second : Parameter
  returns : Return
deriving DecidableEq

namespace OperationSignature

/-- The result type, given the element type of the array argument. -/
def resultType (op : OperationSignature) (element : Option BaseType) : Option BaseType :=
  match op.returns with
  | .type ty => some ty
  | .element => element
  | .sameAsInput => none

def parameters (op : OperationSignature) : List Parameter := [op.first, op.second]

/-- Two arguments of one type. -/
def uniform (name : String) (arguments result : BaseType) : OperationSignature :=
  ⟨name, .type arguments, .type arguments, .type result⟩

/-- All built-in operations. -/
def builtin : List OperationSignature :=
  [ uniform "number::add" .number .number
  , uniform "number::subtract" .number .number
  , uniform "number::multiply" .number .number
  , uniform "number::divide" .number .number
  , uniform "number::modulo" .number .number
  , uniform "number::power" .number .number
  , uniform "number::min" .number .number
  , uniform "number::max" .number .number
  , uniform "number::greaterThan" .number .boolean
  , uniform "number::lessThan" .number .boolean
  , uniform "string::concat" .string .string
  , uniform "string::includes" .string .boolean
  , ⟨"string::repeat", .type .string, .type .number, .type .string⟩
  , uniform "boolean::and" .boolean .boolean
  , uniform "boolean::or" .boolean .boolean
  , uniform "boolean::xor" .boolean .boolean
  , uniform "array::concat" .array .array
  , ⟨"array::append", .type .array, .any, .type .array⟩
  , ⟨"array::at", .type .array, .type .number, .element⟩
  , ⟨"generic::equals", .any, .any, .type .boolean⟩
  , ⟨"generic::notEquals", .any, .any, .type .boolean⟩ ]

/-- The built-in operation of a name. -/
def find? (name : String) : Option OperationSignature := builtin.find? (·.name == name)

/-- The built-in operations of one namespace. -/
def inNamespace (family : String) : List OperationSignature :=
  builtin.filter fun op => namespaceOf op.name == family

end OperationSignature

/-- The result type of the operation of a name, given the element type of its array argument. -/
def operationResultType (name : String) (element : Option BaseType) : Option BaseType :=
  (OperationSignature.find? name).bind (·.resultType element)

/-! ### Adapters -/

/-- The signature of an adapter. -/
structure AdapterSignature where
  name : String
  input : Parameter
  returns : Return
deriving DecidableEq

namespace AdapterSignature

/-- The type of what the adapter returns; none when that depends on its argument. -/
def outputType (adapter : AdapterSignature) : Option BaseType :=
  match adapter.returns with
  | .type ty => some ty
  | .sameAsInput => adapter.input.concrete?
  | .element => none

/-- From one type to another. -/
def convert (name : String) (argument result : BaseType) : AdapterSignature :=
  ⟨name, .type argument, .type result⟩

/-- All built-in adapters. -/
def builtin : List AdapterSignature :=
  [ convert "number::pass" .number .number
  , convert "string::pass" .string .string
  , convert "boolean::pass" .boolean .boolean
  , convert "array::pass" .array .array
  , convert "null::pass" .null .null
  , ⟨"generic::pass", .any, .sameAsInput⟩
  , convert "number::toString" .number .string
  , convert "number::negate" .number .number
  , convert "string::length" .string .number
  , convert "string::toNumber" .string .number
  , convert "string::upper" .string .string
  , convert "boolean::not" .boolean .boolean
  , convert "array::length" .array .number
  , ⟨"generic::toString", .any, .type .string⟩ ]

/-- The built-in adapter of a name. -/
def find? (name : String) : Option AdapterSignature := builtin.find? (·.name == name)

end AdapterSignature

/-- The adapter that passes on a value of the given type, or any value where the type is not
known. -/
def passAdapter : Option BaseType → String
  | some .number => "number::pass"
  | some .string => "string::pass"
  | some .boolean => "boolean::pass"
  | some .array => "array::pass"
  | some .null => "null::pass"
  | none => "generic::pass"

end TagFlow
