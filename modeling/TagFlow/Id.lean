import Std.Data.ExtTreeMap
import Std.Data.ExtTreeSet

/-!
# Identifiers

Everything in a graph is named by an identifier: a nonempty text, marked by the kind of thing it
names, so that a value can never stand where a function is meant. Identifiers carry no meaning
beyond equality and order; the order is the order of their texts by code point.

A *node* is what an evaluation can start from (a value or a function), a *definition identifier*
names one of the three kinds of reusable bodies.

`Id.ofString?_eq_some_iff` says which texts are identifiers; the `Std.TransOrd` and
`Std.LawfulEqOrd` instances are what tables keyed by identifiers rest on.
-/

namespace TagFlow

/-- The five kinds of things that have identifiers. -/
inductive IdKind where
  | value
  | function
  | combine
  | pipe
  | cond
deriving DecidableEq

namespace IdKind

/-- The kind as messages name it. -/
def name : IdKind → String
  | value => "value"
  | function => "function"
  | combine => "combine definition"
  | pipe => "pipe definition"
  | cond => "cond definition"

/-- The kind as diagnostic listings name it. -/
def listingName : IdKind → String
  | value => "ValueId"
  | function => "FunctionId"
  | combine => "CombineDefId"
  | pipe => "PipeDefId"
  | cond => "CondDefId"

end IdKind

/-- An identifier of one kind: a text that is not empty. -/
structure Id (kind : IdKind) where
  text : String
  text_ne : text ≠ ""
deriving DecidableEq

/-- Names a row of the value table, or the future output of a function. -/
abbrev ValueId := Id .value
/-- Names an entry of the function table. -/
abbrev FunctionId := Id .function
/-- Names a combine definition. -/
abbrev CombineId := Id .combine
/-- Names a pipe definition. -/
abbrev PipeId := Id .pipe
/-- Names a cond definition. -/
abbrev CondId := Id .cond

namespace Id

variable {kind : IdKind}

theorem ext_text {a b : Id kind} (h : a.text = b.text) : a = b := by
  cases a; cases b; cases h; rfl

/-- Read an identifier; the empty text is none. -/
def ofString? (kind : IdKind) (text : String) : Option (Id kind) :=
  if h : text = "" then none else some ⟨text, h⟩

theorem ofString?_eq_some_iff {text : String} {id : Id kind} :
    ofString? kind text = some id ↔ id.text = text := by
  unfold ofString?
  split
  · next h =>
    subst h
    constructor
    · intro h; cases h
    · intro h; exact absurd h id.text_ne
  · constructor
    · intro h; cases h; rfl
    · intro h; subst h; rfl

@[simp] theorem ofString?_text (id : Id kind) : ofString? kind id.text = some id :=
  ofString?_eq_some_iff.2 rfl

/-- The identifier as a diagnostic listing shows it: kind, then the bare text in parentheses. -/
def listing (id : Id kind) : String :=
  kind.listingName ++ "(" ++ id.text ++ ")"

instance : ToString (Id kind) := ⟨text⟩

/-! ### Order

Identifiers are compared by their texts. -/

instance : Ord (Id kind) := ⟨fun a b => compare a.text b.text⟩

theorem compare_def (a b : Id kind) : compare a b = compare a.text b.text := rfl

instance : Std.TransOrd (Id kind) where
  eq_swap {a b} := by rw [compare_def, compare_def]; exact Std.OrientedCmp.eq_swap
  isLE_trans {a b c} := by
    rw [compare_def, compare_def, compare_def]; exact Std.TransCmp.isLE_trans

instance : Std.LawfulEqOrd (Id kind) where
  compare_self {a} := by rw [compare_def]; exact Std.ReflCmp.compare_self
  eq_of_compare {a b} := by
    rw [compare_def]; exact fun h => ext_text (Std.LawfulEqCmp.eq_of_compare h)

end Id

/-! ### Why a text is not an identifier -/

/-- The one way to fail: the text is empty. -/
inductive IdError where
  | empty (kind : IdKind)
deriving DecidableEq

/-- The wording of the error. -/
def IdError.message : IdError → String
  | empty kind => kind.name ++ " identifier must not be empty"

/-! ### Definitions and nodes -/

/-- An identifier of any of the three kinds of definition. -/
inductive DefinitionId where
  | combine (id : CombineId)
  | pipe (id : PipeId)
  | cond (id : CondId)
deriving DecidableEq

namespace DefinitionId

def text : DefinitionId → String
  | combine id => id.text
  | pipe id => id.text
  | cond id => id.text

/-- Which kind of definition is named. -/
def kind : DefinitionId → IdKind
  | combine _ => .combine
  | pipe _ => .pipe
  | cond _ => .cond

def listing : DefinitionId → String
  | combine id => "Combine(" ++ id.listing ++ ")"
  | pipe id => "Pipe(" ++ id.listing ++ ")"
  | cond id => "Cond(" ++ id.listing ++ ")"

end DefinitionId

/-- A node of the dependency graph: a value or a function. -/
inductive Node where
  | value (id : ValueId)
  | function (id : FunctionId)
deriving DecidableEq

namespace Node

def text : Node → String
  | value id => id.text
  | function id => id.text

def listing : Node → String
  | value id => "Value(" ++ id.listing ++ ")"
  | function id => "Function(" ++ id.listing ++ ")"

def asValue? : Node → Option ValueId
  | value id => some id
  | function _ => none

def asFunction? : Node → Option FunctionId
  | value _ => none
  | function id => some id

/-- Values come before functions; within a kind the texts decide. -/
protected def compare : Node → Node → Ordering
  | value a, value b => compare a b
  | value _, function _ => .lt
  | function _, value _ => .gt
  | function a, function b => compare a b

instance : Ord Node := ⟨Node.compare⟩

theorem compare_value (a b : ValueId) : compare (value a) (value b) = compare a b := rfl
theorem compare_function (a b : FunctionId) : compare (function a) (function b) = compare a b := rfl

instance : Std.TransOrd Node where
  eq_swap {a b} := match a, b with
    | value a, value b => by
      rw [compare_value, compare_value]; exact Std.OrientedCmp.eq_swap
    | value _, function _ => rfl
    | function _, value _ => rfl
    | function a, function b => by
      rw [compare_function, compare_function]; exact Std.OrientedCmp.eq_swap
  isLE_trans {a b c} := match a, b, c with
    | value a, value b, value c => by
      rw [compare_value, compare_value, compare_value]; exact Std.TransCmp.isLE_trans
    | value _, _, function _ => fun _ _ => rfl
    | function _, value _, _ => fun h _ => nomatch h
    | _, function _, value _ => fun _ h => nomatch h
    | function a, function b, function c => by
      rw [compare_function, compare_function, compare_function]; exact Std.TransCmp.isLE_trans

instance : Std.LawfulEqOrd Node where
  compare_self {a} := match a with
    | value a => by rw [compare_value]; exact Std.ReflCmp.compare_self
    | function a => by rw [compare_function]; exact Std.ReflCmp.compare_self
  eq_of_compare {a b} := match a, b with
    | value a, value b => by
      rw [compare_value]; exact fun h => congrArg value (Std.LawfulEqCmp.eq_of_compare h)
    | value _, function _ => fun h => nomatch h
    | function _, value _ => fun h => nomatch h
    | function a, function b => by
      rw [compare_function]; exact fun h => congrArg function (Std.LawfulEqCmp.eq_of_compare h)

end Node

end TagFlow
