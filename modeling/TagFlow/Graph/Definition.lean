import TagFlow.Id

/-!
# Definitions

The reusable bodies behind function entries. A *combine* definition applies an adapter to each of
two arguments and an operation to the results. A *pipe* definition runs steps in order, each a
combine or another pipe, over its named inputs, the outputs of earlier steps and absolute values;
it returns what its last step returns. A *cond* definition chooses between two functions.
-/

namespace TagFlow

/-- One argument slot of a combine definition. -/
structure CombineSlot where
  slot : ValueId
  /-- The adapter that the argument goes through first. -/
  adapter : String
deriving DecidableEq

/-- An operation with an adapter for each of its two arguments. -/
structure CombineDefinition where
  operation : String
  first : CombineSlot
  second : CombineSlot
deriving DecidableEq

namespace CombineDefinition

def slots (d : CombineDefinition) : List CombineSlot := [d.first, d.second]

end CombineDefinition

/-- What a combine definition does, whatever its slots are: its operation, and the adapters of its slots in
order. -/
structure CombineSignature where
  operation : String
  adapters : List String
deriving DecidableEq

def CombineDefinition.signature (d : CombineDefinition) : CombineSignature :=
  ⟨d.operation, d.slots.map (·.adapter)⟩

namespace CombineSignature

/-- Signatures are ordered by their operations, and then by their adapters. -/
def order : CombineSignature → CombineSignature → Ordering :=
  compareLex (compareOn operation) (compareOn adapters)

instance : Ord CombineSignature := ⟨order⟩

instance : Std.TransOrd CombineSignature :=
  inferInstanceAs (Std.TransCmp (compareLex (compareOn operation) (compareOn adapters)))

instance : Std.LawfulEqOrd CombineSignature where
  eq_of_compare {a b} same := by
    obtain ⟨operations, adapters⟩ := Ordering.then_eq_eq.1 (show order a b = .eq from same)
    obtain ⟨operation, adapter⟩ := a
    obtain ⟨operation', adapter'⟩ := b
    rw [show operation = operation' from Std.LawfulEqCmp.eq_of_compare operations,
      show adapter = adapter' from Std.LawfulEqCmp.eq_of_compare adapters]

end CombineSignature

/-- Where a step of a pipe reads an argument from. -/
inductive Source where
  /-- A named input of the enclosing pipe. -/
  | input (name : String)
  /-- The output of a step, counted from 0. -/
  | step (index : Nat)
  /-- A value of the value table. -/
  | value (id : ValueId)
deriving DecidableEq

def Source.text : Source → String
  | input name => "input `" ++ name ++ "`"
  | step index => "step #" ++ toString index
  | value id => "value " ++ id.text

/-- What a step of a pipe runs. -/
inductive StepBody where
  | combine (id : CombineId)
  | pipe (id : PipeId)
deriving DecidableEq

def StepBody.definition : StepBody → DefinitionId
  | combine id => .combine id
  | pipe id => .pipe id

/-- One step of a pipe. A combine binds its arguments by position, a nested pipe by name. -/
structure PipeStep where
  body : StepBody
  args : List (String × Source)
  /-- Names the output of the step; evaluation does not use it. -/
  output : ValueId
deriving DecidableEq

/-- A named input of a pipe. -/
structure PipeInput where
  name : String
  slot : ValueId
deriving DecidableEq

/-- A sequence of steps over named inputs. -/
structure PipeDefinition where
  inputs : List PipeInput
  steps : List PipeStep
deriving DecidableEq

/-- The first input of a name. -/
def PipeDefinition.input? (d : PipeDefinition) (name : String) : Option PipeInput :=
  d.inputs.find? (·.name == name)

/-- The two branches of a cond. -/
inductive Branch where
  | thenBranch
  | elseBranch
deriving DecidableEq

def Branch.name : Branch → String
  | thenBranch => "then"
  | elseBranch => "else"

/-- A choice between two functions by a condition, which is a value or a function. -/
structure CondDefinition where
  condition : Node
  thenBranch : FunctionId
  elseBranch : FunctionId
deriving DecidableEq

end TagFlow
