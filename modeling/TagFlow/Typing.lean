import TagFlow.Graph.Context
import TagFlow.Signature

/-!
# Static types

The base type of what a value, a function or a definition will give, as far as it can be told
without evaluating: a row has the type of its value; a combine has the result type of its
operation; a pipe that of its last step, which may be a pipe itself, but is not followed further;
a cond that of its then-branch. The else-branch is not consulted.

Following conds, and going from a value to its producer, each take one of `maxDepth` levels, so that
inference ends on cyclic graphs too; beyond that the type is not known.
-/

namespace TagFlow.Context

/-- How many levels inference goes down. -/
def maxDepth : Nat := 64

/-- The declared element type of a row. -/
def elementOf? (c : Context) (id : ValueId) : Option BaseType := c.values[id]?.bind (·.element)

/-- The type of a combine whose first argument has this element type. -/
def combineType (c : Context) (id : CombineId) (element : Option BaseType) : Option BaseType :=
  c.combines[id]?.bind fun d => operationResultType d.operation element

/-- The element type that a step passes to its operation: known only where its first argument is
an absolute value. -/
def stepElement (c : Context) (step : PipeStep) : Option BaseType :=
  match step.args with
  | (_, .value id) :: _ => c.elementOf? id
  | _ => none

/-- The type of a pipe, following a last step that is a pipe for so many levels. -/
def pipeType (c : Context) : (levels : Nat) → PipeId → Option BaseType
  | levels, id =>
    match c.pipes[id]?.bind (·.steps.getLast?) with
    | none => none
    | some step =>
      match step.body, levels with
      | .combine combine, _ => c.combineType combine (c.stepElement step)
      | .pipe inner, levels + 1 => c.pipeType levels inner
      | .pipe _, 0 => none

/-- The type of a function, going down at most so many levels. -/
def functionTypeWithin (c : Context) : (levels : Nat) → FunctionId → Option BaseType
  | levels, id =>
    match c.functions[id]? with
    | none => none
    | some (.combine definition args _) =>
      c.combineType definition (args.values.head?.bind c.elementOf?)
    | some (.pipe definition _ _) => c.pipeType 1 definition
    | some (.cond definition _) =>
      match c.conds[definition]?, levels with
      | some d, levels + 1 => c.functionTypeWithin levels d.thenBranch
      | _, _ => none

/-- The type of what a function returns. -/
def functionType (c : Context) (id : FunctionId) : Option BaseType :=
  c.functionTypeWithin maxDepth id

/-- The type of a value: that of its row, or else that of what its producer returns. -/
def valueType (c : Context) (id : ValueId) : Option BaseType :=
  match c.values[id]? with
  | some value => some value.baseType
  | none => (c.producerOf? id).bind (c.functionTypeWithin (maxDepth - 1))

/-- The type of what a definition returns, without regard to its arguments. -/
def definitionType (c : Context) : DefinitionId → Option BaseType
  | .combine id => c.combineType id none
  | .pipe id => c.pipeType 1 id
  | .cond id => c.conds[id]?.bind fun d => c.functionTypeWithin (maxDepth - 1) d.thenBranch

end TagFlow.Context
