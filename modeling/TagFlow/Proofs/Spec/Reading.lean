import TagFlow.Operation.Registry
import TagFlow.Spec.Basic

/-!
# What a spec means

The plainest reading of a spec, without identifiers and without a graph: a literal is its value; a
combine is its operation on what its references mean, behind the adapters that they ask for and no
others; a pipe is its last step, read in an environment with nothing but its inputs, the outputs of
its earlier steps and the literals of the spec; a cond is the branch that its condition selects.

Entries may refer to each other in a circle. Then nothing is meant: hence the `Option` below the
reasons to stop.
-/

namespace TagFlow

/-- Why the reading of a spec stops. All name the function entry that was being read. -/
inductive SpecHalt where
  /-- An operation or an adapter failed, or the condition of a cond was no truth value. -/
  | operation (function : String) (fault : Fault)
  /-- A pipe has no steps. -/
  | emptyPipe (function : String)
  /-- A combine does not have two arguments. -/
  | wrongArity (function : String)
  /-- A reference does not lead to anything that may be read there. -/
  | dangling (function : String) (target : Target)
  /-- There is no such entry. -/
  | unnamed (function : String)

/-- A result or a reason to stop; nothing at all if the reading does not end. -/
abbrev Reading := ExceptT SpecHalt Option

namespace Spec

/-! ### Combines -/

/-- A value behind the adapter that a reference asks for; as it is, where it asks for none. -/
def adapt (registry : Registry) (reference : Reference) (value : Value) : Except Fault Value :=
  match reference.adapter with
  | some name => registry.applyAdapter name value
  | none => .ok value

/-- The operation of a combine on two values, behind the adapters that its references ask for. -/
def operate (registry : Registry) (operation : String) (first second : Reference)
    (left right : Value) : Except Fault Value := do
  let left ← adapt registry first left
  let right ← adapt registry second right
  registry.applyBinary operation left right

/-- What a combine makes of the values of its arguments. -/
def combine (registry : Registry) (function : String) (expr : CombineExpr) (values : List Value) :
    Reading Value :=
  match expr.args, values with
  | [a, b], [left, right] =>
    match operate registry expr.operation a.2 b.2 left right with
    | .ok value => return value
    | .error fault => throw (.operation function fault)
  | _, _ => throw (.wrongArity function)

/-! ### Pipes -/

/-- What a reference inside of a pipe reads: an input, the output of an earlier step, or a literal. -/
def look? (spec : Spec) (inputs : List (String × Value)) (outputs : List Value) :
    Target → Option Value
  | .input name => inputs.lookup name
  | .step index => outputs[index]?
  | .value name | .name name =>
    match spec.get? name with
    | some (.literal value) => some value
    | _ => none
  | .output _ => none

/-- What the references of some arguments inside of a pipe read, in order. -/
def readArguments (spec : Spec) (function : String) (inputs : List (String × Value))
    (outputs : List Value) (args : List (String × Reference)) : Reading (List Value) :=
  args.mapM fun arg =>
    match spec.look? inputs outputs arg.2.target with
    | some value => return value
    | none => throw (.dangling function arg.2.target)

/-- What a pipe gives: the output of its last step. -/
def lastOutput (function : String) (outputs : List Value) : Reading Value :=
  match outputs.getLast? with
  | some value => return value
  | none => throw (.emptyPipe function)

mutual

/-- What a step gives, in a pipe with these inputs and these outputs of earlier steps. Adapters on
the inputs of a nested pipe have no effect. -/
def denoteStep (spec : Spec) (registry : Registry) (function : String)
    (inputs : List (String × Value)) (outputs : List Value) : StepExpr → Reading Value
  | .combine expr => do
    let values ← spec.readArguments function inputs outputs expr.args
    combine registry function expr values
  | .pipe bindings steps => do
    let values ← spec.readArguments function inputs outputs bindings
    let outputs ←
      denoteSteps spec registry function ((Bindings.names bindings).zip values) [] steps
    lastOutput function outputs

/-- The outputs of all steps, after these of the steps before. -/
def denoteSteps (spec : Spec) (registry : Registry) (function : String)
    (inputs : List (String × Value)) (outputs : List Value) : List StepExpr → Reading (List Value)
  | [] => return outputs
  | step :: rest => do
    let value ← denoteStep spec registry function inputs outputs step
    denoteSteps spec registry function inputs (outputs ++ [value]) rest

end

/-! ### Entries -/

/-- The entry that a reference outside of any pipe leads to. -/
def entryOf? (spec : Spec) : Target → Option String
  | .value name =>
    match spec.get? name with
    | some (.literal _) => some name
    | _ => none
  | .name name => some name
  | .output name =>
    match spec.get? name with
    | some (.function _) => some name
    | _ => none
  | .input _ => none
  | .step _ => none

mutual

/-- What an entry of the spec means. -/
def denote (spec : Spec) (registry : Registry) (name : String) : Reading Value :=
  match spec.get? name with
  | none => throw (.unnamed name)
  | some (.literal value) => return value
  | some (.function (.combine expr)) => do
    let values ← spec |>.denoteArguments registry name expr.args
    combine registry name expr values
  | some (.function (.pipe bindings steps)) => do
    let values ← spec |>.denoteArguments registry name bindings
    let outputs ← spec.denoteSteps registry name ((Bindings.names bindings).zip values) [] steps
    lastOutput name outputs
  | some (.function (.cond condition thenBranch elseBranch)) => do
    let flag ← spec |>.denote registry condition
    match flag.asBool? with
    | none => throw (.operation name (.error (.typeMismatch "cond" .boolean flag.baseType)))
    | some true => spec |>.denote registry thenBranch
    | some false => spec |>.denote registry elseBranch
partial_fixpoint

/-- What the references of the arguments of an entry mean, in order. -/
def denoteArguments (spec : Spec) (registry : Registry) (name : String)
    (args : List (String × Reference)) : Reading (List Value) :=
  args.mapM fun arg =>
    match spec.entryOf? arg.2.target with
    | some entry => spec |>.denote registry entry
    | none => throw (.dangling name arg.2.target)
partial_fixpoint

end

end Spec

end TagFlow
