import Std.Data.ExtTreeMap
import TagFlow.Spec.Error

/-!
# Scoped entries

A scoped entry is a function entry of a spec in which every reference has been followed to what it
stands for. There are two scopes. Outside any pipe a reference sees the entries of the spec; inside
a pipe it sees the inputs of that pipe, its earlier steps and literal entries, but no function: a
step cannot pull another function into an evaluation.

Scoping looks at names only, not at types or at the order of the entries, and it is the only part
of building a graph that can fail on a function entry. The first error found is the one reported:
entries in order, and within an entry the arguments of each combine and the inputs of each pipe
before its steps.
-/

namespace TagFlow

/-- What a name of the spec stands for. -/
inductive Binding where
  | literal (id : ValueId)
  /-- A function and the value that it writes. -/
  | function (id : FunctionId) (returns : ValueId)
deriving DecidableEq

namespace Binding

/-- The node that the name stands for. -/
def node : Binding → Node
  | literal id => .value id
  | function id _ => .function id

/-- The value that an argument bound to the name reads. -/
def output : Binding → ValueId
  | literal id => id
  | function _ returns => returns

end Binding

/-- The names of a spec. -/
abbrev Names := Std.ExtTreeMap String Binding

/-- A named argument whose reference has been followed. -/
structure ScopedArg (α : Type) where
  name : String
  source : α
  adapter : Option String

/-- A step whose references have been followed within its pipe. -/
inductive ScopedStep where
  | combine (operation : String) (first second : ScopedArg Source)
  | pipe (inputs : List (String × Source)) (steps : List ScopedStep)

/-- A function entry whose references have been followed. -/
inductive ScopedFunction where
  | combine (operation : String) (first second : ScopedArg Binding)
  | pipe (inputs : List (String × Binding)) (steps : List ScopedStep)
  | cond (condition : Node) (thenBranch elseBranch : FunctionId)

namespace Names

/-! ### Following one reference -/

/-- Follow a reference outside any pipe. A value reference must lead to a literal and an output
reference to a function; a name reference may lead to either. -/
def resolve? (names : Names) : Target → Option Binding
  | .value name =>
    match names[name]? with
    | some (.literal id) => some (.literal id)
    | _ => none
  | .name name => names[name]?
  | .output name =>
    match names[name]? with
    | some (.function id returns) => some (.function id returns)
    | _ => none
  | .input _ => none
  | .step _ => none

/-- Where a reference inside a pipe stands. -/
structure Site where
  function : String
  step : Nat
  argument : String

def Site.fault (site : Site) (fault : StepFault) : BuildError :=
  .undefinedPipeStep site.function site.step site.argument fault

/-- Follow a reference by name inside a pipe, which may only lead to a literal. -/
def resolveLiteral (names : Names) (site : Site) (target : Target) (name : String) :
    Except BuildError Source :=
  match names[name]?, target with
  | some (.function _ _), _ => .error (site.fault (.functionOutput target))
  | some (.literal _), .output _ => .error (site.fault (.undefined target))
  | some (.literal id), _ => .ok (.value id)
  | none, _ => .error (site.fault (.undefined target))

/-- Follow a reference inside a pipe with these inputs, from the step of the site. -/
def resolveInPipe (names : Names) (inputs : List String) (site : Site) :
    Target → Except BuildError Source
  | .input name =>
    if name ∈ inputs then .ok (.input name)
    else .error (.undefinedPipeArgument site.function site.argument (.input name))
  | .step index =>
    if index < site.step then .ok (.step index)
    else .error (site.fault (.notEarlier index))
  | .value name => names.resolveLiteral site (.value name) name
  | .name name => names.resolveLiteral site (.name name) name
  | .output name => names.resolveLiteral site (.output name) name

/-! ### Following the references of an entry -/

/-- The two arguments of a combine, which must have different names. -/
def twoArguments (function : String) (expr : CombineExpr) :
    Except BuildError ((String × Reference) × (String × Reference)) :=
  match expr.args with
  | [a, b] => if a.1 = b.1 then .error (.duplicateArgument function b.1) else .ok (a, b)
  | args => .error (.wrongArity function args.length)

/-- Follow the references of the inputs of a pipe, whose names must be distinct; `seen` are the
names bound so far. -/
def scopeInputs {α : Type} (function : String) (resolve : String → Target → Except BuildError α) :
    (seen : List String) → List (String × Reference) → Except BuildError (List (String × α))
  | _, [] => .ok []
  | seen, (name, reference) :: rest => do
    if name ∈ seen then
      .error (.duplicateArgument function name)
    else
      let source ← resolve name reference.target
      let rest ← scopeInputs function resolve (name :: seen) rest
      return (name, source) :: rest

mutual

/-- Follow the references of one step, the one with this index, of a pipe with these inputs. -/
def scopeStep (names : Names) (function : String) (inputs : List String) (index : Nat) :
    StepExpr → Except BuildError ScopedStep
  | .combine expr => do
    let (a, b) ← twoArguments function expr
    let first ← names.resolveInPipe inputs ⟨function, index, a.1⟩ a.2.target
    let second ← names.resolveInPipe inputs ⟨function, index, b.1⟩ b.2.target
    return .combine expr.operation ⟨a.1, first, a.2.adapter⟩ ⟨b.1, second, b.2.adapter⟩
  | .pipe bindings steps => do
    let bound ← scopeInputs function
      (fun name target => names.resolveInPipe inputs ⟨function, index, name⟩ target) [] bindings
    let steps ← scopeSteps names function (bound.map (·.1)) 0 steps
    return .pipe bound steps

/-- Follow the references of the steps of a pipe from the one with this index on. -/
def scopeSteps (names : Names) (function : String) (inputs : List String) (index : Nat) :
    List StepExpr → Except BuildError (List ScopedStep)
  | [] => .ok []
  | step :: rest => do
    let step ← scopeStep names function inputs index step
    let rest ← scopeSteps names function inputs (index + 1) rest
    return step :: rest

end

/-- Follow a reference of an argument outside any pipe, or fail with the given error. -/
def resolveOr (names : Names) (target : Target) (error : BuildError) : Except BuildError Binding :=
  match names.resolve? target with
  | some binding => .ok binding
  | none => .error error

/-- The function that a branch of a cond names. -/
def resolveBranch (names : Names) (function : String) (branch : Branch) (target : String) :
    Except BuildError FunctionId :=
  match names[target]? with
  | some (.function id _) => .ok id
  | _ => .error (.undefinedBranch function branch target)

/-- Follow the references of a function entry. -/
def scopeFunction (names : Names) (function : String) :
    FunctionExpr → Except BuildError ScopedFunction
  | .combine expr => do
    let (a, b) ← twoArguments function expr
    let first ← names.resolveOr a.2.target (.undefinedValue function a.1 a.2.target)
    let second ← names.resolveOr b.2.target (.undefinedValue function b.1 b.2.target)
    return .combine expr.operation ⟨a.1, first, a.2.adapter⟩ ⟨b.1, second, b.2.adapter⟩
  | .pipe bindings steps => do
    let bound ← scopeInputs function
      (fun name target => names.resolveOr target (.undefinedPipeArgument function name target))
      [] bindings
    let steps ← scopeSteps names function (bound.map (·.1)) 0 steps
    return .pipe bound steps
  | .cond condition thenBranch elseBranch =>
    match names[condition]? with
    | none => .error (.undefinedCondition function condition)
    | some binding => do
      let thenBranch ← names.resolveBranch function .thenBranch thenBranch
      let elseBranch ← names.resolveBranch function .elseBranch elseBranch
      return .cond binding.node thenBranch elseBranch

end Names

end TagFlow
