import TagFlow.Evaluation.Plan
import TagFlow.Mint
import TagFlow.Operation.Registry

/-!
# Running a plan

The nodes of a plan are run from the leaves up, each function once: one value table is passed along
and gets a row for every function that was run. A cond runs its condition and then one branch, and
returns what the branch returned.

A pipe has a scope of its own: a table with its inputs under their slots, to which each step adds
what it gave, under a *scratch* identifier. An evaluation issues its scratch identifiers itself, in a
session of its own. Steps also see the rows of the table around the pipe. Nothing of the scope but the
output of the last step leaves the pipe.

Operations may panic. An evaluator that *catches panics* turns a panic into an error of the function
that was running; another one stops there.
-/

namespace TagFlow

/-- Counts of what an evaluation did. -/
structure Stats where
  /-- Functions run: combines, pipes and conds, but not steps of pipes. -/
  functionsEvaluated : Nat
  /-- Leaves read from the table. -/
  valuesRead : Nat
  /-- Steps run, those of nested pipes included. -/
  pipeSteps : Nat
deriving DecidableEq

/-- The result of an evaluation. -/
structure Evaluation where
  /-- The value of the root. -/
  value : Value
  /-- The table of the graph with a row for every function that was run. -/
  values : ValueTable
  stats : Stats

/-- What a plan is run against. -/
structure Evaluator where
  context : Context
  registry : Registry
  catchPanics : Bool

/-- Where the scratch identifiers of an evaluation come from. -/
structure Scratch where
  session : Nat
  /-- How many have been issued. -/
  issued : Nat

namespace Scratch

/-- The source of identifiers after so many more have been issued. -/
def skip (scratch : Scratch) (count : Nat) : Scratch :=
  { scratch with issued := scratch.issued + count }

/-- The next identifier, for what the step at an index gives that is run for a function. -/
def next (scratch : Scratch) (function : FunctionId) (index : Nat) : ValueId :=
  let mint : Mint := ⟨scratch.session, scratch.issued, ∅⟩
  (mint.issue .value (function.text ++ ".step" ++ toString index) .scratch).1

end Scratch

/-- How far an evaluation has come. -/
structure Progress where
  /-- The session of the scratch identifiers. -/
  session : Nat
  table : ValueTable
  /-- The functions that were run. -/
  completed : Std.ExtTreeSet FunctionId
  stats : Stats

namespace Progress

def start (session : Nat) (table : ValueTable) : Progress := ⟨session, table, ∅, ⟨0, 0, 0⟩⟩

/-- Each step that has run was issued one identifier. -/
def scratch (p : Progress) : Scratch := ⟨p.session, p.stats.pipeSteps⟩

/-- Count a leaf. -/
def readValue (p : Progress) : Progress :=
  { p with stats := { p.stats with valuesRead := p.stats.valuesRead + 1 } }

/-- Count steps of a pipe. -/
def countSteps (p : Progress) (steps : Nat) : Progress :=
  { p with stats := { p.stats with pipeSteps := p.stats.pipeSteps + steps } }

/-- A function has run and has given this value for this row. -/
def complete (p : Progress) (function : FunctionId) (returns : ValueId) (value : Value) :
    Progress :=
  { session := p.session
    table := p.table.insert returns value
    completed := p.completed.insert function
    stats := { p.stats with functionsEvaluated := p.stats.functionsEvaluated + 1 } }

end Progress

namespace Evaluator

/-- Stop because of an error. -/
def fail {α : Type} (e : ExecError) : Except Halt α := .error (.failed e)

/-- Stop because a function cannot be run. -/
def invalid {α : Type} (function : FunctionId) (fault : NodeFault) : Except Halt α :=
  fail (.invalidNode (.function function) fault)

/-- The row of a table. -/
def readRow (table : ValueTable) (id : ValueId) : Except Halt Value :=
  match table[id]? with
  | some value => .ok value
  | none => fail (.missingValue id)

/-! ### Combines -/

/-- What an operation did, seen from the function that ran it. -/
def charge (m : Evaluator) (function : FunctionId) : Except Fault Value → Except Halt Value
  | .ok value => .ok value
  | .error (.error e) => fail (.functionExecution function e)
  | .error (.panic message) =>
    if m.catchPanics then fail (.functionExecution function (.panicked message))
    else .error (.panicked function message)

/-- Run an operation behind its two adapters. -/
def applyDefinition (registry : Registry) (d : CombineDefinition) (left right : Value) :
    Except Fault Value := do
  let left ← registry.applyAdapter d.first.adapter left
  let right ← registry.applyAdapter d.second.adapter right
  registry.applyBinary d.operation left right

/-- Run a combine definition for a function. -/
def combine (m : Evaluator) (function : FunctionId) (d : CombineDefinition) (left right : Value) :
    Except Halt Value :=
  m.charge function (applyDefinition m.registry d left right)

/-! ### Pipes -/

/-- The scope that a pipe starts with: its inputs by their slots. It must be given exactly the
inputs that it declares. -/
def inputScope (function : FunctionId) (d : PipeDefinition) (inputs : List (String × Value)) :
    Except Halt ValueTable :=
  match inputs.find? fun binding => (d.input? binding.1).isNone with
  | some binding => invalid function (.unknownInput binding.1)
  | none =>
    d.inputs.foldlM (fun (scope : ValueTable) input =>
      match inputs.lookup input.name with
      | some value => .ok (scope.insert input.slot value)
      | none => invalid function (.unboundInput input.name)) ∅

/-- How far a pipe has come. -/
structure PipeProgress where
  /-- The inputs by their slots, and what the steps have given by their scratch identifiers. -/
  scope : ValueTable
  /-- The scratch identifiers of the steps that have run, in order. -/
  outputs : List ValueId
  /-- How many steps have run, those inside nested pipes included. -/
  count : Nat

namespace PipeProgress

def start (scope : ValueTable) : PipeProgress := ⟨scope, [], 0⟩

/-- What the step at an index has given. -/
def output? (s : PipeProgress) (index : Nat) : Option Value :=
  s.outputs[index]?.bind fun id => s.scope[id]?

/-- What the last step has given. -/
def last? (s : PipeProgress) : Option Value := s.outputs.getLast?.bind fun id => s.scope[id]?

/-- A step has given a value, after so many steps inside it. -/
def complete (s : PipeProgress) (id : ValueId) (value : Value) (inside : Nat) : PipeProgress :=
  { scope := s.scope.insert id value
    outputs := s.outputs ++ [id]
    count := s.count + 1 + inside }

end PipeProgress

/-- Read an argument of a step. An absolute value is looked for in the scope first and then in the
table around the pipe. -/
def readSource (function : FunctionId) (d : PipeDefinition) (outer : ValueTable) (s : PipeProgress)
    (source : Source) : Except Halt Value :=
  match source with
  | .input name =>
    match (d.input? name).bind fun input => s.scope[input.slot]? with
    | some value => .ok value
    | none => invalid function (.unboundSource source)
  | .step index =>
    match s.output? index with
    | some value => .ok value
    | none => invalid function (.unboundSource source)
  | .value id =>
    match s.scope[id]? with
    | some value => .ok value
    | none => readRow outer id

/-- Read the arguments of a step, in order. -/
def readArguments (function : FunctionId) (d : PipeDefinition) (outer : ValueTable)
    (s : PipeProgress) (step : PipeStep) : Except Halt (List (String × Value)) :=
  step.args.mapM fun arg => do
    let value ← readSource function d outer s arg.2
    return (arg.1, value)

/-- How to run a nested pipe: from where its scratch identifiers come, and with which inputs. -/
abbrev Nested := Scratch → PipeId → List (String × Value) → Except Halt (Value × Nat)

/-- Run one step, given how to run a nested pipe; the second component counts the steps run inside. -/
def runStep (m : Evaluator) (function : FunctionId) (nested : Nested) (d : PipeDefinition)
    (outer : ValueTable) (scratch : Scratch) (s : PipeProgress) (step : PipeStep) :
    Except Halt (Value × Nat) := do
  let args ← readArguments function d outer s step
  match step.body with
  | .combine id =>
    match m.context.combines[id]? with
    | none => fail (.missingDefinition function (.combine id))
    | some definition =>
      match args with
      | [left, right] => do
        let value ← m.combine function definition left.2 right.2
        return (value, 0)
      | _ => invalid function (.stepArity s.outputs.length args.length)
  | .pipe id => nested (scratch.skip s.count) id args

/-- What a pipe has come to when its next step has given a value. The steps inside have been issued
their identifiers before. -/
def advance (function : FunctionId) (scratch : Scratch) (s : PipeProgress) (value : Value)
    (inside : Nat) : PipeProgress :=
  let id := (scratch.skip (s.count + inside)).next function s.outputs.length
  s.complete id value inside

/-- Run the remaining steps of a pipe. -/
def runSteps (m : Evaluator) (function : FunctionId) (nested : Nested) (d : PipeDefinition)
    (outer : ValueTable) (scratch : Scratch) (s : PipeProgress) :
    List PipeStep → Except Halt PipeProgress
  | [] => .ok s
  | step :: rest => do
    let (value, inside) ← m.runStep function nested d outer scratch s step
    m.runSteps function nested d outer scratch (advance function scratch s value inside) rest

/-- Run a pipe definition for a function, with at most so many definitions inside each other; the
result is the output of its last step and the number of steps run. -/
def runPipe (m : Evaluator) (function : FunctionId) (outer : ValueTable) : (levels : Nat) → Nested
  | 0, _, id, _ => fail (.endlessPipe id)
  | levels + 1, scratch, id, inputs =>
    match m.context.pipes[id]? with
    | none => fail (.missingDefinition function (.pipe id))
    | some d =>
      if d.steps.isEmpty then fail (.emptySequence id)
      else do
        let scope ← inputScope function d inputs
        let s ← m.runSteps function (m.runPipe function outer levels) d outer scratch (.start scope)
          d.steps
        match s.last? with
        | some value => return (value, s.count)
        | none => fail (.emptySequence id)

/-- Definitions that do not run themselves cannot be nested deeper than there are of them. -/
def pipeLevels (c : Context) : Nat := c.pipes.size + 1

/-! ### Nodes -/

/-- The rows of some values, in order. -/
def readRows (table : ValueTable) (ids : List ValueId) : Except Halt (List Value) :=
  ids.mapM (readRow table)

/-- Run a combine or pipe whose arguments have their rows. -/
def runFunction (m : Evaluator) (id : FunctionId) (entry : FunctionEntry) (p : Progress) :
    Except Halt Progress :=
  match entry with
  | .combine definition args returns =>
    match m.context.combines[definition]? with
    | none => fail (.missingDefinition id (.combine definition))
    | some d => do
      let values ← readRows p.table args.values
      match values with
      | [left, right] => do
        let value ← m.combine id d left right
        return p.complete id returns value
      | _ => invalid id (.combineArity values.length)
  | .pipe definition args returns => do
    let values ← readRows p.table args.values
    let (value, steps) ←
      m.runPipe id p.table (pipeLevels m.context) p.scratch definition (args.names.zip values)
    return (p.countSteps steps).complete id returns value
  | .cond _ _ => invalid id .condEntry

mutual

/-- Run a node of a plan. -/
def runTree (m : Evaluator) : Tree → Progress → Except Halt Progress
  | .value id, p =>
    if p.table.contains id then .ok p.readValue else fail (.missingValue id)
  | .function id entry children, p =>
    if p.completed.contains id then .ok p
    else do
      let p ← runTrees m children p
      m.runFunction id entry p
  | .cond id returns condition thenBranch elseBranch, p =>
    if p.completed.contains id then .ok p
    else do
      let p ← runTree m condition p
      let flag ← readRow p.table condition.output
      match flag.asBool? with
      | none => fail (.functionExecution id (.typeMismatch "cond" .boolean flag.baseType))
      | some true => do
        let p ← runTree m thenBranch p
        let value ← readRow p.table thenBranch.output
        return p.complete id returns value
      | some false => do
        let p ← runTree m elseBranch p
        let value ← readRow p.table elseBranch.output
        return p.complete id returns value

/-- Run nodes one after the other. -/
def runTrees (m : Evaluator) : List Tree → Progress → Except Halt Progress
  | [], p => .ok p
  | tree :: rest, p => do
    let p ← runTree m tree p
    runTrees m rest p

end

/-- Run a whole plan on the value table of the graph, with scratch identifiers of a session. -/
def evaluateTree (m : Evaluator) (tree : Tree) (session : Nat) : Except Halt Evaluation := do
  let p ← m.runTree tree (.start session m.context.values)
  let value ← readRow p.table tree.output
  return ⟨value, p.table, p.stats⟩

/-- Plan and run what is below a node. -/
def evaluate (m : Evaluator) (root : Node) (session : Nat) : Except Halt Evaluation :=
  match Plan.build m.context root with
  | .ok plan => m.evaluateTree plan.tree session
  | .error e => fail e

end Evaluator

namespace Context

/-- Evaluate a node of a graph, with scratch identifiers of the given session. A panic of an operation
ends the evaluation. -/
def evaluate (c : Context) (registry : Registry) (root : Node) (session : Nat) :
    Except Halt Evaluation :=
  (Evaluator.mk c registry false).evaluate root session

/-- Evaluate a tree against a graph, with scratch identifiers of the given session. A panic of an operation
ends the evaluation. -/
def evaluateTree (c : Context) (registry : Registry) (tree : Tree) (session : Nat) :
    Except Halt Evaluation :=
  (Evaluator.mk c registry false).evaluateTree tree session

end Context

/-! ### Evaluation that never panics -/

/-- The outcome of an evaluation that catches panics: a value and the extended table, or an error
and the table as it was. -/
structure SafeEvaluation where
  value : Option Value
  values : ValueTable
  errors : List ExecError

namespace SafeEvaluation

def isOk (outcome : SafeEvaluation) : Bool := outcome.errors.isEmpty

end SafeEvaluation

namespace Context

/-- What is made of a panic that escaped the evaluator: it is charged to the function behind the root.
A root with no producer is an invalid node. -/
def escapedPanic (c : Context) (root : Node) (message : String) : ExecError :=
  let behind := match root with
    | .function id => some id
    | .value id => c.producerOf? id
  match behind with
  | some function => .functionExecution function (.panicked message)
  | none => .invalidNode root (.panicked message)

/-- Evaluate a node of a graph, with scratch identifiers of the given session. A panic of an operation is an
error of the function that ran it. -/
def evaluateSafe (c : Context) (registry : Registry) (root : Node) (session : Nat) :
    SafeEvaluation :=
  match (Evaluator.mk c registry true).evaluate root session with
  | .ok evaluation => ⟨some evaluation.value, evaluation.values, []⟩
  | .error (.failed e) => ⟨none, c.values, [e]⟩
  | .error (.panicked _ message) => ⟨none, c.values, [c.escapedPanic root message]⟩

end Context

end TagFlow
