import TagFlow.Graph.Definition
import TagFlow.Graph.Entry
import TagFlow.Operation.Error

/-!
# Why an evaluation ends without a value

Planning or running stops at the first failure. A failure of an operation is charged to the
function that was running it; all other failures are structural, and a validated graph has few of
them.
-/

namespace TagFlow

/-- What is wrong with a node that cannot be run. -/
inductive NodeFault where
  | combineArity (found : Nat)
  | stepArity (index found : Nat)
  /-- A cond entry where a combine or a pipe belongs. -/
  | condEntry
  | unknownInput (name : String)
  | unboundInput (name : String)
  | unboundSource (source : Source)
  /-- Evaluating the node panicked, and there is no function to charge. -/
  | panicked (message : String)
deriving DecidableEq

namespace NodeFault

def message : NodeFault → String
  | combineArity found => "combine takes 2 arguments, found " ++ toString found
  | stepArity index found =>
    "step #" ++ toString index ++ " takes 2 arguments, found " ++ toString found
  | condEntry => "cond entry outside a cond node"
  | unknownInput name => "pipe has no input named `" ++ name ++ "`"
  | unboundInput name => "pipe input `" ++ name ++ "` is not bound"
  | unboundSource source => source.text ++ " is not bound in this pipe"
  | panicked message => "evaluation panicked: " ++ message

end NodeFault

/-- The first failure of planning or running. -/
inductive ExecError where
  | missingDependency (node : Node)
  | missingDefinition (function : FunctionId) (definition : DefinitionId)
  | functionExecution (function : FunctionId) (cause : OpError)
  | emptySequence (definition : PipeId)
  | missingValue (value : ValueId)
  | invalidNode (node : Node) (fault : NodeFault)
  /-- The nodes of a cycle in order; the last is the first. -/
  | cycle (path : List Node)
  /-- A pipe definition that runs itself, so that running it would never end. -/
  | endlessPipe (definition : PipeId)

namespace ExecError

/-- The name of the kind of error. -/
def name : ExecError → String
  | missingDependency .. => "MissingDependency"
  | missingDefinition .. => "MissingDefinition"
  | functionExecution .. => "FunctionExecution"
  | emptySequence .. => "EmptySequence"
  | missingValue .. => "MissingValue"
  | invalidNode .. => "InvalidTreeNode"
  | cycle .. => "CycleDetected"
  | endlessPipe .. => "EndlessPipe"

def message : ExecError → String
  | missingDependency node => node.text ++ " is not in the function table"
  | missingDefinition function definition =>
    "function " ++ function.text ++ " references missing " ++ definition.kind.name ++ " " ++
      definition.text
  | functionExecution function cause => "function " ++ function.text ++ " failed: " ++ cause.message
  | emptySequence definition => "pipe definition " ++ definition.text ++ " has no steps"
  | missingValue value => "value " ++ value.text ++ " is not in the value table"
  | invalidNode node fault => "invalid node " ++ node.text ++ ": " ++ fault.message
  | cycle path => "cycle detected: " ++ " -> ".intercalate (path.map (·.text))
  | endlessPipe definition => "pipe definition " ++ definition.text ++ " runs itself"

end ExecError

/-- How an evaluation can stop: with an error, or because an operation panicked while a function
was running it. -/
inductive Halt where
  | failed (e : ExecError)
  | panicked (function : FunctionId) (message : String)

/-- The wording of the error, or of the panic. -/
def Halt.message : Halt → String
  | failed e => e.message
  | panicked _ message => message

end TagFlow
