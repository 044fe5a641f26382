import TagFlow.Graph.Definition
import TagFlow.Value.Raw

/-!
# Findings

What validation can find in a graph: errors, which make it invalid, and warnings, which do not.
Every finding has a name and a stable code: `V` and four digits for errors, `W` and four digits for
warnings.
-/

namespace TagFlow

/-- A structural or type problem. -/
inductive ValidationError where
  | missingDefinition (function : FunctionId) (definition : DefinitionId)
  | invalidArgumentReference (function : FunctionId) (argument : String) (value : ValueId)
  | missingOperation (definition : CombineId)
  | unknownOperation (definition : CombineId) (operation : String)
  | missingAdapter (definition : CombineId) (slot : Nat)
  | unknownAdapter (definition : CombineId) (slot : Nat) (adapter : String)
  | emptySequence (definition : PipeId)
  | missingStepDefinition (pipe : PipeId) (step : Nat) (definition : DefinitionId)
  | invalidStepReference (pipe : PipeId) (step : Nat) (argument : String) (source : Source)
  | invalidCondition (definition : CondId) (condition : Node)
  | invalidBranch (definition : CondId) (branch : Branch) (function : FunctionId)
  | adapterOutputMismatch (definition : CombineId) (slot : Nat) (adapter operation : String)
      (produces expects : BaseType)
  | argumentTypeMismatch (function : FunctionId) (argument adapter : String)
      (expects got : BaseType)
  | combineArity (function : FunctionId) (got : Nat)
  | pipeArguments (function : FunctionId) (missing extra : List String)
  | duplicateReturnId (value : ValueId) (functions : List FunctionId)
deriving DecidableEq

namespace ValidationError

/-- The name of the finding. -/
def name : ValidationError → String
  | missingDefinition .. => "MissingDefinition"
  | invalidArgumentReference .. => "InvalidArgumentReference"
  | missingOperation .. => "MissingOperation"
  | unknownOperation .. => "UnknownOperation"
  | missingAdapter .. => "MissingAdapter"
  | unknownAdapter .. => "UnknownAdapter"
  | emptySequence .. => "EmptySequence"
  | missingStepDefinition .. => "MissingStepDefinition"
  | invalidStepReference .. => "InvalidStepReference"
  | invalidCondition .. => "InvalidCondition"
  | invalidBranch .. => "InvalidBranch"
  | adapterOutputMismatch .. => "AdapterOutputMismatch"
  | argumentTypeMismatch .. => "ArgumentTypeMismatch"
  | combineArity .. => "CombineArity"
  | pipeArguments .. => "PipeArguments"
  | duplicateReturnId .. => "DuplicateReturnId"

/-- The stable code. -/
def code : ValidationError → String
  | missingDefinition .. => "V0001"
  | invalidArgumentReference .. => "V0002"
  | missingOperation .. => "V0003"
  | unknownOperation .. => "V0004"
  | missingAdapter .. => "V0005"
  | unknownAdapter .. => "V0006"
  | emptySequence .. => "V0007"
  | missingStepDefinition .. => "V0008"
  | invalidStepReference .. => "V0009"
  | invalidCondition .. => "V0010"
  | invalidBranch .. => "V0011"
  | adapterOutputMismatch .. => "V0012"
  | argumentTypeMismatch .. => "V0013"
  | combineArity .. => "V0014"
  | pipeArguments .. => "V0015"
  | duplicateReturnId .. => "V0016"

/-- A definition with its kind. -/
def describe (definition : DefinitionId) : String :=
  definition.kind.name ++ " " ++ definition.text

def message : ValidationError → String
  | missingDefinition function definition =>
    "function " ++ function.text ++ " references missing " ++ describe definition
  | invalidArgumentReference function argument value =>
    "function " ++ function.text ++ ": argument `" ++ argument ++ "` references unknown value " ++
      value.text
  | missingOperation definition =>
    "combine definition " ++ definition.text ++ " has no operation name"
  | unknownOperation definition operation =>
    "combine definition " ++ definition.text ++ " uses unknown operation `" ++ operation ++ "`"
  | missingAdapter definition slot =>
    "combine definition " ++ definition.text ++ ": slot " ++ toString slot ++ " has no adapter"
  | unknownAdapter definition slot adapter =>
    "combine definition " ++ definition.text ++ ": slot " ++ toString slot ++
      " uses unknown adapter `" ++ adapter ++ "`"
  | emptySequence definition => "pipe definition " ++ definition.text ++ " has no steps"
  | missingStepDefinition pipe step definition =>
    "pipe definition " ++ pipe.text ++ ": step " ++ toString step ++ " references missing " ++
      describe definition
  | invalidStepReference pipe step argument source =>
    "pipe definition " ++ pipe.text ++ ": step " ++ toString step ++ " argument `" ++ argument ++
      "` reads " ++ source.text ++ ", which does not resolve"
  | invalidCondition definition condition =>
    "cond definition " ++ definition.text ++ ": condition " ++ condition.text ++
      " does not resolve"
  | invalidBranch definition branch function =>
    "cond definition " ++ definition.text ++ ": " ++ branch.name ++ " branch " ++ function.text ++
      " is not a function"
  | adapterOutputMismatch definition slot adapter operation produces expects =>
    "combine definition " ++ definition.text ++ ": slot " ++ toString slot ++ " adapter `" ++
      adapter ++ "` produces " ++ produces.name ++ ", but `" ++ operation ++ "` expects " ++
      expects.name
  | argumentTypeMismatch function argument adapter expects got =>
    "function " ++ function.text ++ ": argument `" ++ argument ++ "` is " ++ got.name ++
      ", but adapter `" ++ adapter ++ "` expects " ++ expects.name
  | combineArity function got =>
    "function " ++ function.text ++ ": combine takes exactly 2 arguments, got " ++ toString got
  | pipeArguments function missing extra =>
    "function " ++ function.text ++ ": pipe arguments do not match its inputs (missing: [" ++
      ", ".intercalate missing ++ "], unexpected: [" ++ ", ".intercalate extra ++ "])"
  | duplicateReturnId value functions =>
    "value " ++ value.text ++ " is written by more than one function: " ++
      ", ".intercalate (functions.map (·.text))

end ValidationError

/-- Something suspicious that does not affect validity. -/
inductive ValidationWarning where
  | unreferencedValue (value : ValueId)
  | unreferencedDefinition (definition : DefinitionId)
deriving DecidableEq

namespace ValidationWarning

/-- The name of the finding. -/
def name : ValidationWarning → String
  | unreferencedValue _ => "UnreferencedValue"
  | unreferencedDefinition _ => "UnreferencedDefinition"

/-- The stable code. -/
def code : ValidationWarning → String
  | unreferencedValue _ => "W0001"
  | unreferencedDefinition _ => "W0002"

def message : ValidationWarning → String
  | unreferencedValue value => "value " ++ value.text ++ " is never referenced"
  | unreferencedDefinition definition =>
    ValidationError.describe definition ++ " is never referenced"

end ValidationWarning

/-- Whether a code is that of a warning. -/
def isWarningCode (code : String) : Bool := code.toList.head? == some 'W'

/-- All findings of a validation. -/
structure ValidationReport where
  errors : List ValidationError
  warnings : List ValidationWarning
deriving DecidableEq

namespace ValidationReport

/-- A graph is valid when nothing but warnings was found. -/
def isValid (report : ValidationReport) : Bool := report.errors.isEmpty

/-- The findings as one text: a count, then a line for each finding. -/
def message (report : ValidationReport) : String :=
  "context is invalid: " ++ toString report.errors.length ++ " error(s), " ++
    toString report.warnings.length ++ " warning(s)" ++
    String.join (report.errors.map fun e => "\n  error[" ++ e.code ++ "]: " ++ e.message) ++
    String.join (report.warnings.map fun w => "\n  warning[" ++ w.code ++ "]: " ++ w.message)

end ValidationReport

end TagFlow
