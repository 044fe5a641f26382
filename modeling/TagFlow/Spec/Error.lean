import TagFlow.Graph.Definition
import TagFlow.Spec.Basic

/-!
# Why a spec does not build

Each error but one names the function entry it was found in.
-/

namespace TagFlow

/-- Why a reference inside a pipe leads nowhere. -/
inductive StepFault where
  /-- The step is not an earlier one of the same pipe. -/
  | notEarlier (index : Nat)
  /-- The output of a function, which steps cannot see. -/
  | functionOutput (target : Target)
  | undefined (target : Target)
deriving DecidableEq

namespace StepFault

def text : StepFault → String
  | notEarlier index => "step #" ++ toString index ++ ", which is not an earlier step"
  | functionOutput target =>
    target.text ++ ", but function outputs are not visible inside a pipe"
  | undefined target => "undefined " ++ target.text

end StepFault

/-- The first thing that is wrong with a spec. -/
inductive BuildError where
  | undefinedCondition (function target : String)
  | undefinedBranch (function : String) (branch : Branch) (target : String)
  | undefinedValue (function argument : String) (target : Target)
  | undefinedPipeArgument (function argument : String) (target : Target)
  | undefinedPipeStep (function : String) (step : Nat) (argument : String) (fault : StepFault)
  | wrongArity (function : String) (got : Nat)
  | duplicateArgument (function argument : String)
  /-- The entry at this position, counted from 0, has the empty name. -/
  | invalidName (position : Nat)
deriving DecidableEq

namespace BuildError

/-- The name of the kind of error. -/
def name : BuildError → String
  | undefinedCondition .. => "UndefinedCondition"
  | undefinedBranch .. => "UndefinedBranch"
  | undefinedValue .. => "UndefinedValue"
  | undefinedPipeArgument .. => "UndefinedPipeArgument"
  | undefinedPipeStep .. => "UndefinedPipeStep"
  | wrongArity .. => "WrongArity"
  | duplicateArgument .. => "DuplicateArgument"
  | invalidName .. => "InvalidName"

def message : BuildError → String
  | undefinedCondition function target =>
    "cond `" ++ function ++ "`: condition `" ++ target ++ "` is not a value or function"
  | undefinedBranch function branch target =>
    "cond `" ++ function ++ "`: " ++ branch.name ++ " branch `" ++ target ++ "` is not a function"
  | undefinedValue function argument target =>
    "`" ++ function ++ "`: argument `" ++ argument ++ "` references undefined " ++ target.text
  | undefinedPipeArgument function argument target =>
    "pipe `" ++ function ++ "`: argument `" ++ argument ++ "` references undefined " ++ target.text
  | undefinedPipeStep function step argument fault =>
    "pipe `" ++ function ++ "`: step " ++ toString step ++ " argument `" ++ argument ++
      "` references " ++ fault.text
  | wrongArity function got =>
    "`" ++ function ++ "`: combine takes exactly 2 arguments, got " ++ toString got
  | duplicateArgument function argument =>
    "`" ++ function ++ "`: argument `" ++ argument ++ "` is bound twice"
  | invalidName position => "spec entry #" ++ toString position ++ " has an empty name"

/-- The function entry that the error was found in. -/
def function? : BuildError → Option String
  | undefinedCondition function _ => some function
  | undefinedBranch function _ _ => some function
  | undefinedValue function _ _ => some function
  | undefinedPipeArgument function _ _ => some function
  | undefinedPipeStep function _ _ _ => some function
  | wrongArity function _ => some function
  | duplicateArgument function _ => some function
  | invalidName _ => none

end BuildError

end TagFlow
