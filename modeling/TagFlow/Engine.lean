import TagFlow.Evaluation.Run
import TagFlow.Operation.Library
import TagFlow.Spec.Build
import TagFlow.Validation.Check

/-!
# Engines

An engine takes a spec all the way: it builds the graph, checks it and evaluates one of its entries.
It carries a registry, and two choices: whether to check before an evaluation, and whether a
warning is as bad as an error.
-/

namespace TagFlow

/-- A registry and the choices of how strictly to check. -/
structure Engine where
  registry : Registry
  /-- Check the graph before evaluating an entry. -/
  validateFirst : Bool
  /-- Treat warnings as errors. -/
  strict : Bool

/-- Why an engine has no result. -/
inductive EngineError where
  | build (e : BuildError)
  | validation (report : ValidationReport)
  | execution (halt : Halt)
  | unknownRoot (name : String)

def EngineError.message : EngineError → String
  | build e => e.message
  | validation report => report.message
  | execution halt => halt.message
  | unknownRoot name => "no spec entry named `" ++ name ++ "`"

namespace Engine

/-- The built-in operations, checking on, warnings allowed. -/
def standard : Engine := ⟨.standard, true, false⟩

/-- All findings about a graph. -/
def validate (engine : Engine) (c : Context) : ValidationReport := c.validate engine.registry

/-- The warnings about a graph without errors; a strict engine accepts no warnings either. -/
def check (engine : Engine) (c : Context) : Except ValidationReport (List ValidationWarning) :=
  let report := engine.validate c
  if !report.isValid then .error report
  else if engine.strict && !report.warnings.isEmpty then .error report
  else .ok report.warnings

/-- Evaluate an entry of a built spec, after checking the graph if the engine does. The scratch
identifiers are of the given session. -/
def evaluate (engine : Engine) (built : Built) (root : String) (session : Nat) :
    Except EngineError Evaluation :=
  match built.node? root with
  | none => .error (.unknownRoot root)
  | some node => do
    if engine.validateFirst then
      match engine.check built.context with
      | .ok _ => pure ()
      | .error report => .error (.validation report)
    match built.context.evaluate engine.registry node session with
    | .ok evaluation => .ok evaluation
    | .error halt => .error (.execution halt)

/-- Build a spec with identifiers of the given session and evaluate an entry, with scratch
identifiers of the session after it. -/
def run (engine : Engine) (session : Nat) (spec : Spec) (root : String) :
    Except EngineError Evaluation :=
  match spec.build session with
  | .ok built => engine.evaluate built root (session + 1)
  | .error e => .error (.build e)

end Engine

end TagFlow
