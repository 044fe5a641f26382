import TagFlow.Operation.Registry
import TagFlow.Typing
import TagFlow.Validation.References

/-!
# Checking a graph

Every check reports all that it finds, and tables are gone through in the order of their
identifiers: first the function table, then outputs written twice, then the combine, pipe and cond
definitions, and last what nothing refers to.

An operation or adapter is known when the registry has it. Types are compared only where both sides
are known without evaluating.
-/

namespace TagFlow.Context

open ValidationError

/-! ### Functions -/

/-- The definition of a function must exist. -/
def checkDefinition (c : Context) (id : FunctionId) (entry : FunctionEntry) :
    List ValidationError :=
  if c.hasDefinition entry.definition then [] else [missingDefinition id entry.definition]

/-- Every argument must resolve. -/
def checkArguments (c : Context) (id : FunctionId) (args : ArgMap) : List ValidationError :=
  args.entries.filterMap fun (name, value) =>
    if c.resolves value then none else some (invalidArgumentReference id name value)

/-- The type of an argument must be the one that the adapter of its slot accepts. -/
def checkArgumentType (c : Context) (id : FunctionId) (name : String) (value : ValueId)
    (slot : CombineSlot) : List ValidationError :=
  match (AdapterSignature.find? slot.adapter).bind (·.input.concrete?), c.valueType value with
  | some expects, some got =>
    if got = expects then [] else [argumentTypeMismatch id name slot.adapter expects got]
  | _, _ => []

/-- A combine takes two arguments, of the types that its adapters accept. -/
def checkCombineUse (c : Context) (id : FunctionId) (definition : CombineId) (args : ArgMap) :
    List ValidationError :=
  match args.entries with
  | [(name₁, value₁), (name₂, value₂)] =>
    match c.combines[definition]? with
    | some d =>
      c.checkArgumentType id name₁ value₁ d.first ++ c.checkArgumentType id name₂ value₂ d.second
    | none => []
  | entries => [combineArity id entries.length]

/-- A pipe takes exactly its inputs as arguments. -/
def checkPipeUse (c : Context) (id : FunctionId) (definition : PipeId) (args : ArgMap) :
    List ValidationError :=
  match c.pipes[definition]? with
  | none => []
  | some d =>
    let missing := (d.inputs.map (·.name)).filter (! args.contains ·)
    let extra := args.names.filter fun name => (d.input? name).isNone
    if missing.isEmpty && extra.isEmpty then [] else [pipeArguments id missing extra]

def checkFunction (c : Context) (id : FunctionId) (entry : FunctionEntry) :
    List ValidationError :=
  c.checkDefinition id entry ++ c.checkArguments id entry.args ++
    match entry with
    | .combine definition args _ => c.checkCombineUse id definition args
    | .pipe definition args _ => c.checkPipeUse id definition args
    | .cond _ _ => []

/-- The functions that write each value, both in the order of their identifiers. -/
def writersByValue (c : Context) : Std.ExtTreeMap ValueId (List FunctionId) :=
  c.functions.toList.foldr
    (fun (id, entry) table => table.insert entry.returns (id :: (table[entry.returns]?).getD []))
    ∅

/-- Every value has at most one writer. -/
def checkWriters (c : Context) : List ValidationError :=
  c.writersByValue.toList.filterMap fun (value, functions) =>
    if functions.length > 1 then some (duplicateReturnId value functions) else none

/-! ### Definitions -/

/-- The operation of a combine definition must be named and known. -/
def checkOperation (registry : Registry) (id : CombineId) (operation : String) :
    List ValidationError :=
  if operation = "" then [missingOperation id]
  else if registry.hasBinary operation then []
  else [unknownOperation id operation]

/-- The adapter of a slot must be named and known, and give what the operation expects there. -/
def checkSlot (registry : Registry) (id : CombineId) (operation : String) (slot : Nat)
    (adapter : String) (expected : OperationSignature → Parameter) : List ValidationError :=
  if adapter = "" then [missingAdapter id slot]
  else if !registry.hasAdapter adapter then [unknownAdapter id slot adapter]
  else
    match (AdapterSignature.find? adapter).bind (·.outputType),
      (OperationSignature.find? operation).bind fun op => (expected op).concrete? with
    | some produces, some expects =>
      if produces = expects then []
      else [adapterOutputMismatch id slot adapter operation produces expects]
    | _, _ => []

def checkCombine (registry : Registry) (id : CombineId) (d : CombineDefinition) :
    List ValidationError :=
  checkOperation registry id d.operation ++
    checkSlot registry id d.operation 0 d.first.adapter (·.first) ++
    checkSlot registry id d.operation 1 d.second.adapter (·.second)

/-- Whether the step with this index can read from a source. -/
def sourceResolves (c : Context) (d : PipeDefinition) (index : Nat) : Source → Bool
  | .input name => (d.input? name).isSome
  | .step earlier => earlier < index
  | .value id => c.resolves id

/-- What a step runs must exist, and its arguments must resolve. -/
def checkStep (c : Context) (id : PipeId) (d : PipeDefinition) (index : Nat) (step : PipeStep) :
    List ValidationError :=
  (if c.hasDefinition step.body.definition then []
    else [missingStepDefinition id index step.body.definition]) ++
  step.args.filterMap fun (name, source) =>
    if c.sourceResolves d index source then none
    else some (invalidStepReference id index name source)

/-- A pipe has steps, and they are in order. -/
def checkPipe (c : Context) (id : PipeId) (d : PipeDefinition) : List ValidationError :=
  (if d.steps.isEmpty then [emptySequence id] else []) ++
    (d.steps.mapIdx fun index step => c.checkStep id d index step).flatten

/-- Whether the condition of a cond can be read. -/
def conditionResolves (c : Context) : Node → Bool
  | .value id => c.resolves id
  | .function id => c.functions.contains id

/-- The branch of a cond must be a function. -/
def checkBranch (c : Context) (id : CondId) (branch : Branch) (function : FunctionId) :
    List ValidationError :=
  if c.functions.contains function then [] else [invalidBranch id branch function]

def checkCond (c : Context) (id : CondId) (d : CondDefinition) : List ValidationError :=
  (if c.conditionResolves d.condition then [] else [invalidCondition id d.condition]) ++
    c.checkBranch id .thenBranch d.thenBranch ++ c.checkBranch id .elseBranch d.elseBranch

/-! ### All checks -/

def validationErrors (c : Context) (registry : Registry) : List ValidationError :=
  c.functions.toList.flatMap (fun (id, entry) => c.checkFunction id entry) ++
    c.checkWriters ++
    c.combines.toList.flatMap (fun (id, d) => checkCombine registry id d) ++
    c.pipes.toList.flatMap (fun (id, d) => c.checkPipe id d) ++
    c.conds.toList.flatMap (fun (id, d) => c.checkCond id d)

/-- Check a graph against a registry. -/
def validate (c : Context) (registry : Registry) : ValidationReport :=
  ⟨c.validationErrors registry, c.referenceWarnings⟩

end TagFlow.Context
