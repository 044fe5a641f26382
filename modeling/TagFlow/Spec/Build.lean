import TagFlow.Mint
import TagFlow.Spec.Scoped
import TagFlow.Typing

/-!
# Building a graph from a spec

A spec becomes a graph in two passes. *Registering* gives every literal its row and every function its
identifier and the identifier of its output, so that references may point forward. The second pass goes
through the function entries in the order of the spec: it follows the references of an entry
(`TagFlow.Spec.Scoped`), which may fail, and then *lowers* it, which writes the function and its
definitions to the tables.

What lowering decides is which adapter an argument without an explicit one goes through: the pass adapter
of the type that is known for the argument at that moment. Combine definitions are shared: the builder
remembers, next to the graph, which definition it has created for a signature.
-/

namespace TagFlow

/-- A graph under construction, with the mint of its identifiers. -/
structure Draft where
  mint : Mint
  context : Context

/-- The state of a build. -/
structure Builder extends Draft where
  /-- The combine definition that was created for a signature. -/
  cache : Std.ExtTreeMap CombineSignature CombineId

instance : Coe Builder Draft := ⟨Builder.toDraft⟩

/-- Nothing is built yet. -/
def Builder.new (session : Nat) : Builder := ⟨⟨.new session, .empty⟩, ∅⟩

/-- A graph that was built from a spec. -/
structure Built where
  context : Context
  /-- What the names of the spec stand for. -/
  names : Names
  /-- The mint that issued the identifiers, with what it knows about them. -/
  mint : Mint

namespace Built

/-- Nothing at all. -/
def empty : Built := ⟨.empty, ∅, .new 0⟩

/-- The node of an entry. -/
def node? (built : Built) (name : String) : Option Node := built.names[name]?.map (·.node)

/-- The identifier of a literal entry. -/
def literal? (built : Built) (name : String) : Option ValueId :=
  (built.node? name).bind (·.asValue?)

/-- The identifier of a function entry. -/
def function? (built : Built) (name : String) : Option FunctionId :=
  (built.node? name).bind (·.asFunction?)

/-- What the graph holds for a function entry. -/
def entry? (built : Built) (name : String) : Option FunctionEntry :=
  (built.function? name).bind (built.context.functions[·]?)

/-- The value that a function entry writes. -/
def output? (built : Built) (name : String) : Option ValueId :=
  (built.entry? name).map (·.returns)

/-- The definition that a function entry runs. -/
def definition? (built : Built) (name : String) : Option DefinitionId :=
  (built.entry? name).map (·.definition)

/-- The definition that a step of a pipe entry runs. -/
def stepDefinition? (built : Built) (name : String) (index : Nat) : Option DefinitionId :=
  match built.definition? name with
  | some (.pipe id) =>
    built.context.pipes[id]?.bind fun d => d.steps[index]?.map (·.body.definition)
  | _ => none

/-- The same names for a graph that has been changed. -/
def withContext (built : Built) (c : Context) : Built := { built with context := c }

/-- Every mention of an identifier in the tables of the graph, with its record: rows, functions and
their outputs, definitions, slots, and outputs of steps. -/
def mentions (built : Built) : List (String × Option IdRecord) :=
  let mention {kind : IdKind} (id : Id kind) := (id.text, built.mint.record? id)
  let c := built.context
  c.values.keys.map mention ++
    c.functions.toList.flatMap (fun (id, entry) => [mention id, mention entry.returns]) ++
    c.combines.toList.flatMap (fun (id, d) => mention id :: d.slots.map (mention ·.slot)) ++
    c.pipes.toList.flatMap (fun (id, d) =>
      mention id :: d.inputs.map (mention ·.slot) ++ d.steps.map (mention ·.output)) ++
    c.conds.keys.map mention

/-- The mentions in the order of their texts. -/
def inventory (built : Built) : List (String × Option IdRecord) :=
  built.mentions.mergeSort fun a b => a.1 ≤ b.1

end Built

/-- The graph is complete; what was remembered on the way is dropped. -/
def Builder.finish (builder : Builder) (names : Names) : Built :=
  ⟨builder.context, names, builder.mint⟩

/-- A step of a build. -/
abbrev Lowering := StateM Builder

namespace Lowering

/-! ### The mint -/

/-- Issue an identifier. -/
def issue (kind : IdKind) (label : String) (origin : Origin) : Lowering (Id kind) :=
  modifyGet fun builder =>
    let (id, mint) := builder.mint.issue kind label origin
    (id, { builder with mint })

/-- Record the static type of an identifier where it is known. -/
def recordType? {kind : IdKind} (id : Id kind) (ty : Option BaseType) : Lowering Unit :=
  modify fun builder => { builder with mint := builder.mint.recordType? id ty }

/-- Change the graph. -/
def modifyContext (f : Context → Context) : Lowering Unit :=
  modify fun builder => { builder with context := f builder.context }

/-- Remember the combine definition of a signature. -/
def remember (signature : CombineSignature) (id : CombineId) : Lowering Unit :=
  modify fun builder => { builder with cache := builder.cache.insert signature id }

/-! ### What is known about an argument -/

/-- The type of an argument outside any pipe. -/
def bindingType (draft : Draft) : Binding → Option BaseType
  | .literal id => draft.context.values[id]?.map (·.baseType)
  | .function id _ => draft.context.functionType id

/-- The type of an argument inside a pipe with these inputs and these outputs of earlier steps. -/
def sourceType (draft : Draft) (inputs : List PipeInput) (outputs : List ValueId) :
    Source → Option BaseType
  | .input name => (inputs.find? (·.name == name)).bind fun input => draft.mint.inferred? input.slot
  | .step index => outputs[index]?.bind draft.mint.inferred?
  | .value id => draft.context.values[id]?.map (·.baseType)

/-- The element type of an argument inside a pipe: known for literals only. -/
def sourceElement (draft : Draft) : Source → Option BaseType
  | .value id => draft.context.elementOf? id
  | _ => none

/-- The explicit adapter, or the pass adapter of the type. -/
def adapterFor (explicit : Option String) (ty : Option BaseType) : String :=
  explicit.getD (passAdapter ty)

/-! ### Definitions -/

/-- Find or create the combine definition with this operation and these adapters. -/
def combineDefinition (operation first second : String) : Lowering CombineId := do
  let signature : CombineSignature := ⟨operation, [first, second]⟩
  match (← get).cache[signature]? with
  | some id => return id
  | none =>
    let id ← issue .combine operation .definition
    let slot₁ ← issue .value operation .combineSlot
    let slot₂ ← issue .value operation .combineSlot
    modifyContext (·.insertCombine id ⟨operation, ⟨slot₁, first⟩, ⟨slot₂, second⟩⟩)
    remember signature id
    return id

/-- Create the slot of a named input. -/
def pipeInput (function name : String) (ty : Option BaseType) : Lowering PipeInput := do
  let slot ← issue .value (function ++ "." ++ name) .pipeInput
  recordType? slot ty
  return ⟨name, slot⟩

/-- Create the slots of the inputs of a pipe, given the type of what each is bound to. -/
def pipeInputs (function : String) {α : Type} (typeOf : Draft → α → Option BaseType) :
    List (String × α) → Lowering (List PipeInput)
  | [] => return []
  | (name, source) :: rest => do
    let ty := typeOf (← get).toDraft source
    let input ← pipeInput function name ty
    let rest ← pipeInputs function typeOf rest
    return input :: rest

/-- Create the output of a step. -/
def stepOutput (function : String) (index : Nat) (ty : Option BaseType) : Lowering ValueId := do
  let output ← issue .value (function ++ ".step" ++ toString index) .pipeStep
  recordType? output ty
  return output

/-- Create a pipe definition. -/
def pipeDefinition (function : String) (inputs : List PipeInput) (steps : List PipeStep) :
    Lowering PipeId := do
  let id ← issue .pipe function .definition
  modifyContext (·.insertPipe id ⟨inputs, steps⟩)
  return id

mutual

/-- Lower one step of a pipe with these inputs and these outputs of earlier steps; the last
component is the type of the step's output. -/
def lowerStep (function : String) (inputs : List PipeInput) (outputs : List ValueId) :
    ScopedStep → Lowering (StepBody × List (String × Source) × Option BaseType)
  | .combine operation a b => do
    let draft := (← get).toDraft
    let id ← combineDefinition operation
      (adapterFor a.adapter (sourceType draft inputs outputs a.source))
      (adapterFor b.adapter (sourceType draft inputs outputs b.source))
    return (.combine id, [(a.name, a.source), (b.name, b.source)],
      operationResultType operation (sourceElement draft a.source))
  | .pipe bindings steps => do
    let nested ← pipeInputs function (fun draft => sourceType draft inputs outputs) bindings
    let steps ← lowerSteps function nested [] steps
    let id ← pipeDefinition function nested steps
    return (.pipe id, bindings, (← get).context.definitionType (.pipe id))

/-- Lower the remaining steps of a pipe. -/
def lowerSteps (function : String) (inputs : List PipeInput) (outputs : List ValueId) :
    List ScopedStep → Lowering (List PipeStep)
  | [] => return []
  | step :: rest => do
    let (body, args, ty) ← lowerStep function inputs outputs step
    let output ← stepOutput function outputs.length ty
    let rest ← lowerSteps function inputs (outputs ++ [output]) rest
    return ⟨body, args, output⟩ :: rest

end

/-! ### Function entries -/

/-- Lower the body of a function that writes this value. -/
def lowerFunction (function : String) (returns : ValueId) :
    ScopedFunction → Lowering FunctionEntry
  | .combine operation a b => do
    let draft := (← get).toDraft
    let id ← combineDefinition operation
      (adapterFor a.adapter (bindingType draft a.source))
      (adapterFor b.adapter (bindingType draft b.source))
    return .combine id (.ofList [(a.name, a.source.output), (b.name, b.source.output)]) returns
  | .pipe bindings steps => do
    let inputs ← pipeInputs function bindingType bindings
    let steps ← lowerSteps function inputs [] steps
    let id ← pipeDefinition function inputs steps
    return .pipe id (.ofList (bindings.map fun binding => (binding.1, binding.2.output))) returns
  | .cond condition thenBranch elseBranch => do
    let id ← issue .cond function .definition
    modifyContext (·.insertCond id ⟨condition, thenBranch, elseBranch⟩)
    return .cond id returns

/-- A function entry of a spec, ready to be lowered. -/
structure Pending where
  name : String
  id : FunctionId
  returns : ValueId
  body : ScopedFunction

/-- Lower a function entry into the graph, and record the type that is then known for it. -/
def lowerEntry (entry : Pending) : Lowering Unit := do
  let lowered ← lowerFunction entry.name entry.returns entry.body
  modifyContext (·.insertFunction entry.id lowered)
  let ty := (← get).context.functionType entry.id
  recordType? entry.id ty
  recordType? entry.returns ty

/-! ### Registering names -/

/-- Give a literal its row. -/
def registerLiteral (name : String) (value : Value) : Lowering Binding := do
  let id ← issue .value name .literal
  recordType? id (some value.baseType)
  modifyContext (·.insertValue id value)
  return .literal id

/-- Give a function its identifier and the identifier of its output. -/
def registerFunction (name : String) : Lowering Binding := do
  let id ← issue .function name .function
  let returns ← issue .value name .functionReturn
  return .function id returns

/-- Register the literal entries, in order. -/
def registerLiterals : List (String × SpecEntry) → Lowering (List (String × Binding))
  | [] => return []
  | (name, .literal value) :: rest => do
    let binding ← registerLiteral name value
    let rest ← registerLiterals rest
    return (name, binding) :: rest
  | (_, .function _) :: rest => registerLiterals rest

/-- Register the function entries, in order. -/
def registerFunctions : List (String × SpecEntry) → Lowering (List (String × Binding))
  | [] => return []
  | (_, .literal _) :: rest => registerFunctions rest
  | (name, .function _) :: rest => do
    let binding ← registerFunction name
    let rest ← registerFunctions rest
    return (name, binding) :: rest

/-- Register all entries: literals first. -/
def register (entries : List (String × SpecEntry)) : Lowering Names := do
  let literals ← registerLiterals entries
  let functions ← registerFunctions entries
  return (literals ++ functions).foldl (fun names entry => names.insert entry.1 entry.2) ∅

end Lowering

namespace Spec

/-- The position of the entry with the empty name, if there is one. -/
def unnamed? (spec : Spec) : Option Nat := (Bindings.names spec.entries).findIdx? (· == "")

/-- Lower the function entries, in order: follow the references of each, then write it to the tables. -/
def lower (names : Names) : List (String × SpecEntry) → Builder → Except BuildError Builder
  | [], builder => .ok builder
  | (_, .literal _) :: rest, builder => lower names rest builder
  | (name, .function expr) :: rest, builder =>
    match names[name]? with
    | some (.function id returns) => do
      let body ← names.scopeFunction name expr
      lower names rest ((Lowering.lowerEntry ⟨name, id, returns, body⟩).run builder).2
    | _ => lower names rest builder

/-- Both passes: what the names stand for, and the builder after the last entry. -/
def assemble (spec : Spec) (session : Nat) : Except BuildError (Names × Builder) :=
  match spec.unnamed? with
  | some position => .error (.invalidName position)
  | none => do
    let (names, builder) := (Lowering.register spec.entries).run (.new session)
    let builder ← lower names spec.entries builder
    return (names, builder)

/-- Build the graph of a spec with identifiers of the given session. -/
def build (spec : Spec) (session : Nat) : Except BuildError Built := do
  let (names, builder) ← spec.assemble session
  return builder.finish names

end Spec

end TagFlow
