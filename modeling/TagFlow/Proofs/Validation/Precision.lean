import TagFlow.Proofs.Evaluation.Cycles
import TagFlow.Proofs.Operation.Signature
import TagFlow.Proofs.Spec.Defaults

/-!
# What is reported fails

Validating a graph that was built from a spec, against the standard registry, reports no use that
would work (`Spec.reported_functions_fail`). Whatever is found about a definition makes it *barren*:
it gives no value, and so gives none to any pipe that runs it, nor to any function that runs the pipe
(`Evaluator.barren_of_involves`).

The type of an argument is another matter. It is inferred, and for a cond it is inferred from the first
branch; where the second branch is of another type and is taken, the use may work although it is
reported (`Spec.mixed_reported_function_succeeds`). So this finding is right if the function that gives
the argument, through the branches that conds take, is inferred to be of another type than the one that is
expected, and arrays have the element types that they declare.
-/

namespace TagFlow

/-- A parameter of one type accepts just that. -/
theorem Parameter.eq_of_accepts (parameter : Parameter) {expects ty : BaseType}
    (concrete : parameter.concrete? = some expects) (accepts : parameter.accepts ty = true) :
    ty = expects := by
  cases parameter with
  | any => cases concrete
  | type expected =>
    cases concrete
    exact (beq_iff_eq.1 accepts).symm

namespace ValidationError

/-- The functions that the error is about. -/
def functions : ValidationError → List FunctionId
  | missingDefinition function _ => [function]
  | invalidArgumentReference function _ _ => [function]
  | argumentTypeMismatch function _ _ _ _ => [function]
  | combineArity function _ => [function]
  | pipeArguments function _ _ => [function]
  | duplicateReturnId _ functions => functions
  | _ => []

/-- The definition that the error is about. -/
def definition? : ValidationError → Option DefinitionId
  | missingOperation definition => some (.combine definition)
  | unknownOperation definition _ => some (.combine definition)
  | missingAdapter definition _ => some (.combine definition)
  | unknownAdapter definition _ _ => some (.combine definition)
  | adapterOutputMismatch definition _ _ _ _ _ => some (.combine definition)
  | emptySequence definition => some (.pipe definition)
  | missingStepDefinition definition _ _ => some (.pipe definition)
  | invalidStepReference definition _ _ _ => some (.pipe definition)
  | invalidCondition definition _ => some (.cond definition)
  | invalidBranch definition _ _ => some (.cond definition)
  | _ => none

end ValidationError

namespace Context

/-- The error is about the function, or about a definition that the function runs, itself or through
the steps of pipes. -/
def Concerns (c : Context) (e : ValidationError) (function : FunctionId) : Prop :=
  function ∈ e.functions ∨ ∃ entry definition, c.functions[function]? = some entry ∧
    e.definition? = some definition ∧ c.Involves entry.definition definition

end Context

namespace Evaluator

variable {m : Evaluator} {function giver : FunctionId} {ty expects : BaseType}

/-! ### Definitions that give nothing -/

/-- Running the definition gives no value, whatever it is given. -/
def Barren (m : Evaluator) : DefinitionId → Prop
  | .combine id => ∀ function arity values value, m.denoteCombine function id arity values ≠ .ok value
  | .pipe id => ∀ function inputs value, (m.denotePipe function id inputs).run ≠ some (.ok value)
  | .cond _ => False

/-- Every step of a pipe that gave a value has given one. -/
theorem exists_denoteStep {inputs : List (String × Value)} : ∀ {steps : List PipeStep}
    {outputs results : List Value},
    (m.denoteSteps function inputs outputs steps).run = some (.ok results) → ∀ step ∈ steps,
      ∃ before value, (m.denoteStep function inputs before step).run = some (.ok value)
  | [], _, _, _, step, isStep => nomatch isStep
  | first :: rest, outputs, results, run, step, isStep => by
    rw [denoteSteps_cons] at run
    obtain ⟨value, here, run⟩ := Meaning.of_run_bind_ok run
    rcases List.mem_cons.1 isStep with rfl | isStep
    · exact ⟨outputs, value, here⟩
    · exact exists_denoteStep run step isStep

theorem not_barren_of_denoteStep {inputs : List (String × Value)} {outputs : List Value}
    {step : PipeStep} {value : Value}
    (run : (m.denoteStep function inputs outputs step).run = some (.ok value)) :
    ¬ m.Barren step.body.definition := by
  intro barren
  cases body : step.body with
  | combine id =>
    rw [body] at barren
    unfold denoteStep at run
    obtain ⟨args, -, run⟩ := Meaning.of_run_bind_ok run
    rw [body] at run
    exact barren _ _ _ value (Option.some.inj run)
  | pipe id =>
    rw [body] at barren
    obtain ⟨args, -, run⟩ := denoteStep_pipe_ok body run
    exact barren _ _ value run

/-- A pipe with a step that gives no value gives none itself. -/
theorem barren_of_runs {outer inner : DefinitionId} (runs : m.context.Runs outer inner)
    (barren : m.Barren inner) : m.Barren outer := by
  obtain ⟨id, d, rfl, known, listed⟩ := runs
  obtain ⟨step, isStep, rfl⟩ := List.mem_map.1 listed
  intro function inputs value run
  rw [denotePipe, known] at run
  dsimp only at run
  rw [if_neg (by simpa using List.ne_nil_of_mem isStep)] at run
  obtain ⟨_, -, run⟩ := Meaning.of_run_bind_ok run
  obtain ⟨outputs, ran, -⟩ := Meaning.of_run_bind_ok run
  obtain ⟨before, value, ran⟩ := exists_denoteStep ran step isStep
  exact not_barren_of_denoteStep ran barren

theorem barren_of_involves {outer inner : DefinitionId} (involves : m.context.Involves outer inner)
    (barren : m.Barren inner) : m.Barren outer := by
  induction involves using Relation.ReflTransGen.head_induction_on with
  | refl => exact barren
  | head runs _ ih => exact barren_of_runs runs ih

theorem barren_of_empty {id : PipeId} {d : PipeDefinition} (known : m.context.pipes[id]? = some d)
    (empty : d.steps = []) : m.Barren (.pipe id) := by
  intro function inputs value run
  rw [denotePipe, known] at run
  simp only [empty, List.isEmpty_nil, if_true] at run
  cases run

/-- A function that runs a barren definition means no value. -/
theorem denote_ne_ok {entry : FunctionEntry} (known : m.context.functions[function]? = some entry)
    (barren : m.Barren entry.definition) (value : Value) :
    (m.denote (.function function)).run ≠ some (.ok value) := by
  intro run
  cases entry with
  | cond definition returns => exact barren
  | combine definition args returns =>
    rw [denote_function known (by simp [FunctionEntry.kind])] at run
    obtain ⟨values, -, run⟩ := Meaning.of_run_bind_ok run
    exact barren _ _ _ value (Option.some.inj run)
  | pipe definition args returns =>
    rw [denote_function known (by simp [FunctionEntry.kind])] at run
    obtain ⟨values, -, run⟩ := Meaning.of_run_bind_ok run
    exact barren _ _ value run

/-! ### Combine definitions -/

/-- What a combine went through that gave a value: each argument was accepted by the adapter of its
slot, and what the adapter gave by the operation. -/
theorem accepts_of_combine (standard : m.registry = .standard) {d : CombineDefinition}
    {left right value : Value} (run : m.combine function d left right = .ok value) :
    ∃ operation, m.registry.hasBinary d.operation = true ∧
      OperationSignature.find? d.operation = some operation ∧
      ∀ {index : Nat} {slot : CombineSlot} {argument : Value}, d.slots[index]? = some slot →
        [left, right][index]? = some argument → m.registry.hasAdapter slot.adapter = true ∧
        ∃ adapter, AdapterSignature.find? slot.adapter = some adapter ∧
          adapter.input.accepts argument.baseType = true ∧
          ∀ produces parameter, adapter.outputType = some produces →
            operation.parameters[index]? = some parameter → parameter.accepts produces = true := by
  obtain ⟨first, second, adapted, adapted', applied⟩ := combine_eq_ok run
  have known := Registry.hasBinary_of_applyBinary applied
  have knownFirst := Registry.hasAdapter_of_applyAdapter adapted
  have knownSecond := Registry.hasAdapter_of_applyAdapter adapted'
  rw [standard] at adapted adapted' applied
  obtain ⟨operation, isOperation, acceptsFirst, acceptsSecond, -⟩ :=
    Registry.gives_of_applyBinary applied
  refine ⟨operation, known, isOperation, fun {index slot argument} here isArgument => ?_⟩
  match index with
  | 0 =>
    cases here
    cases isArgument
    obtain ⟨adapter, isAdapter, accepts, gives⟩ := Registry.gives_of_applyAdapter adapted
    refine ⟨knownFirst, adapter, isAdapter, accepts, fun produces parameter isOutput isParameter => ?_⟩
    cases isParameter
    exact gives produces isOutput ▸ acceptsFirst
  | 1 =>
    cases here
    cases isArgument
    obtain ⟨adapter, isAdapter, accepts, gives⟩ := Registry.gives_of_applyAdapter adapted'
    refine ⟨knownSecond, adapter, isAdapter, accepts, fun produces parameter isOutput isParameter => ?_⟩
    cases isParameter
    exact gives produces isOutput ▸ acceptsSecond
  | index + 2 => cases here

theorem barren_of_combine {id : CombineId} {d : CombineDefinition}
    (known : m.context.combines[id]? = some d)
    (never : ∀ function left right value, m.combine function d left right ≠ .ok value) :
    m.Barren (.combine id) := by
  intro function arity values value run
  obtain ⟨d', left, right, known', -, applied⟩ := denoteCombine_eq_ok run
  cases known.symm.trans known'
  exact never function left right value applied

/-- A definition about which something was found gives no value. -/
theorem barren_of_finding (standard : m.registry = .standard) {e : ValidationError}
    (finding : m.context.Finding m.registry e) {definition : DefinitionId}
    (about : e.definition? = some definition) : m.Barren definition := by
  -- each slot has an argument
  have argument : ∀ {d : CombineDefinition} {index : Nat} {slot : CombineSlot} (left right : Value),
      d.slots[index]? = some slot → ∃ argument, [left, right][index]? = some argument := by
    intro d index slot left right here
    match index with
    | 0 => exact ⟨left, rfl⟩
    | 1 => exact ⟨right, rfl⟩
    | index + 2 => cases here
  cases finding with
  | @missingOperation id d known unnamed =>
    cases about
    refine barren_of_combine known fun function left right value run => ?_
    obtain ⟨operation, -, isOperation, -⟩ := accepts_of_combine standard run
    rw [unnamed] at isOperation
    cases isOperation
  | @unknownOperation id d known unknown =>
    cases about
    refine barren_of_combine known fun function left right value run => ?_
    obtain ⟨operation, isKnown, -⟩ := accepts_of_combine standard run
    simp [unknown] at isKnown
  | @missingAdapter id d index slot known here unnamed =>
    cases about
    refine barren_of_combine known fun function left right value run => ?_
    obtain ⟨operation, -, -, slots⟩ := accepts_of_combine standard run
    obtain ⟨given, isArgument⟩ := argument left right here
    obtain ⟨-, adapter, isAdapter, -⟩ := slots here isArgument
    rw [unnamed] at isAdapter
    cases isAdapter
  | @unknownAdapter id d index slot known here unknown =>
    cases about
    refine barren_of_combine known fun function left right value run => ?_
    obtain ⟨operation, -, -, slots⟩ := accepts_of_combine standard run
    obtain ⟨given, isArgument⟩ := argument left right here
    obtain ⟨isKnown, -⟩ := slots here isArgument
    simp [unknown] at isKnown
  | @adapterOutput id d produces expects index slot adapter operation parameter known here isAdapter
      isOperation isParameter isOutput concrete different =>
    cases about
    refine barren_of_combine known fun function left right value run => ?_
    obtain ⟨operation', -, isOperation', slots⟩ := accepts_of_combine standard run
    cases isOperation.symm.trans isOperation'
    obtain ⟨given, isArgument⟩ := argument left right here
    obtain ⟨-, adapter', isAdapter', -, accepts⟩ := slots here isArgument
    cases isAdapter.symm.trans isAdapter'
    exact different (parameter.eq_of_accepts concrete (accepts _ _ isOutput isParameter))
  | @emptyPipe id d known empty =>
    cases about
    exact barren_of_empty known empty
  | argumentType => cases about

/-! ### Arguments -/

/-- The second function gives the value of the first: a cond gives what the branch gives that its condition
selects, and any other function what it computes itself. -/
inductive Gives (m : Evaluator) : FunctionId → FunctionId → Prop
  | self {function entry} : m.context.functions[function]? = some entry → entry.kind ≠ .cond →
      Gives m function function
  | branch {function definition returns d flag choice giver} :
      m.context.functions[function]? = some (.cond definition returns) →
      m.context.conds[definition]? = some d → (m.denote d.condition).run = some (.ok flag) →
      flag.asBool? = some choice → Gives m (if choice then d.thenBranch else d.elseBranch) giver →
      Gives m function giver

/-- If a function gives the value, it is inferred to give values of another type. -/
def OfOtherType (m : Evaluator) (value : ValueId) (expects : BaseType) : Prop :=
  ∀ producer giver, m.context.producerOf? value = some producer → m.Gives producer giver →
    ∃ ty, m.context.functionType giver = some ty ∧ ty ≠ expects

/-- Where the branches of conds agree, what gives the value of a function has the type of the function. -/
theorem Gives.functionType (gives : m.Gives function giver) (branches : m.context.BranchesAgree) :
    m.context.functionType function = some ty → m.context.functionType giver = some ty := by
  induction gives with
  | self => exact id
  | @branch function definition returns d flag choice giver known found _ _ _ ih =>
    intro typed
    -- the branch is typed with one level less than the cond
    unfold Context.functionType Context.functionTypeWithin at typed
    rw [known] at typed
    simp only [Context.maxDepth, found] at typed
    have typed : m.context.functionType d.thenBranch = some ty :=
      Context.functionTypeWithin_mono (.refl _) _ _ _ (Nat.sub_le _ 1) typed
    apply ih
    cases choice with
    | true => exact typed
    | false => exact branches _ _ found ty typed

/-- Where the branches of conds agree, a value that is inferred to be of another type is given by a function
of that type. -/
theorem ofOtherType_of_branchesAgree {value : ValueId} (branches : m.context.BranchesAgree)
    (noRow : m.context.values[value]? = none) (typed : m.context.valueType value = some ty)
    (different : ty ≠ expects) : m.OfOtherType value expects := by
  intro producer giver produced gives
  refine ⟨ty, gives.functionType branches ?_, different⟩
  unfold Context.valueType at typed
  rw [noRow] at typed
  simp only [produced, Option.bind_some] at typed
  exact Context.functionTypeWithin_mono (.refl _) _ _ _ (Nat.sub_le _ 1) typed

/-- A function that means a value gives that of another, which is not a cond. -/
theorem exists_giver {tree : Tree} (unfolds : tree.Unfolds m.context) :
    ∀ {function : FunctionId} {value : Value}, tree.node = .function function →
      (m.denote (.function function)).run = some (.ok value) →
      ∃ giver entry, m.Gives function giver ∧ m.context.functions[giver]? = some entry ∧
        entry.kind ≠ .cond ∧ (m.denote (.function giver)).run = some (.ok value) := by
  induction unfolds with
  | value => exact fun here => nomatch here
  | @function id entry children known isArgs _ _ _ =>
    intro function value here run
    cases here
    exact ⟨id, entry, .self known isArgs, known, isArgs, run⟩
  | @cond id definition returns d condition thenBranch elseBranch known found _ thenNode elseNode _ _ _
      _ ihThen ihElse =>
    intro function value here run
    cases here
    rw [denote_cond known found] at run
    obtain ⟨flag, means, run⟩ := Meaning.of_run_bind_ok run
    unfold denoteChoice at run
    split at run
    · cases run
    · next choose =>
      obtain ⟨giver, entry, gives, rest⟩ := ihThen thenNode run
      exact ⟨giver, entry, .branch known found means choose gives, rest⟩
    · next choose =>
      obtain ⟨giver, entry, gives, rest⟩ := ihElse elseNode run
      exact ⟨giver, entry, .branch known found means choose gives, rest⟩

/-- The value of an argument is not of the type that is expected, if neither its own inferred type nor that
of what gives it is. -/
theorem baseType_ne (standard : m.registry = .standard) (rows : m.context.HonestRows) {arg : ValueId}
    {value : Value} {tree : Tree} (unfolds : tree.Unfolds m.context)
    (node : tree.node = m.context.supplier (.value arg)) (typed : m.context.valueType arg = some ty)
    (different : ty ≠ expects) (other : m.OfOtherType arg expects)
    (means : (m.denote (.value arg)).run = some (.ok value)) : value.baseType ≠ expects := by
  unfold Context.valueType at typed
  cases row : m.context.values[arg]? with
  | some content =>
    rw [row] at typed
    rw [denote_row (rows.unproduced row) row] at means
    cases means
    cases typed
    exact different
  | none =>
    rw [row] at typed
    obtain ⟨producer, produced, -⟩ := Option.bind_eq_some_iff.1 typed
    rw [Context.supplier_of_producerOf? produced] at node
    rw [← denote_supplier, Context.supplier_of_producerOf? produced] at means
    obtain ⟨giver, entry, gives, known, isArgs, means⟩ := exists_giver unfolds node means
    obtain ⟨ty', typed', different'⟩ := other producer giver produced gives
    rw [denote_function_sound standard rows known isArgs typed' means]
    exact different'

/-- A function about which a mismatch was found means no value, if its argument is not of the type that is
expected. -/
theorem denote_ne_ok_of_mismatch (standard : m.registry = .standard) (rows : m.context.HonestRows)
    {tree : Tree} (unfolds : tree.Unfolds m.context) (node : tree.node = .function function)
    {argument adapter : String} {expects got : BaseType}
    (finding : m.context.Finding m.registry
      (.argumentTypeMismatch function argument adapter expects got))
    (other : ∀ entry arg, m.context.functions[function]? = some entry →
      (argument, arg) ∈ entry.args.entries → m.OfOtherType arg expects) (value : Value) :
    (m.denote (.function function)).run ≠ some (.ok value) := by
  cases finding with
  | @argumentType _ definition args returns d _ arg _ _ index slot signature known defined isArg here
      isAdapter accepts typed different =>
    intro run
    rw [denote_function known (by simp [FunctionEntry.kind])] at run
    obtain ⟨values, means, run⟩ := Meaning.of_run_bind_ok run
    obtain ⟨d', left, right, defined', rfl, applied⟩ := denoteCombine_eq_ok (Option.some.inj run)
    cases defined.symm.trans defined'
    -- the argument means a value that the adapter has accepted
    have read : args.values[index]? = some arg := by simp [ArgMap.values, isArg]
    obtain ⟨given, isGiven, givenMeans⟩ :=
      Result.exists_getElem?_of_forall₂ (forall₂_of_mapM_denote means) read
    obtain ⟨child, isChild, childNode⟩ := unfolds.exists_child node
      (.argument known (List.mem_of_getElem? read))
    have refused := baseType_ne standard rows (unfolds.child child isChild) childNode typed different
      (other _ arg known (List.mem_of_getElem? isArg)) givenMeans
    obtain ⟨operation, -, -, slots⟩ := accepts_of_combine standard applied
    obtain ⟨-, signature', isAdapter', accepted, -⟩ := slots here isGiven
    cases isAdapter.symm.trans isAdapter'
    exact refused (signature.input.eq_of_accepts accepts accepted)

end Evaluator

namespace Context.Finding

variable {c : Context} {registry : Registry} {e : ValidationError} {definition : DefinitionId}

/-- A definition that an error is about stands in the graph. -/
theorem hasDefinition (finding : c.Finding registry e) (about : e.definition? = some definition) :
    c.hasDefinition definition = true := by
  cases finding with
  | missingOperation known | unknownOperation known | missingAdapter known | unknownAdapter known
  | adapterOutput known | emptyPipe known =>
    cases about
    exact Table.contains_iff.2 ⟨_, known⟩
  | argumentType => cases about

end Context.Finding

namespace Spec

/-! ### Built graphs -/

/-- Whatever is reported about a definition concerns a function, as every definition is used. -/
theorem Compiled.exists_concerned {spec : Spec} {built : Built} (compiled : Compiled spec built)
    {registry : Registry} {e : ValidationError} {definition : DefinitionId}
    (found : e ∈ (built.context.validate registry).errors)
    (about : e.definition? = some definition) : ∃ function, built.context.Concerns e function := by
  have finding := Context.finding_of_mem compiled.shaped found
  obtain ⟨function, entry, known, involves⟩ :=
    compiled.used definition (finding.hasDefinition about)
  exact ⟨function, .inr ⟨entry, definition, known, about, involves⟩⟩

/-- In a graph that was built from a spec, whatever validation against the standard registry reports about a
function, or about a definition that the function runs itself or through the steps of pipes, evaluating the
function does not succeed. Where a type mismatch is reported for an argument, this is so if the literals have
the element types that they declare and the function that gives the argument is inferred to be of another
type than the one that is expected. -/
theorem reported_functions_fail {spec : Spec} {session scratch : Nat} {built : Built}
    (builds : spec.build session = .ok built) (apart : scratch ≠ session) (catchPanics : Bool) :
    (∀ e ∈ (built.context.validate .standard).errors, e.code ≠ "V0013" →
      ∀ function, built.context.Concerns e function → ∀ evaluation,
        (built.evaluator catchPanics).evaluate (.function function) scratch ≠ .ok evaluation) ∧
    (spec.HonestLiterals → ∀ function argument adapter expects got,
      .argumentTypeMismatch function argument adapter expects got ∈
        (built.context.validate .standard).errors →
      (∀ entry arg, built.context.functions[function]? = some entry →
        (argument, arg) ∈ entry.args.entries →
        (built.evaluator catchPanics).OfOtherType arg expects) → ∀ evaluation,
        (built.evaluator catchPanics).evaluate (.function function) scratch ≠ .ok evaluation) := by
  have compiled := compiled_of_build builds
  have fresh := freshIn_of_build builds apart
  refine ⟨fun e found unlike function concerns evaluation ran => ?_,
    fun honest function argument adapter expects got found other evaluation ran => ?_⟩
  · have finding := Context.finding_of_mem compiled.shaped found
    obtain ⟨_, -, -, means⟩ :=
      Evaluator.denote_of_evaluate (m := built.evaluator catchPanics) compiled.orderly fresh ran
    rcases concerns with isAbout | ⟨entry, definition, known, isAbout, involves⟩
    · -- the only finding about a function itself is that of a type
      cases finding <;> first | exact unlike rfl | cases isAbout
    · have barren := Evaluator.barren_of_involves involves
        (Evaluator.barren_of_finding (m := built.evaluator catchPanics) rfl finding isAbout)
      exact Evaluator.denote_ne_ok known barren evaluation.value means
  · have finding := Context.finding_of_mem compiled.shaped found
    have rows : built.context.HonestRows :=
      { honest := fun row => by
          obtain ⟨name, isEntry, -⟩ := compiled.registered.rows row
          exact honest name _ isEntry
        unproduced := compiled.unproduced }
    obtain ⟨tree, unfolds, node, means⟩ :=
      Evaluator.denote_of_evaluate (m := built.evaluator catchPanics) compiled.orderly fresh ran
    exact Evaluator.denote_ne_ok_of_mismatch (m := built.evaluator catchPanics) rfl rows unfolds node
      finding other evaluation.value means

/-! ### An instance

A cond chooses between two texts, and a function asks for an adapter of truth values for it. Another one runs
an operation that is unknown, in a pipe that is nested in its own. -/

namespace Misfit

def negated : CombineExpr :=
  ⟨"boolean::or", [("a", ⟨.output "choose", some "boolean::not"⟩), ("b", ⟨.value "flag", none⟩)]⟩

def entries : List (String × SpecEntry) :=
  [ ("flag", .literal (.boolean false))
  , ("word", .literal (.string "Ada"))
  , ("once", .function (.combine ⟨"string::concat",
      [("a", ⟨.value "word", none⟩), ("b", ⟨.value "word", none⟩)]⟩))
  , ("twice", .function (.combine ⟨"string::concat",
      [("a", ⟨.output "once", none⟩), ("b", ⟨.output "once", none⟩)]⟩))
  , ("choose", .function (.cond "flag" "once" "twice"))
  , ("negated", .function (.combine negated))
  , ("reversed", .function (.pipe [] [.pipe [] [.combine ⟨"string::reverse",
      [("a", ⟨.value "word", none⟩), ("b", ⟨.value "word", none⟩)]⟩]])) ]

end Misfit

def misfit : Spec := ⟨Misfit.entries, by decide⟩

namespace Misfit

/-- What validation finds in the graph of the spec. -/
theorem exists_built : ∃ built, misfit.build 7 = .ok built ∧ built.context.BranchesAgree ∧
    (∃ id : CombineId, .unknownOperation id "string::reverse" ∈
      (built.context.validate .standard).errors) ∧
    ∃ negated entry, built.function? "negated" = some negated ∧
      .argumentTypeMismatch negated "a" "boolean::not" .boolean .string ∈
        (built.context.validate .standard).errors ∧
      built.context.functions[negated]? = some entry ∧
      ∀ arg, ("a", arg) ∈ entry.args.entries →
        built.context.values[arg]? = none ∧ built.context.valueType arg = some .string := by
  have holds : ((misfit.build 7).toOption.any fun built =>
      let errors := (built.context.validate .standard).errors
      decide (∀ row ∈ built.context.conds.toList, built.context.functionType row.2.thenBranch =
        built.context.functionType row.2.elseBranch) &&
      (built.context.combines.keys.any fun id =>
        decide (.unknownOperation id "string::reverse" ∈ errors)) &&
      ((built.function? "negated").any fun negated =>
        decide (.argumentTypeMismatch negated "a" "boolean::not" .boolean .string ∈ errors) &&
        (built.context.functions[negated]?).any fun entry => entry.args.entries.all fun arg =>
          arg.1 != "a" || (built.context.values[arg.2]?).isNone &&
            built.context.valueType arg.2 == some .string)) = true := by
    decide +kernel
  obtain ⟨built, builds, holds⟩ := (Option.any_eq_true _ _).1 holds
  simp only [Bool.and_eq_true, decide_eq_true_iff] at holds
  obtain ⟨⟨agree, unknown⟩, negated⟩ := holds
  obtain ⟨id, -, unknown⟩ := List.any_eq_true.1 unknown
  obtain ⟨negated, named, holds⟩ := (Option.any_eq_true _ _).1 negated
  rw [Bool.and_eq_true, decide_eq_true_iff] at holds
  obtain ⟨reported, holds⟩ := holds
  obtain ⟨entry, known, holds⟩ := (Option.any_eq_true _ _).1 holds
  refine ⟨built, Result.eq_ok_of_toOption builds, Greeting.branchesAgree agree,
    ⟨id, of_decide_eq_true unknown⟩, negated, entry, named, reported, known, fun arg isArg => ?_⟩
  have typed := List.all_eq_true.1 holds _ isArg
  simpa using typed

theorem honestLiterals : misfit.HonestLiterals := by
  intro name value isEntry ty declared
  have literals : value = .boolean false ∨ value = .string "Ada" := by
    simp [misfit, entries] at isEntry
    exact isEntry.imp And.right And.right
  rcases literals with rfl | rfl <;> cases declared

end Misfit

/-- The text that is chosen is not accepted, whichever it is. -/
theorem reported_functions_fail_misfit : ∃ built,
    (misfit.build 7 = .ok built ∧ (8 : Nat) ≠ 7 ∧ misfit.HonestLiterals) ∧
    (∃ e ∈ (built.context.validate .standard).errors, e.code ≠ "V0013" ∧
      ∃ function, built.context.Concerns e function ∧
        ∀ evaluation, built.context.evaluate .standard (.function function) 8 ≠ .ok evaluation) ∧
    ∃ negated, built.function? "negated" = some negated ∧
      .argumentTypeMismatch negated "a" "boolean::not" .boolean .string ∈
        (built.context.validate .standard).errors ∧
      (∀ entry arg, built.context.functions[negated]? = some entry → ("a", arg) ∈ entry.args.entries →
        (built.evaluator false).OfOtherType arg .boolean) ∧
      ∀ evaluation, built.context.evaluate .standard (.function negated) 8 ≠ .ok evaluation := by
  obtain ⟨built, builds, branches, ⟨id, unknown⟩, negated, entry, named, reported, known, typed⟩ :=
    Misfit.exists_built
  have apart : (8 : Nat) ≠ 7 := by decide
  obtain ⟨definitions, arguments⟩ := reported_functions_fail builds apart false
  obtain ⟨function, concerns⟩ := (compiled_of_build builds).exists_concerned unknown rfl
  have other : ∀ entry arg, built.context.functions[negated]? = some entry →
      ("a", arg) ∈ entry.args.entries → (built.evaluator false).OfOtherType arg .boolean := by
    intro entry' arg known' isArg
    cases known.symm.trans known'
    obtain ⟨noRow, typed⟩ := typed arg isArg
    exact Evaluator.ofOtherType_of_branchesAgree branches noRow typed (by decide)
  have code : (ValidationError.unknownOperation id "string::reverse").code ≠ "V0013" := by
    simp [ValidationError.code]
  exact ⟨built, ⟨builds, apart, Misfit.honestLiterals⟩,
    ⟨_, unknown, code, function, concerns, definitions _ unknown code function concerns⟩,
    negated, named, reported, other, arguments Misfit.honestLiterals _ _ _ _ _ reported other⟩

/-- A function that is reported for the type of an argument may succeed: the argument is a cond that
takes its second branch, which is of another type than the first. -/
theorem mixed_reported_function_succeeds : ∃ built, mixed.build 7 = .ok built ∧
    ∃ e ∈ (built.context.validate .standard).errors, ∃ function, built.context.Concerns e function ∧
      ∃ evaluation, built.context.evaluate .standard (.function function) 8 = .ok evaluation := by
  obtain ⟨built, builds, outcome⟩ := Mixed.exists_built
  obtain ⟨negated, evaluation, -, reported, evaluated⟩ := outcome.negated
  exact ⟨built, builds, _, reported, negated, .inl (List.mem_singleton_self _), evaluation, evaluated⟩

end Spec

end TagFlow
