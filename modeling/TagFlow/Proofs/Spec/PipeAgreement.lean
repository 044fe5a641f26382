import TagFlow.Proofs.Spec.Reading
import TagFlow.Proofs.Typing.Recorded

/-!
# Lowered pipes agree with the pipes of the spec

`Agrees` relates two readings: that of the spec, by names, and that of the graph that was built from
it, by identifiers. They come to the same result, or stop for the same reason. A step of the spec
agrees with the step that it was lowered to (`Spec.Compiled.agrees_denoteStep`), and so do all steps of a
pipe.

The one difference between the two is the pass adapters that were put in where a reference asks for
none. These hand on what they are given, or fail (`adapt_of_applyAdapter`). They do not fail if the
types that were used to choose them are right (`adapt_eq`); this is why the relation goes along with
the invariant on the types of everything in scope.
-/

namespace TagFlow

/-- The reason to stop reading the spec, and the reason to stop in the graph that was built from it,
are the same. -/
inductive Built.Corresponds (built : Built) : SpecHalt → Halt → Prop
  | error {name : String} {id returns cause} : built.names[name]? = some (.function id returns) →
      Corresponds built (.operation name (.error cause)) (.failed (.functionExecution id cause))
  | panic {name : String} {id returns message} :
      built.names[name]? = some (.function id returns) →
      Corresponds built (.operation name (.panic message)) (.panicked id message)
  | emptyPipe {name id} : built.mint.record? id = some ⟨name, .definition, none⟩ →
      Corresponds built (.emptyPipe name) (.failed (.emptySequence id))

/-- Both readings come to the same result, or stop for the same reason. Where values are not of the
types that are inferred for them, the graph may stop at a default adapter, and then just the graph. -/
inductive Agrees {α : Type} (built : Built) (x : Reading α) (y : Meaning α) : Prop
  | value {a} : x.run = some (.ok a) → y.run = some (.ok a) → Agrees built x y
  | halt {stop halt} : x.run = some (.error stop) → y.run = some (.error halt) →
      built.Corresponds stop halt → Agrees built x y
  | blocked {halt} : ¬ built.context.Truthful → y.run = some (.error halt) → Agrees built x y

namespace Agrees

variable {α β : Type} {built : Built}

theorem pure (a : α) : Agrees built (pure a) (pure a) := .value rfl rfl

/-- Readings that agree, continued by readings that agree on what was found. -/
theorem bind {x : Reading α} {y : Meaning α} {f : α → Reading β} {g : α → Meaning β}
    (first : Agrees built x y)
    (rest : ∀ a, y.run = some (.ok a) → Agrees built (f a) (g a)) :
    Agrees built (x >>= f) (y >>= g) := by
  cases first with
  | @value a here here' =>
    cases rest a here' with
    | value later later' =>
      exact .value ((Meaning.run_bind_ok here).trans later) ((Meaning.run_bind_ok here').trans later')
    | halt later later' same =>
      exact .halt ((Meaning.run_bind_ok here).trans later) ((Meaning.run_bind_ok here').trans later')
        same
    | blocked untruthful later => exact .blocked untruthful ((Meaning.run_bind_ok here').trans later)
  | halt here here' same =>
    exact .halt (Meaning.run_bind_error here) (Meaning.run_bind_error here') same
  | blocked untruthful here => exact .blocked untruthful (Meaning.run_bind_error here)

/-- Lists of readings that agree one by one. -/
theorem mapM {γ : Type} {f : α → Reading γ} {g : β → Meaning γ} : ∀ {items : List α}
    {others : List β}, List.Forall₂ (fun item other => Agrees built (f item) (g other)) items others →
      Agrees built (items.mapM f) (others.mapM g)
  | [], _, related => by
    cases related
    exact .pure []
  | item :: items, _, related => by
    cases related with
    | cons head tail =>
      rw [List.mapM_cons, List.mapM_cons]
      exact head.bind fun a _ => (mapM tail).bind fun rest _ => .pure (a :: rest)

/-- What the graph gives is given by the spec. -/
theorem of_ok {x : Reading α} {y : Meaning α} {a : α} (agrees : Agrees built x y)
    (run : y.run = some (.ok a)) : x.run = some (.ok a) := by
  cases agrees with
  | value here here' =>
    cases run.symm.trans here'
    exact here
  | halt _ here' => cases run.symm.trans here'
  | blocked _ here => cases run.symm.trans here

/-- What it is for two readings to agree where the inferred types are right: the same values, and the
same reasons to stop. -/
theorem outcomes {x : Reading α} {y : Meaning α} (agrees : Agrees built x y)
    (truthful : built.context.Truthful) {result : Except Halt α} (run : y.run = some result) :
    (∀ a, result = .ok a ↔ x.run = some (.ok a)) ∧
      (∀ halt, result = .error halt →
        ∃ stop, x.run = some (.error stop) ∧ built.Corresponds stop halt) ∧
      ∀ stop, x.run = some (.error stop) →
        ∃ halt, result = .error halt ∧ built.Corresponds stop halt := by
  cases agrees with
  | value here here' =>
    cases run.symm.trans here'
    rw [here]
    simp
  | @halt stop halt here here' same =>
    cases run.symm.trans here'
    rw [here]
    refine ⟨by simp, ?_, ?_⟩
    · intro other isHalt
      cases isHalt
      exact ⟨stop, rfl, same⟩
    · intro other isStop
      cases isStop
      exact ⟨halt, rfl, same⟩
  | blocked untruthful _ => exact absurd truthful untruthful

end Agrees

namespace Spec

open Lowering Evaluator

namespace Compiled

variable {spec : Spec} {built : Built} {name function : String} {id : FunctionId}
  {returns : ValueId}

/-! ### Names -/

theorem get?_of_mem {entry : SpecEntry} (isEntry : (name, entry) ∈ spec.entries) :
    spec.get? name = some entry := Bindings.lookup_of_mem spec.nodup isEntry

/-- The name of a row is that of a literal. -/
theorem get?_literal (compiled : Compiled spec built) {id : ValueId}
    (found : built.names[name]? = some (.literal id)) :
    ∃ value, spec.get? name = some (.literal value) ∧ built.context.values[id]? = some value := by
  obtain ⟨value, isEntry, row⟩ := compiled.registered.ofLiteral found
  exact ⟨value, get?_of_mem isEntry, row⟩

/-- The name of a function is that of an entry from which the function was scoped and lowered. -/
theorem get?_function (compiled : Compiled spec built)
    (found : built.names[name]? = some (.function id returns)) :
    ∃ expr body entry, spec.get? name = some (.function expr) ∧
      built.names.scopeFunction name expr = .ok body ∧
      built.context.functions[id]? = some entry ∧
      FunctionLowered ⟨built.mint, built.context⟩ name body entry := by
  obtain ⟨⟨expr, isEntry⟩, -, -⟩ := compiled.registered.ofFunction found
  obtain ⟨body, entry, isScoped, known, -, lowered⟩ := compiled.lowered isEntry found
  exact ⟨expr, body, entry, get?_of_mem isEntry, isScoped, known, lowered⟩

/-- What a reference outside of any pipe leads to, as an entry and as a name of the graph. -/
theorem entryOf?_of_resolve? (compiled : Compiled spec built) {target : Target} {binding : Binding}
    (resolved : built.names.resolve? target = some binding) :
    ∃ entry : String, spec.entryOf? target = some entry ∧ built.names[entry]? = some binding := by
  unfold Names.resolve? at resolved
  unfold entryOf?
  cases target with
  | value name =>
    dsimp only at resolved
    split at resolved
    · next id found =>
      cases resolved
      obtain ⟨value, isEntry, -⟩ := compiled.get?_literal found
      exact ⟨name, by simp only [isEntry], found⟩
    · cases resolved
  | name name => exact ⟨name, rfl, resolved⟩
  | output name =>
    dsimp only at resolved
    split at resolved
    · next id returns found =>
      cases resolved
      obtain ⟨expr, -, -, isEntry, -⟩ := compiled.get?_function found
      exact ⟨name, by simp only [isEntry], found⟩
    · cases resolved
  | input name => cases resolved
  | step index => cases resolved

/-- The node of a name supplies its own value. -/
theorem supplier_node (compiled : Compiled spec built) {binding : Binding}
    (found : built.names[name]? = some binding) :
    built.context.supplier binding.node = binding.node := by
  cases binding with
  | literal id => exact compiled.supplier_output found
  | function id returns => rfl

/-! ### Combines -/

/-- The adapter that was chosen for an argument does what its reference asks for. -/
theorem adapt_eq {reference : Reference} {known : Option BaseType} {adapter : String}
    (adapts : Adapts reference.adapter known adapter) {value : Value}
    (typed : ∀ ty, known = some ty → value.baseType = ty) :
    Registry.standard.applyAdapter adapter value = adapt .standard reference value := by
  obtain ⟨ty, rfl, better⟩ := adapts
  -- without an explicit adapter the default passes on every value of the known type
  unfold adapt adapterFor
  cases reference.adapter with
  | some name => rfl
  | none => exact Registry.applyAdapter_passAdapter fun t h => typed t (better t h)

/-- Where the adapter that was chosen gives something, it is what the reference asks for. -/
theorem adapt_of_applyAdapter {reference : Reference} {known : Option BaseType} {adapter : String}
    (adapts : Adapts reference.adapter known adapter) {value result : Value}
    (run : Registry.standard.applyAdapter adapter value = .ok result) :
    adapt .standard reference value = .ok result := by
  obtain ⟨ty, rfl, -⟩ := adapts
  unfold adapterFor at run
  unfold adapt
  cases explicit : reference.adapter with
  | some name =>
    rw [explicit] at run
    exact run
  | none =>
    rw [explicit] at run
    rw [Registry.eq_of_applyAdapter_passAdapter run]

/-- Where a definition gives something, it is what the combine means that it was made or found for. -/
theorem operate_of_applyDefinition {expr : CombineExpr} {a b : String × Reference}
    {d : CombineDefinition} (operation : d.operation = expr.operation)
    {first second : Option BaseType} (adapts : Adapts a.2.adapter first d.first.adapter)
    (adapts' : Adapts b.2.adapter second d.second.adapter) {left right value : Value}
    (run : applyDefinition .standard d left right = .ok value) :
    operate .standard expr.operation a.2 b.2 left right = .ok value := by
  unfold applyDefinition at run
  obtain ⟨first, adapted, run⟩ := Result.bind_eq_ok.1 run
  obtain ⟨second, adapted', run⟩ := Result.bind_eq_ok.1 run
  unfold operate
  rw [adapt_of_applyAdapter adapts adapted, adapt_of_applyAdapter adapts' adapted', ← operation]
  exact run

/-- A combine agrees with the definition that was made or found for it. -/
theorem agrees_combine (found : built.names[function]? = some (.function id returns))
    {expr : CombineExpr} {a b : String × Reference} (args : expr.args = [a, b]) {combine : CombineId}
    {d : CombineDefinition} (known : built.context.combines[combine]? = some d)
    (operation : d.operation = expr.operation) {first second : Option BaseType}
    (adapts : Adapts a.2.adapter first d.first.adapter)
    (adapts' : Adapts b.2.adapter second d.second.adapter) {left right : Value}
    (typed : built.context.Truthful → ∀ ty, first = some ty → left.baseType = ty)
    (typed' : built.context.Truthful → ∀ ty, second = some ty → right.baseType = ty)
    (arity : Nat → NodeFault) :
    Agrees built (Spec.combine .standard function expr [left, right])
      (liftM ((built.evaluator false).denoteCombine id combine arity [left, right])) := by
  have runs : (built.evaluator false).denoteCombine id combine arity [left, right] =
      (built.evaluator false).charge id (applyDefinition .standard d left right) := by
    unfold denoteCombine
    rw [show (built.evaluator false).context.combines[combine]? = _ from known]
    rfl
  have same : built.context.Truthful → applyDefinition .standard d left right =
      operate .standard expr.operation a.2 b.2 left right := by
    intro truthful
    unfold applyDefinition operate
    rw [adapt_eq adapts (typed truthful), adapt_eq adapts' (typed' truthful), operation]
  unfold Spec.combine
  rw [args, runs]
  dsimp only
  cases ran : applyDefinition .standard d left right with
  | ok value =>
    rw [operate_of_applyDefinition operation adapts adapts' ran]
    exact .value rfl rfl
  | error fault =>
    by_cases truthful : built.context.Truthful
    · rw [← same truthful, ran]
      cases fault with
      | error cause => exact .halt rfl rfl (.error found)
      | panic message => exact .halt rfl rfl (.panic found)
    · cases fault with
      | error cause => exact .blocked truthful rfl
      | panic message => exact .blocked truthful rfl

/-! ### Pipes -/

/-- Where a step of a pipe stands: all that it may read is there, and has its recorded type if the types
that are inferred are right. -/
structure Stands (built : Built) (names : List String) (index : Nat) (inputs : List PipeInput)
    (outputs : List ValueId) (given : List (String × Value)) (results : List Value) : Prop where
  typed : built.context.Truthful → TypedScope built.mint inputs outputs given results
  bound : ∀ name ∈ names, ∃ value, given.lookup name = some value
  count : index = results.length

variable {names : List String} {index : Nat} {inputs : List PipeInput} {outputs : List ValueId}
  {given : List (String × Value)} {results : List Value}

/-- A reference reads the same in the spec and in the graph. -/
theorem exists_look? (compiled : Compiled spec built) (id : FunctionId)
    (stands : Stands built names index inputs outputs given results) {argument : String}
    {target : Target} {source : Source}
    (resolved : built.names.resolveInPipe names ⟨function, index, argument⟩ target = .ok source) :
    ∃ value, spec.look? given results target = some value ∧
      (built.evaluator false).denoteSource id given results source = .ok value := by
  rcases Names.resolveInPipe_eq_ok resolved with ⟨name, rfl, isName, rfl⟩ | ⟨i, rfl, earlier, rfl⟩ |
    ⟨name, row, target, found, rfl⟩
  · obtain ⟨value, here⟩ := stands.bound name isName
    refine ⟨value, here, ?_⟩
    simp only [denoteSource, here]
  · have earlier : i < results.length := stands.count ▸ earlier
    refine ⟨results[i], List.getElem?_eq_getElem earlier, ?_⟩
    simp only [denoteSource, List.getElem?_eq_getElem earlier]
  · obtain ⟨value, isEntry, here⟩ := compiled.get?_literal found
    refine ⟨value, ?_, ?_⟩
    · rcases target with rfl | rfl <;> simp only [look?, isEntry]
    · simp only [denoteSource, readRow, here]

/-- References of arguments, each with the source that it was followed to. -/
def Followed (built : Built) (function : String) (names : List String) (index : Nat)
    (args : List (String × Reference)) (sources : List (String × Source)) : Prop :=
  List.Forall₂ (fun arg source => source.1 = arg.1 ∧
    built.names.resolveInPipe names ⟨function, index, arg.1⟩ arg.2.target = .ok source.2) args sources

/-- Arguments read the same in the spec and in the graph. -/
theorem exists_readArguments (compiled : Compiled spec built) (id : FunctionId)
    (stands : Stands built names index inputs outputs given results)
    {args : List (String × Reference)} {sources : List (String × Source)}
    (followed : Followed built function names index args sources) :
    ∃ values, values.length = args.length ∧
      spec.readArguments function given results args = pure values ∧
      (built.evaluator false).denoteArguments id given results sources =
        .ok ((Bindings.names args).zip values) := by
  unfold readArguments Evaluator.denoteArguments Bindings.names
  induction followed with
  | nil => exact ⟨[], rfl, rfl, rfl⟩
  | @cons arg source args sources head _ ih =>
    obtain ⟨named, resolved⟩ := head
    obtain ⟨value, look, read⟩ := compiled.exists_look? id stands resolved
    obtain ⟨values, length, looks, reads⟩ := ih
    refine ⟨value :: values, ?_, ?_, ?_⟩
    · simp only [List.length_cons, length]
    · rw [List.mapM_cons, looks, look]
      rfl
    · rw [List.mapM_cons, reads, read, named]
      rfl

theorem checkInputs_eq_ok {d : PipeDefinition}
    (same : given.map (·.1) = d.inputs.map (·.name)) : checkInputs id d given = .ok () := by
  unfold checkInputs
  have declared : (given.find? fun binding => (d.input? binding.1).isNone) = none := by
    rw [List.find?_eq_none]
    intro binding isBinding
    have isName : binding.1 ∈ d.inputs.map (·.name) := same ▸ List.mem_map_of_mem isBinding
    obtain ⟨input, isInput, named⟩ := List.mem_map.1 isName
    simp only [PipeDefinition.input?, Option.isNone_iff_eq_none, List.find?_eq_none, not_forall]
    exact ⟨input, isInput, by simp [named]⟩
  have bound : (d.inputs.find? fun input => (given.lookup input.name).isNone) = none := by
    rw [List.find?_eq_none]
    intro input isInput missing
    have isName : input.name ∈ given.map (·.1) := same ▸ List.mem_map_of_mem isInput
    obtain ⟨binding, isBinding, named⟩ := List.mem_map.1 isName
    rw [Option.isNone_iff_eq_none, List.lookup_eq_none_iff] at missing
    exact absurd named.symm (by simpa using missing binding isBinding)
  rw [declared, bound]

/-- A pipe agrees with the definition that was made for it, once its steps do. -/
theorem agrees_pipe {pipe : PipeId} {d : PipeDefinition}
    (found : built.context.pipes[pipe]? = some d)
    (known : built.mint.record? pipe = some ⟨function, .definition, none⟩)
    (same : given.map (·.1) = d.inputs.map (·.name)) {steps : List StepExpr}
    (agrees : Agrees built (spec.denoteSteps .standard function given [] steps)
      ((built.evaluator false).denoteSteps id given [] d.steps)) :
    Agrees built (spec.denoteSteps .standard function given [] steps >>= lastOutput function)
      ((built.evaluator false).denotePipe id pipe given) := by
  rw [denotePipe]
  simp only [show (built.evaluator false).context.pipes[pipe]? = some d from found]
  split
  · next empty =>
    -- the steps of the spec have no outputs either
    rw [List.isEmpty_iff.1 empty, denoteSteps_nil] at agrees
    cases agrees with
    | value none none' =>
      cases none'
      refine .halt ?_ rfl (.emptyPipe known)
      rw [Meaning.run_bind_ok none]
      rfl
    | halt _ fails => cases fails
    | blocked _ fails => cases fails
  · rw [checkInputs_eq_ok same]
    apply agrees.bind
    intro outputs _
    unfold lastOutput
    cases outputs.getLast? with
    | some value => exact .pure value
    | none => exact .halt rfl rfl (.emptyPipe known)

/-- A combine step agrees with the step that it was lowered to. -/
theorem agrees_combineStep (compiled : Compiled spec built)
    (found : built.names[function]? = some (.function id returns)) {expr : CombineExpr}
    {step : ScopedStep} {body : StepBody} {args : List (String × Source)} (output : ValueId)
    (isScoped : built.names.scopeStep function names index (.combine expr) = .ok step)
    (lowered : BodyLowered ⟨built.mint, built.context⟩ function inputs outputs step body args)
    (stands : Stands built names index inputs outputs given results) :
    Agrees built (spec.denoteStep .standard function given results (.combine expr))
      ((built.evaluator false).denoteStep id given results ⟨body, args, output⟩) := by
  obtain ⟨a, b, first, second, isArgs, -, resolved, resolved', rfl⟩ :=
    Names.scopeStep_combine_eq_ok isScoped
  cases lowered with
  | @combine _ _ _ _ _ combine d known operation adapts adapts' =>
    have followed : Followed built function names index expr.args [(a.1, first), (b.1, second)] := by
      rw [isArgs]
      exact .cons ⟨rfl, resolved⟩ (.cons ⟨rfl, resolved'⟩ .nil)
    obtain ⟨values, length, looks, read⟩ := compiled.exists_readArguments id stands followed
    rw [isArgs] at length read
    obtain ⟨left, right, rfl⟩ := List.length_eq_two.1 length
    have runs : (built.evaluator false).denoteStep id given results
        ⟨.combine combine, [(a.1, first), (b.1, second)], output⟩ =
          liftM ((built.evaluator false).denoteCombine id combine (.stepArity results.length)
            [left, right]) := by
      unfold Evaluator.denoteStep
      rw [read]
      rfl
    rw [Spec.denoteStep, looks, pure_bind, runs]
    have sources := forall₂_of_denoteArguments read
    simp only [Bindings.names, List.map_cons, List.map_nil, List.zip_cons_cons, List.zip_nil_right,
      List.forall₂_cons, List.forall₂_nil_left_iff, and_true] at sources
    obtain ⟨⟨-, here⟩, -, here'⟩ := sources
    apply agrees_combine found isArgs known operation adapts adapts'
    · intro truthful ty known
      exact (stands.typed truthful).source (m := built.evaluator false) known here
    · intro truthful ty known
      exact (stands.typed truthful).source (m := built.evaluator false) known here'

mutual

/-- A step of the spec agrees with the step that it was lowered to. -/
theorem agrees_denoteStep (compiled : Compiled spec built)
    (found : built.names[function]? = some (.function id returns)) :
    ∀ (expr : StepExpr) {names : List String} {index : Nat} {inputs : List PipeInput}
      {outputs : List ValueId} {given : List (String × Value)} {results : List Value}
      {step : ScopedStep} {body : StepBody} {args : List (String × Source)} (output : ValueId),
      built.names.scopeStep function names index expr = .ok step →
      BodyLowered ⟨built.mint, built.context⟩ function inputs outputs step body args →
      Stands built names index inputs outputs given results →
      Agrees built (spec.denoteStep .standard function given results expr)
        ((built.evaluator false).denoteStep id given results ⟨body, args, output⟩)
  | .combine expr, names, index, inputs, outputs, given, results, step, body, args, output, isScoped,
      lowered, stands => compiled.agrees_combineStep found output isScoped lowered stands
  | .pipe bindings steps, names, index, inputs, outputs, given, results, step, body, args, output,
      isScoped, lowered, stands => by
    obtain ⟨sources, scopedSteps, rfl, followed, -, inner⟩ := Names.scopeStep_pipe_eq_ok isScoped
    cases lowered with
    | @pipe _ _ _ _ pipe d known record distinct lowered stepsLowered =>
      obtain ⟨values, length, looks, read⟩ := compiled.exists_readArguments id stands followed
      have runs : (built.evaluator false).denoteStep id given results ⟨.pipe pipe, args, output⟩ =
          (built.evaluator false).denotePipe id pipe ((Bindings.names bindings).zip values) := by
        unfold Evaluator.denoteStep
        rw [read]
        rfl
      have isNames : args.map (·.1) = Bindings.names bindings :=
        Result.map_eq_of_forall₂ (fun _ _ here => here.1) followed
      have inputNames : d.inputs.map (·.name) = args.map (·.1) :=
        Result.map_eq_of_forall₂ (fun _ _ here => here.1) lowered
      have labels : (Bindings.names bindings).length = values.length := by
        rw [length, Bindings.names, List.length_map]
      rw [Spec.denoteStep, looks, pure_bind, runs]
      refine agrees_pipe known record ?_ (agrees_denoteSteps compiled found steps inner
        stepsLowered ⟨fun truthful => ?_, ?_, rfl⟩)
      · rw [inputNames, isNames]
        exact List.map_fst_zip (by omega)
      · apply lowered.typed (m := built.evaluator false) distinct
        apply (forall₂_of_denoteArguments read).imp
        exact fun source value here =>
          ⟨here.1, fun ty known => (stands.typed truthful).source known here.2⟩
      · intro name isName
        rw [isNames] at isName
        exact Bindings.exists_lookup_zip labels isName

/-- The steps of a pipe agree with the steps that they were lowered to. -/
theorem agrees_denoteSteps (compiled : Compiled spec built)
    (found : built.names[function]? = some (.function id returns)) :
    ∀ (exprs : List StepExpr) {names : List String} {index : Nat} {inputs : List PipeInput}
      {outputs : List ValueId} {given : List (String × Value)} {results : List Value}
      {scopedSteps : List ScopedStep} {steps : List PipeStep},
      built.names.scopeSteps function names index exprs = .ok scopedSteps →
      StepsLowered ⟨built.mint, built.context⟩ function inputs outputs scopedSteps steps →
      Stands built names index inputs outputs given results →
      Agrees built (spec.denoteSteps .standard function given results exprs)
        ((built.evaluator false).denoteSteps id given results steps)
  | [], names, index, inputs, outputs, given, results, scopedSteps, steps, isScoped, lowered,
      stands => by
    rw [Names.scopeSteps_nil_eq_ok isScoped] at lowered
    cases lowered
    rw [Spec.denoteSteps, Evaluator.denoteSteps_nil]
    exact .pure results
  | expr :: exprs, names, index, inputs, outputs, given, results, scopedSteps, steps, isScoped,
      lowered, stands => by
    obtain ⟨first, others, rfl, here, later⟩ := Names.scopeSteps_cons_eq_ok isScoped
    cases lowered with
    | @cons _ _ _ _ label ty steps step body known typed lowered =>
      rw [Spec.denoteSteps, Evaluator.denoteSteps_cons]
      refine (agrees_denoteStep compiled found expr step.output here body stands).bind
        fun value ran => ?_
      refine agrees_denoteSteps compiled found exprs later lowered
        ⟨fun truthful => ⟨(stands.typed truthful).slots, ?_⟩, stands.bound, ?_⟩
      · -- the new output has the type that is recorded for it
        have types : built.mint.Types step.output value := types_of_denoteStep
          (m := built.evaluator false) rfl truthful known typed ran
        exact List.rel_append (stands.typed truthful).steps (.cons types .nil)
      · rw [List.length_append, List.length_singleton, stands.count]

end

end Compiled

end Spec

end TagFlow
