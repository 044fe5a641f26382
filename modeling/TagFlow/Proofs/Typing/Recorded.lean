import TagFlow.Proofs.Evaluation.Bound
import TagFlow.Proofs.Spec.Built
import TagFlow.Proofs.Typing.Soundness

/-!
# Recorded types are right

While a graph is built, types are recorded for the outputs of functions, for the slots of pipe inputs
and for the outputs of pipe steps. Whatever value a run of the graph binds to such an identifier
(`Evaluator.Binds`) has the type that was recorded for it, and what has run is bound (`Spec.types_sound`).

For the output of a function this is the type that is inferred for the function. Inside of a pipe the
types come from what its inputs are bound to, so the statement goes from the arguments of a function
into its pipe and on into the pipes that are nested there. The invariant of the steps is that
everything they can read has its recorded type (`Lowering.TypedScope`).
-/

namespace TagFlow

/-- The value has the type that is recorded for the identifier, if there is one. -/
def Mint.Types (mint : Mint) (id : ValueId) (value : Value) : Prop :=
  ∀ ty, mint.inferred? id = some ty → value.baseType = ty

namespace Lowering

variable {α : Type} {mint : Mint} {m : Evaluator} {function : FunctionId} {name : String}
  {inputs : List PipeInput} {outputs : List ValueId} {given : List (String × Value)}
  {results : List Value}

/-! ### Inside of a pipe -/

/-- All that a step can read by name or by index has the type that is recorded for it. -/
structure TypedScope (mint : Mint) (inputs : List PipeInput) (outputs : List ValueId)
    (given : List (String × Value)) (results : List Value) : Prop where
  slots : ∀ input ∈ inputs, ∀ value, given.lookup input.name = some value →
    mint.Types input.slot value
  steps : List.Forall₂ mint.Types outputs results

/-- The type that is known for a source is that of what is read there. -/
theorem TypedScope.source (typed : TypedScope mint inputs outputs given results) {source : Source}
    {value : Value} {ty : BaseType}
    (known : sourceType ⟨mint, m.context⟩ inputs outputs source = some ty)
    (read : m.denoteSource function given results source = .ok value) : value.baseType = ty := by
  unfold Evaluator.denoteSource at read
  cases source with
  | input name =>
    obtain ⟨input, found, recorded⟩ := Option.bind_eq_some_iff.1 known
    have named : input.name = name := by simpa using List.find?_some found
    subst named
    dsimp only at read
    split at read
    · next bound =>
      cases read
      exact typed.slots input (List.mem_of_find?_eq_some found) value bound ty recorded
    · cases read
  | step index =>
    obtain ⟨output, here, recorded⟩ := Option.bind_eq_some_iff.1 known
    dsimp only at read
    split at read
    · next result =>
      cases read
      obtain ⟨inside, same⟩ := List.getElem?_eq_some_iff.1 here
      obtain ⟨inside', same'⟩ := List.getElem?_eq_some_iff.1 result
      have := typed.steps.get inside inside'
      simp only [List.get_eq_getElem, same, same'] at this
      exact this ty recorded
    · cases read
  | value id =>
    obtain ⟨row, here, same⟩ := Option.map_eq_some_iff.1 known
    have here : m.context.values[id]? = some row := here
    simp only [Evaluator.readRow, here] at read
    cases read
    exact same

/-- The slots of inputs have the types of what the inputs are bound to. -/
theorem InputsLowered.typed {typeOf : α → Option BaseType} {bindings : List (String × α)}
    (lowered : InputsLowered ⟨mint, m.context⟩ typeOf bindings inputs)
    (names : (bindings.map (·.1)).Nodup)
    (bound : List.Forall₂ (fun binding value => value.1 = binding.1 ∧
      ∀ ty, typeOf binding.2 = some ty → value.2.baseType = ty) bindings given) :
    TypedScope mint inputs [] given [] where
  slots input isInput value found ty recorded := by
    obtain ⟨binding, isBinding, named, label, ty', known, typed⟩ :=
      Result.exists_of_mem_right lowered isInput
    have isGiven := Bindings.mem_of_lookup found
    obtain ⟨other, isOther, named', typed'⟩ := Result.exists_of_mem_right bound isGiven
    -- names are different, so the input was bound by this binding
    have same : other = binding := List.inj_on_of_nodup_map names isOther isBinding
      (named'.symm.trans named)
    subst same
    refine typed' ty (typed ty ?_)
    unfold Mint.inferred? at recorded
    rw [known] at recorded
    exact recorded
  steps := .nil

/-- The output of a step has the type that is recorded for it. -/
theorem types_of_denoteStep (standard : m.registry = .standard) (truthful : m.context.Truthful)
    {step : PipeStep} {label : String} {ty : Option BaseType} {value : Value}
    (known : mint.record? step.output = some ⟨label, .pipeStep, ty⟩)
    (typed : ∀ t, ty = some t → m.context.stepType 1 step = some t)
    (run : (m.denoteStep function given results step).run = some (.ok value)) :
    mint.Types step.output value := by
  intro t recorded
  unfold Mint.inferred? at recorded
  rw [known] at recorded
  exact Evaluator.denoteStep_sound standard truthful.honestRows (typed t recorded) run

/-- Running steps keeps the types of the scope. -/
theorem StepsLowered.typed (standard : m.registry = .standard) (truthful : m.context.Truthful)
    {after : List PipeStep} {results' : List Value} :
    ∀ (before : List PipeStep) {steps : List ScopedStep} {outputs : List ValueId}
      {results : List Value},
      StepsLowered ⟨mint, m.context⟩ name inputs outputs steps (before ++ after) →
      TypedScope mint inputs outputs given results →
      (m.denoteSteps function given results before).run = some (.ok results') →
      ∃ outputs' rest, StepsLowered ⟨mint, m.context⟩ name inputs outputs' rest after ∧
        TypedScope mint inputs outputs' given results'
  | [], steps, outputs, results, lowered, typed, run => by
    rw [Evaluator.denoteSteps_nil] at run
    cases run
    exact ⟨outputs, steps, lowered, typed⟩
  | step :: before, steps, outputs, results, lowered, typed, run => by
    rw [Evaluator.denoteSteps_cons] at run
    obtain ⟨value, ran, run⟩ := Meaning.of_run_bind_ok run
    cases lowered with
    | cons body known recorded lowered =>
      have here : mint.Types step.output value :=
        types_of_denoteStep standard truthful known recorded ran
      refine StepsLowered.typed standard truthful before lowered ⟨typed.slots, ?_⟩ run
      exact List.rel_append typed.steps (.cons here .nil)

/-- The pipe was lowered, and what it is given has the types that are recorded for its slots. -/
def FitsPipe (mint : Mint) (m : Evaluator) (id : PipeId) (given : List (String × Value)) : Prop :=
  ∃ d name steps, m.context.pipes[id]? = some d ∧
    StepsLowered ⟨mint, m.context⟩ name d.inputs [] steps d.steps ∧
    TypedScope mint d.inputs [] given []

/-- The arguments of a step that runs a pipe fit that pipe. -/
theorem BodyLowered.fits {given' : ScopedStep} {inner : PipeId} {sources : List (String × Source)}
    {args : List (String × Value)} (typed : TypedScope mint inputs outputs given results)
    (lowered : BodyLowered ⟨mint, m.context⟩ name inputs outputs given' (.pipe inner) sources)
    (read : m.denoteArguments function given results sources = .ok args) :
    FitsPipe mint m inner args := by
  cases lowered with
  | @pipe _ _ bindings steps _ e found known names bound lowered =>
    refine ⟨e, name, steps, found, lowered, bound.typed names ?_⟩
    apply (Evaluator.forall₂_of_denoteArguments read).imp
    exact fun source value here => ⟨here.1, fun ty known => typed.source known here.2⟩

/-- Whatever is bound in the run of a pipe has the type that is recorded for it. -/
theorem types_of_pipeBinds (standard : m.registry = .standard) (truthful : m.context.Truthful)
    (orderly : m.context.Orderly) {outer : ValueTable}
    (shows : Evaluator.ShowsUnwritten m.context outer) {levels : Nat} {scratch : Scratch} {id : PipeId}
    {target : ValueId} {value : Value}
    (binds : m.PipeBinds function outer levels scratch id given target value) :
    m.context.FreshIn scratch.session → m.context.NestedWithin levels id → FitsPipe mint m id given →
      mint.Types target value := by
  induction binds with
  | @slot levels scratch id given d scope value input starts isInput here =>
    rintro - - ⟨d', name, steps, found, -, typed⟩
    cases starts.found.symm.trans found
    rw [((starts.scopes orderly.slots).2 0).slots input isInput] at here
    exact typed.slots input isInput value here
  | @output levels scratch id given d scope before step after s value inside starts split ran run =>
    rintro fresh nested ⟨d', name, steps, found, lowered, typed⟩
    cases starts.found.symm.trans found
    -- the steps before have run, so everything that this one can read is typed
    obtain ⟨outputs, ran, holds⟩ := starts.denoteSteps_of_runSteps orderly fresh shows nested
      (fun other isStep => by simp [split, isStep]) ran
    have run := starts.denoteStep_of_runStep orderly fresh shows nested (by simp [split]) holds run
    rw [split] at lowered
    obtain ⟨outputs', rest, lowered, -⟩ :=
      StepsLowered.typed standard truthful before lowered typed ran
    cases lowered with
    | cons _ known recorded _ => exact types_of_denoteStep standard truthful known recorded run
  | @nested levels scratch id given d scope before step after s inner args target value starts split
      ran body read _ ih =>
    rintro fresh nested ⟨d', name, steps, found, lowered, typed⟩
    cases starts.found.symm.trans found
    have isStep : step ∈ d.steps := by simp [split]
    obtain ⟨outputs, ran, holds⟩ := starts.denoteSteps_of_runSteps orderly fresh shows nested
      (fun other isStep => by simp [split, isStep]) ran
    rw [Evaluator.readArguments_eq holds shows fun _ _ isArg =>
      Evaluator.readsOutside orderly.apart fresh starts.found isStep isArg] at read
    rw [split] at lowered
    obtain ⟨outputs', rest, lowered, typed⟩ :=
      StepsLowered.typed standard truthful before lowered typed ran
    cases lowered with
    | cons lowered _ _ _ =>
      rw [body] at lowered
      exact ih fresh (nested inner ⟨d, starts.found, step, isStep, body⟩) (lowered.fits typed read)

end Lowering

/-- The evaluator of a graph that was built, with the standard operations. -/
abbrev Built.evaluator (built : Built) (catchPanics : Bool) : Evaluator :=
  ⟨built.context, .standard, catchPanics⟩

namespace Spec

open Lowering Evaluator

/-- The literals of the spec have the element types that they declare. -/
def HonestLiterals (spec : Spec) : Prop :=
  ∀ (name : String) (value : Value), (name, .literal value) ∈ spec.entries → value.Honest

namespace Compiled

variable {spec : Spec} {built : Built} {catchPanics : Bool} {function : FunctionId}

theorem truthful (compiled : Compiled spec built) (honest : spec.HonestLiterals)
    (branches : built.context.BranchesAgree) : built.context.Truthful where
  rows row := by
    obtain ⟨name, isEntry, -⟩ := compiled.registered.rows row
    exact honest name _ isEntry
  unproduced := compiled.unproduced
  branches := branches

/-! ### Functions -/

/-- A type that is recorded for the output of a function is inferred for the function. -/
theorem functionType_of_inferred? (compiled : Compiled spec built) {entry : FunctionEntry}
    {ty : BaseType} (known : built.context.functions[function]? = some entry)
    (recorded : built.mint.inferred? entry.returns = some ty) :
    built.context.functionType function = some ty := by
  obtain ⟨label, ty', record⟩ := compiled.consistent.functions known
  have record : built.mint.record? entry.returns = some ⟨label, .functionReturn, ty'⟩ := record
  unfold Mint.inferred? at recorded
  rw [record, Option.bind_some] at recorded
  subst recorded
  obtain ⟨other, entry', known', same, typed⟩ := compiled.consistent.returns _ label ty record
  have := compiled.orderly.distinct (Context.writes_of_getElem? known')
    (same ▸ Context.writes_of_getElem? known)
  exact this ▸ typed

/-- The type that is known for an argument is that of the value which the argument means. -/
theorem baseType_of_binding (compiled : Compiled spec built) (truthful : built.context.Truthful)
    {name : String} {binding : Binding} (found : built.names[name]? = some binding) {tree : Tree}
    (unfolds : tree.Unfolds built.context)
    (node : tree.node = built.context.supplier (.value binding.output)) {value : Value}
    {ty : BaseType} (known : bindingType ⟨built.mint, built.context⟩ binding = some ty)
    (means : ((built.evaluator catchPanics).denote (.value binding.output)).run =
      some (.ok value)) : value.baseType = ty := by
  rw [← denote_supplier] at means
  refine denote_sound (m := built.evaluator catchPanics) rfl truthful unfolds ty value ?_
    (node ▸ means)
  rw [node, compiled.supplier_output found]
  cases binding with
  | literal id => exact known
  | function id returns => exact known

/-- The inputs of the pipe that a function runs have the types that are recorded for their slots, once
the arguments of the function have their values. -/
theorem typedScope (compiled : Compiled spec built) (truthful : built.context.Truthful)
    {bindings : List (String × Binding)} {inputs : List PipeInput} {children : List Tree}
    {values : List Value} (named : ∀ binding ∈ bindings, ∃ name : String,
      built.names[name]? = some binding.2)
    (bound : InputsLowered ⟨built.mint, built.context⟩ (bindingType ⟨built.mint, built.context⟩)
      bindings inputs)
    (names : (bindings.map (·.1)).Nodup)
    (nodes : children.map Tree.node = (bindings.map (·.2.output)).map
      (fun value => built.context.supplier (.value value)))
    (unfold : ∀ child ∈ children, child.Unfolds built.context)
    (means : ((bindings.map (·.2.output)).mapM fun value =>
      (built.evaluator catchPanics).denote (.value value)).run = some (.ok values)) :
    TypedScope built.mint inputs [] ((bindings.map (·.1)).zip values) [] := by
  -- each argument has a name of the spec, and a child that supplies it
  have supplied : ∀ binding ∈ bindings, (∃ name : String, built.names[name]? = some binding.2) ∧
      ∃ child ∈ children, child.node = built.context.supplier (.value binding.2.output) := by
    intro binding isBinding
    have isArg : binding.2.output ∈ bindings.map (·.2.output) :=
      List.mem_map.2 ⟨binding, isBinding, rfl⟩
    exact ⟨named binding isBinding, Tree.exists_child_of_value nodes isArg⟩
  have related := Result.forall₂_zip_of_map (f := fun binding => binding.1)
    (forall₂_of_mapM_denote means)
  apply InputsLowered.typed (m := built.evaluator catchPanics) bound names
  apply ((List.forall₂_and_left _ _).2 ⟨supplied, related⟩).imp
  rintro binding value ⟨⟨⟨name, found⟩, child, isChild, node⟩, named, means⟩
  exact ⟨named, fun ty known => compiled.baseType_of_binding truthful found (unfold child isChild)
    node known means⟩

/-- The arguments of a function that runs a pipe fit that pipe. -/
theorem fits (compiled : Compiled spec built) (truthful : built.context.Truthful)
    {definition : PipeId} {args : ArgMap} {returns : ValueId} {children : List Tree}
    {values : List Value}
    (known : built.context.functions[function]? = some (.pipe definition args returns))
    (nodes : children.map Tree.node =
      args.values.map (fun value => built.context.supplier (.value value)))
    (unfold : ∀ child ∈ children, child.Unfolds built.context)
    (means : (args.values.mapM fun value =>
      (built.evaluator catchPanics).denote (.value value)).run = some (.ok values)) :
    FitsPipe built.mint (built.evaluator catchPanics) definition (args.names.zip values) := by
  obtain ⟨name, expr, body, -, -, isScoped, lowered⟩ := compiled.exists_entry known
  cases lowered with
  | @pipe bindings steps _ _ d found _ names bound lowered =>
    obtain ⟨isNames, isValues⟩ := ofList_outputs names
    rw [isValues] at means nodes
    rw [isNames]
    exact ⟨d, name, steps, found, lowered, compiled.typedScope truthful
      (Names.exists_name_of_scopeFunction isScoped) bound names nodes unfold means⟩

/-- A row of the graph has the type that is recorded for it, and so has the output of a function that
has run. -/
theorem types_of_settled (compiled : Compiled spec built) (truthful : built.context.Truthful)
    {tree : Tree} {p : Progress} {value : Value} (unfolds : tree.Unfolds built.context)
    (tracks : Tracks (built.evaluator catchPanics) p)
    (settled : Settled built.context p tree.node) (row : p.table[tree.output]? = some value) :
    built.mint.Types tree.output value := by
  obtain ⟨_, means, row'⟩ := tracks.row compiled.orderly unfolds settled
  cases row.symm.trans row'
  have sound : ∀ ty, built.context.nodeType tree.node = some ty → value.baseType = ty :=
    fun ty typed => denote_sound (m := built.evaluator catchPanics) rfl truthful unfolds ty value
      typed means
  intro ty recorded
  cases unfolds with
  | @value id unproduced =>
    obtain ⟨content, here⟩ := settled
    obtain ⟨label, record⟩ := compiled.consistent.rows here
    have record : built.mint.record? id = _ := record
    have recorded : (built.mint.record? id).bind (·.inferred) = some ty := recorded
    rw [record, Option.bind_some] at recorded
    exact sound ty (Option.map_eq_some_iff.2 ⟨content, here, Option.some.inj recorded⟩)
  | function known => exact sound ty (compiled.functionType_of_inferred? known recorded)
  | cond known => exact sound ty (compiled.functionType_of_inferred? known recorded)

/-- Whatever is bound when a plan is run has the type that is recorded for it. -/
theorem types_of_binds (compiled : Compiled spec built) (truthful : built.context.Truthful)
    {tree : Tree} {p : Progress} {target : ValueId} {value : Value}
    (binds : (built.evaluator catchPanics).Binds tree p target value) :
    tree.Unfolds built.context → Tracks (built.evaluator catchPanics) p →
      built.mint.Types target value := by
  have orderly := compiled.orderly
  -- running children first keeps the progress one that can be relied on
  have advance : ∀ {children : List Tree} {p p' : Progress},
      Tracks (built.evaluator catchPanics) p →
      (∀ child ∈ children, child.Unfolds built.context) →
      (built.evaluator catchPanics).runTrees children p = .ok p' →
      Tracks (built.evaluator catchPanics) p' ∧
        ∀ child ∈ children, Settled built.context p' child.node := by
    intro children p p' tracks unfold ran
    have agrees := runTrees_spec children p tracks fun child isChild =>
      runTree_spec orderly (unfold child isChild)
    rw [ran] at agrees
    exact ⟨agrees.1, agrees.2.2⟩
  induction binds with
  | @row tree p p' value ran here =>
    intro unfolds tracks
    have agrees := runTree_spec (m := built.evaluator catchPanics) orderly unfolds p tracks
    rw [ran] at agrees
    exact compiled.types_of_settled truthful unfolds agrees.1 agrees.2.2 here
  | @pipe id definition args returns children p p' values target value fresh ran read binds =>
    intro unfolds tracks
    cases unfolds with
    | function known isArgs nodes unfold =>
      obtain ⟨tracks', settled⟩ := advance tracks unfold ran
      obtain ⟨values', read', means⟩ := tracks'.readRows orderly _ children nodes unfold settled
      cases read.symm.trans read'
      exact types_of_pipeBinds rfl truthful orderly tracks'.showsUnwritten binds tracks'.fresh
        (orderly.acyclic.nestedWithin definition) (compiled.fits truthful known nodes unfold means)
  | @child id entry before child after p p' target value fresh ran _ ih =>
    intro unfolds tracks
    cases unfolds with
    | function known isArgs nodes unfold =>
      have unfold' : ∀ other ∈ before, other.Unfolds built.context :=
        fun other isChild => unfold other (List.mem_append_left _ isChild)
      exact ih (unfold child (by simp)) (advance tracks unfold' ran).1
  | condition fresh _ ih =>
    intro unfolds tracks
    cases unfolds with
    | cond _ _ _ _ _ unfolds _ _ => exact ih unfolds tracks
  | @branch id returns condition thenBranch elseBranch p p' flag choice target value fresh ran read
      choose _ ih =>
    intro unfolds tracks
    cases unfolds with
    | cond _ _ _ _ _ unfolds thenUnfolds elseUnfolds =>
      have agrees := runTree_spec (m := built.evaluator catchPanics) orderly unfolds p tracks
      rw [ran] at agrees
      refine ih ?_ agrees.1
      cases choice with
      | true => exact thenUnfolds
      | false => exact elseUnfolds

end Compiled

/-! ### Built graphs -/

/-- In a graph that was built from a spec, static types are right: a function whose evaluation succeeds
gives a value of the type that is inferred for it, and whatever a run of the graph binds to the output of a
function, the slot of a pipe input or the output of a pipe step has the type that the builder recorded for
it. A run that succeeds binds the outputs of all functions that it completes, and of all pipes that these run
the slots and the outputs of the steps. -/
theorem types_sound {spec : Spec} {session scratch : Nat} {built : Built}
    (run : spec.build session = .ok built) (honest : spec.HonestLiterals)
    (branches : built.context.BranchesAgree) (apart : scratch ≠ session) (catchPanics : Bool) :
    (∀ function ty evaluation, built.context.functionType function = some ty →
      (built.evaluator catchPanics).evaluate (.function function) scratch = .ok evaluation →
      evaluation.value.baseType = ty) ∧
    (∀ root plan id value ty, Plan.build built.context root = .ok plan →
      (built.evaluator catchPanics).Binds plan.tree (.start scratch built.context.values) id value →
      built.mint.inferred? id = some ty → value.baseType = ty) ∧
    ∀ root plan p, Plan.build built.context root = .ok plan →
      (built.evaluator catchPanics).runTree plan.tree (.start scratch built.context.values) = .ok p →
      ∀ function ∈ p.completed, ∃ entry, built.context.functions[function]? = some entry ∧
        (built.evaluator catchPanics).BindsEntry plan.tree (.start scratch built.context.values) entry := by
  have compiled := compiled_of_build run
  have truthful := compiled.truthful honest branches
  have fresh := freshIn_of_build run apart
  refine ⟨fun function ty evaluation typed evaluated => ?_,
    fun root plan id value ty planned binds recorded => ?_,
    fun root plan p planned ran function done => ?_⟩
  · obtain ⟨tree, unfolds, node, means⟩ :=
      denote_of_evaluate (m := built.evaluator catchPanics) compiled.orderly fresh evaluated
    rw [Context.supplier_function] at node
    refine denote_sound (m := built.evaluator catchPanics) rfl truthful unfolds ty _ ?_
      (node ▸ means)
    rw [node]
    exact typed
  · have unfolding := Plan.build_spec built.context root
    rw [planned] at unfolding
    exact compiled.types_of_binds truthful binds unfolding.1 (.start fresh) ty recorded
  · have unfolding := Plan.build_spec built.context root
    rw [planned] at unfolding
    exact exists_binds (m := built.evaluator catchPanics) compiled.orderly.slots unfolding.1 ran function
      done Std.ExtTreeSet.not_mem_empty

namespace Greeting

theorem honestLiterals : greeting.HonestLiterals := by
  intro name value isEntry ty declared items isArray item isItem
  have literals : value = .string "Ada" ∨ value = .boolean true ∨
      value = .array [.string "hello", .string "bye"] ∨ value = .number 1 := by
    simp [greeting, entries] at isEntry
    exact isEntry.imp And.right (·.imp And.right (·.imp And.right And.right))
  rcases literals with rfl | rfl | rfl | rfl
  · cases declared
  · cases declared
  · cases declared
    cases isArray
    rcases List.mem_cons.1 isItem with rfl | isItem
    · rfl
    · rw [List.mem_singleton.1 isItem]
      rfl
  · cases declared

theorem branchesAgree {c : Context} (agree : ∀ row ∈ c.conds.toList,
    c.functionType row.2.thenBranch = c.functionType row.2.elseBranch) : c.BranchesAgree := by
  intro id d known ty typed
  rw [← agree (id, d) (Table.mem_toList_iff.2 known)]
  exact typed

end Greeting

open Greeting in
theorem types_sound_greeting :
    ∃ built, (greeting.build 7 = .ok built ∧ greeting.HonestLiterals ∧
        built.context.BranchesAgree ∧ (8 : Nat) ≠ 7) ∧
      (∃ function evaluation, built.context.functionType function = some .string ∧
        (built.evaluator false).evaluate (.function function) 8 = .ok evaluation ∧
        evaluation.value.baseType = .string) ∧
      (∀ root plan id value ty, Plan.build built.context root = .ok plan →
        (built.evaluator false).Binds plan.tree (.start 8 built.context.values) id value →
        built.mint.inferred? id = some ty → value.baseType = ty) ∧
      ∀ root plan p, Plan.build built.context root = .ok plan →
        (built.evaluator false).runTree plan.tree (.start 8 built.context.values) = .ok p →
        ∀ function ∈ p.completed, ∃ entry, built.context.functions[function]? = some entry ∧
          (built.evaluator false).BindsEntry plan.tree (.start 8 built.context.values) entry := by
  obtain ⟨built, builds, agree, function, evaluation, -, typed, evaluated, -⟩ := exists_built
  have agree := branchesAgree agree
  have apart : (8 : Nat) ≠ 7 := by decide
  obtain ⟨functions, bound⟩ := types_sound builds honestLiterals agree apart false
  exact ⟨built, ⟨builds, honestLiterals, agree, apart⟩,
    ⟨function, evaluation, typed, evaluated, functions function .string evaluation typed evaluated⟩,
    bound⟩

end Spec

end TagFlow
