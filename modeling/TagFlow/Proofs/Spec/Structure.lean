import TagFlow.Proofs.Spec.Built
import TagFlow.Proofs.Validation.Findings

/-!
# The shape of graphs that are built

Every graph that is built from a spec has the right shape (`build_shaped`), so that validating it
finds at most operations, adapters and types at fault, and pipes without steps.

That a pipe fits is known from the spec that it was lowered from: its steps were scoped under the
names of its inputs. For the pipe of a function entry this is what lowering has left
(`Compiled.exists_entry`), and a pipe that a step runs was scoped along with the step; since every
definition is used by some function, this makes all of them (`pipeScoped_of_known`). A cond is not run
by steps, so it belongs to a function entry itself.
-/

namespace TagFlow

open Result Lowering Names

namespace Spec.Compiled

variable {spec : Spec} {built : Built} {function : String} {name : String}

/-! ### What names stand for -/

theorem contains_function (compiled : Compiled spec built) {id : FunctionId} {returns : ValueId}
    (found : built.names[name]? = some (.function id returns)) :
    built.context.functions.contains id = true := by
  obtain ⟨⟨expr, isEntry⟩, -, -⟩ := compiled.registered.ofFunction found
  obtain ⟨_, entry, -, known, -, -⟩ := compiled.lowered isEntry found
  exact Table.contains_iff.2 ⟨entry, known⟩

/-- What an argument reads that is bound to a name. -/
theorem resolves_output (compiled : Compiled spec built) {binding : Binding}
    (found : built.names[name]? = some binding) :
    built.context.resolves binding.output = true := by
  cases binding with
  | literal id =>
    obtain ⟨value, -, row⟩ := compiled.registered.ofLiteral found
    exact Bool.or_eq_true_iff.2 (.inl (Table.contains_iff.2 ⟨value, row⟩))
  | function id returns =>
    obtain ⟨⟨expr, isEntry⟩, -, -⟩ := compiled.registered.ofFunction found
    obtain ⟨_, entry, -, known, rfl, -⟩ := compiled.lowered isEntry found
    have produced := compiled.orderly.exact.producerOf?_returns compiled.orderly.distinct known
    exact Bool.or_eq_true_iff.2 (.inr (Table.contains_iff.2 ⟨id, produced⟩))

theorem conditionResolves_node (compiled : Compiled spec built) {binding : Binding}
    (found : built.names[name]? = some binding) :
    built.context.conditionResolves binding.node = true := by
  cases binding with
  | literal id => exact compiled.resolves_output found
  | function id returns => exact compiled.contains_function found

/-! ### Steps of pipes -/

/-- Inputs of a lowered pipe have the names that they were bound under. -/
theorem names_inputs {α : Type} {draft : Draft} {typeOf : α → Option BaseType}
    {bindings : List (String × α)} {inputs : List PipeInput}
    (bound : InputsLowered draft typeOf bindings inputs) :
    inputs.map (·.name) = bindings.map (·.1) :=
  map_eq_of_forall₂ (fun _ _ related => related.1) bound

/-- The pipe was lowered from steps that were scoped under the names of its inputs. -/
structure PipeScoped (built : Built) (function : String) (d : PipeDefinition) : Prop where
  inputs : (d.inputs.map (·.name)).Nodup
  steps : ∃ exprs given, built.names.scopeSteps function (d.inputs.map (·.name)) 0 exprs = .ok given ∧
    StepsLowered ⟨built.mint, built.context⟩ function d.inputs [] given d.steps

/-- The definition, if it is a pipe, was lowered from scoped steps. -/
def DefinitionScoped (built : Built) : DefinitionId → Prop
  | .pipe id => ∃ d, built.context.pipes[id]? = some d ∧ ∃ function, PipeScoped built function d
  | _ => True

/-- Each step was scoped where it stands. -/
theorem exists_scoped_step {names : Names} {draft : Draft} {inputs : List PipeInput} :
    ∀ {exprs : List StepExpr} {given : List ScopedStep} {steps : List PipeStep}
      {outputs : List ValueId} {start index : Nat} {step : PipeStep},
      names.scopeSteps function (inputs.map (·.name)) start exprs = .ok given →
      StepsLowered draft function inputs outputs given steps → steps[index]? = some step →
      ∃ expr scopedStep before,
        names.scopeStep function (inputs.map (·.name)) (start + index) expr = .ok scopedStep ∧
        BodyLowered draft function inputs before scopedStep step.body step.args
  | [], given, steps, outputs, start, index, step, run, lowered, here => by
    cases scopeSteps_nil_eq_ok run
    cases lowered
    cases here
  | expr :: rest, given, steps, outputs, start, index, step, run, lowered, here => by
    obtain ⟨first, others, rfl, isScoped, later⟩ := scopeSteps_cons_eq_ok run
    cases lowered with
    | cons body _ _ lowered =>
      cases index with
      | zero =>
        cases here
        exact ⟨expr, first, outputs, isScoped, body⟩
      | succ index =>
        obtain ⟨expr, scopedStep, before, isScoped, body⟩ := exists_scoped_step later lowered here
        rw [Nat.add_right_comm] at isScoped
        exact ⟨expr, scopedStep, before, isScoped, body⟩

theorem sourceShaped (compiled : Compiled spec built) {d : PipeDefinition} {index : Nat}
    {argument : String} {target : Target} {source : Source}
    (run : built.names.resolveInPipe (d.inputs.map (·.name)) ⟨function, index, argument⟩ target =
      .ok source) : built.context.SourceShaped d index source := by
  rcases resolveInPipe_eq_ok run with ⟨_, -, isInput, rfl⟩ | ⟨_, -, earlier, rfl⟩ |
    ⟨name, id, -, found, rfl⟩
  · exact isInput
  · exact earlier
  · obtain ⟨value, -, row⟩ := compiled.registered.ofLiteral found
    exact ⟨value, row⟩

/-- A step that was scoped fits into its pipe, and a pipe that it runs was scoped as well. -/
theorem stepShaped_of_scoped (compiled : Compiled spec built) {d : PipeDefinition} {index : Nat}
    {expr : StepExpr} {scopedStep : ScopedStep} {before : List ValueId} {step : PipeStep}
    (run : built.names.scopeStep function (d.inputs.map (·.name)) index expr = .ok scopedStep)
    (lowered : BodyLowered ⟨built.mint, built.context⟩ function d.inputs before scopedStep step.body
      step.args) :
    built.context.StepShaped d index step ∧ DefinitionScoped built step.body.definition := by
  obtain ⟨body, args, output⟩ := step
  cases expr with
  | combine expr =>
    obtain ⟨a, b, first, second, -, -, resolved, resolved', rfl⟩ := scopeStep_combine_eq_ok run
    cases lowered with
    | combine found =>
      refine ⟨⟨⟨⟨_, found⟩, rfl⟩, fun arg isArg => ?_⟩, trivial⟩
      rcases List.mem_pair.1 isArg with rfl | rfl
      · exact compiled.sourceShaped resolved
      · exact compiled.sourceShaped resolved'
  | pipe bindings steps =>
    obtain ⟨bound, scopedSteps, rfl, follow, distinct, inner⟩ := scopeStep_pipe_eq_ok run
    cases lowered with
    | @pipe _ _ _ _ _ nested found _ _ slots stepsLowered =>
      have names := names_inputs slots
      rw [← names] at distinct inner
      refine ⟨⟨⟨nested, found, names.symm⟩, fun arg isArg => ?_⟩,
        nested, found, function, distinct, _, _, inner, stepsLowered⟩
      obtain ⟨_, -, -, resolved⟩ := exists_of_mem_right follow isArg
      exact compiled.sourceShaped resolved

namespace PipeScoped

theorem stepShaped (compiled : Compiled spec built) {d : PipeDefinition}
    (isScoped : PipeScoped built function d) {index : Nat} {step : PipeStep}
    (here : d.steps[index]? = some step) :
    built.context.StepShaped d index step ∧ DefinitionScoped built step.body.definition := by
  obtain ⟨exprs, given, run, lowered⟩ := isScoped.steps
  obtain ⟨expr, scopedStep, before, run, body⟩ := exists_scoped_step run lowered here
  rw [Nat.zero_add] at run
  exact compiled.stepShaped_of_scoped run body

theorem pipeShaped (compiled : Compiled spec built) {d : PipeDefinition}
    (isScoped : PipeScoped built function d) : built.context.PipeShaped d where
  inputs := isScoped.inputs
  steps here := (stepShaped compiled isScoped here).1

end PipeScoped

/-! ### Functions and definitions -/

/-- The arguments of a combine entry. -/
theorem ofList_pair {a b : String} (different : a ≠ b) (x y : ValueId) :
    let args := ArgMap.ofList [(a, x), (b, y)]
    args.names = [a, b] ∧ args.values = [x, y] := by
  have distinct : (Bindings.names [(a, x), (b, y)]).Nodup := by
    simpa [Bindings.names] using different
  exact ⟨ArgMap.names_ofList distinct, ArgMap.values_ofList distinct⟩

/-- The entry of a function has the shape that its form asks for, its arguments are bound to names of
the spec, and a pipe that it runs was scoped. -/
theorem entryShaped (compiled : Compiled spec built) {id : FunctionId} {entry : FunctionEntry}
    (known : built.context.functions[id]? = some entry) :
    built.context.EntryShaped entry ∧
      (∀ value ∈ entry.args.values, built.context.resolves value = true) ∧
      DefinitionScoped built entry.definition := by
  obtain ⟨name, expr, body, -, -, isScoped, lowered⟩ := compiled.exists_entry known
  cases expr with
  | combine expr =>
    obtain ⟨a, b, first, second, -, different, resolved, resolved', rfl⟩ :=
      scopeFunction_combine_eq_ok isScoped
    obtain ⟨_, -, found⟩ := resolve?_eq_some resolved
    obtain ⟨_, -, found'⟩ := resolve?_eq_some resolved'
    cases lowered with
    | @combine _ _ _ _ returns _ definition =>
      obtain ⟨names, values⟩ := ofList_pair different first.output second.output
      refine ⟨⟨⟨_, definition⟩, congrArg List.length names⟩, fun value isArg => ?_, trivial⟩
      rcases List.mem_pair.1 (values ▸ isArg) with rfl | rfl
      · exact compiled.resolves_output found
      · exact compiled.resolves_output found'
  | pipe bindings steps =>
    obtain ⟨bound, scopedSteps, rfl, -, distinct, inner⟩ := scopeFunction_pipe_eq_ok isScoped
    cases lowered with
    | @pipe _ _ _ _ d found _ _ slots stepsLowered =>
      obtain ⟨names, values⟩ := ofList_outputs distinct
      have inputs := names_inputs slots
      rw [← inputs] at distinct inner
      refine ⟨⟨d, found, names.trans inputs.symm⟩, fun value isArg => ?_,
        d, found, name, distinct, _, _, inner, stepsLowered⟩
      obtain ⟨binding, isBound, rfl⟩ := List.mem_map.1 (values ▸ isArg)
      obtain ⟨_, found⟩ := exists_name_of_scopeFunction isScoped binding isBound
      exact compiled.resolves_output found
  | cond condition thenBranch elseBranch =>
    obtain ⟨_, _, _, -, -, -, rfl⟩ := scopeFunction_cond_eq_ok isScoped
    cases lowered with
    | cond found =>
      refine ⟨⟨_, found⟩, fun value isArg => ?_, trivial⟩
      cases isArg

/-- What is run inside of a pipe that was scoped was scoped as well. -/
theorem definitionScoped_of_involves (compiled : Compiled spec built) {outer inner : DefinitionId}
    (involves : built.context.Involves outer inner) (start : DefinitionScoped built outer) :
    DefinitionScoped built inner := by
  induction involves with
  | refl => exact start
  | tail _ runs ih =>
    obtain ⟨id, d, rfl, known, listed⟩ := runs
    obtain ⟨d', known', function, isScoped⟩ := ih
    cases known.symm.trans known'
    obtain ⟨step, isStep, rfl⟩ := List.mem_map.1 listed
    obtain ⟨index, here⟩ := List.mem_iff_getElem?.1 isStep
    exact (isScoped.stepShaped compiled here).2

/-- Every pipe of the graph was scoped, as some function uses it. -/
theorem pipeScoped_of_known (compiled : Compiled spec built) {id : PipeId} {d : PipeDefinition}
    (known : built.context.pipes[id]? = some d) : ∃ function, PipeScoped built function d := by
  obtain ⟨function, entry, isFunction, involves⟩ :=
    compiled.used (.pipe id) (Table.contains_iff.2 ⟨d, known⟩)
  obtain ⟨d', known', isScoped⟩ :=
    compiled.definitionScoped_of_involves involves (compiled.entryShaped isFunction).2.2
  cases known.symm.trans known'
  exact isScoped

/-- A cond is run by a function, whose names have been followed. -/
theorem condShaped (compiled : Compiled spec built) {id : CondId} {d : CondDefinition}
    (known : built.context.conds[id]? = some d) : built.context.CondShaped d := by
  obtain ⟨function, entry, isFunction, involves⟩ :=
    compiled.used (.cond id) (Table.contains_iff.2 ⟨d, known⟩)
  have runs := Context.eq_of_involves_cond involves
  obtain ⟨name, expr, body, -, -, isScoped, lowered⟩ := compiled.exists_entry isFunction
  cases lowered with
  | combine => cases runs
  | pipe => cases runs
  | cond found =>
    cases runs
    cases known.symm.trans found
    cases expr with
    | combine expr =>
      obtain ⟨_, _, _, _, -, -, -, -, same⟩ := scopeFunction_combine_eq_ok isScoped
      cases same
    | pipe bindings steps =>
      obtain ⟨_, _, same, -⟩ := scopeFunction_pipe_eq_ok isScoped
      cases same
    | cond condition thenBranch elseBranch =>
      obtain ⟨binding, thenId, elseId, named, ⟨_, isThen⟩, ⟨_, isElse⟩, same⟩ :=
        scopeFunction_cond_eq_ok isScoped
      cases same
      exact ⟨compiled.conditionResolves_node named, compiled.contains_function isThen,
        compiled.contains_function isElse⟩

theorem shaped (compiled : Compiled spec built) : built.context.Shaped where
  functions known := (compiled.entryShaped known).1
  arguments known := (compiled.entryShaped known).2.1
  pipes known := by
    obtain ⟨function, isScoped⟩ := compiled.pipeScoped_of_known known
    exact isScoped.pipeShaped compiled
  conds known := compiled.condShaped known
  nesting := compiled.consistent.acyclic
  writers := compiled.orderly.distinct
  returns {function value} writes := by
    cases row : built.context.values[value]? with
    | none => rfl
    | some content => exact absurd writes (compiled.not_writes_row row function)

end Spec.Compiled

namespace Spec

/-- Whatever is built has the right shape, its rows are the literals of the spec, and validation finds
nothing wrong with its shape. -/
theorem build_shaped {spec : Spec} {session : Nat} {built : Built}
    (builds : spec.build session = .ok built) (registry : Registry) :
    (∀ e ∈ (built.context.validate registry).errors, e.code ∉ Context.structuralCodes) ∧
      built.context.Shaped ∧
      ∀ (id : ValueId) (value : Value), built.context.values[id]? = some value →
        ∃ name, (name, .literal value) ∈ spec.entries ∧ built.names[name]? = some (.literal id) := by
  have compiled := compiled_of_build builds
  refine ⟨fun e found => ?_, compiled.shaped, fun id value row => ?_⟩
  · exact Context.code_notMem_structuralCodes compiled.shaped found
  · exact compiled.registered.rows row

theorem build_shaped_greeting : ∃ built, greeting.build 7 = .ok built ∧
    (∀ e ∈ (built.context.validate .standard).errors, e.code ∉ Context.structuralCodes) ∧
      built.context.Shaped ∧
      ∀ (id : ValueId) (value : Value), built.context.values[id]? = some value →
        ∃ name, (name, .literal value) ∈ greeting.entries ∧
          built.names[name]? = some (.literal id) := by
  obtain ⟨built, builds, -⟩ := Greeting.exists_built
  exact ⟨built, builds, build_shaped builds .standard⟩

end Spec

end TagFlow
