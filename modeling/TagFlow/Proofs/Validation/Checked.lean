import TagFlow.Proofs.Table
import TagFlow.Validation.Check

/-!
# What a graph without errors is like

`Checked` says of the tables of a graph what each check of the validation looks for. A validation
that reports no error establishes it (`checked_of_isValid`).
-/

namespace TagFlow.Context

/-- All that the checks look for, apart from types. -/
structure Checked (c : Context) (registry : Registry) : Prop where
  definition : ∀ {function : FunctionId} {entry : FunctionEntry},
    c.functions[function]? = some entry → c.hasDefinition entry.definition = true
  arguments : ∀ {function : FunctionId} {entry : FunctionEntry} {value : ValueId},
    c.functions[function]? = some entry → value ∈ entry.args.values → c.resolves value = true
  combineArguments : ∀ {function : FunctionId} {definition : CombineId} {args : ArgMap}
    {returns : ValueId}, c.functions[function]? = some (.combine definition args returns) →
      args.entries.length = 2
  pipeArguments : ∀ {function : FunctionId} {definition : PipeId} {args : ArgMap}
    {returns : ValueId} {d : PipeDefinition},
    c.functions[function]? = some (.pipe definition args returns) →
    c.pipes[definition]? = some d →
      (∀ input ∈ d.inputs, args.contains input.name = true) ∧
        ∀ name ∈ args.names, (d.input? name).isSome
  operation : ∀ {id : CombineId} {d : CombineDefinition}, c.combines[id]? = some d →
    registry.hasBinary d.operation = true
  adapters : ∀ {id : CombineId} {d : CombineDefinition}, c.combines[id]? = some d →
    registry.hasAdapter d.first.adapter = true ∧ registry.hasAdapter d.second.adapter = true
  steps : ∀ {id : PipeId} {d : PipeDefinition}, c.pipes[id]? = some d → d.steps ≠ []
  stepDefinition : ∀ {id : PipeId} {d : PipeDefinition} {step : PipeStep},
    c.pipes[id]? = some d → step ∈ d.steps → c.hasDefinition step.body.definition = true
  stepArguments : ∀ {id : PipeId} {d : PipeDefinition} {index : Nat} {step : PipeStep}
    {name : String} {source : Source}, c.pipes[id]? = some d → d.steps[index]? = some step →
      (name, source) ∈ step.args → c.sourceResolves d index source = true
  condition : ∀ {id : CondId} {d : CondDefinition}, c.conds[id]? = some d →
    c.conditionResolves d.condition = true
  branches : ∀ {id : CondId} {d : CondDefinition}, c.conds[id]? = some d →
    c.functions.contains d.thenBranch = true ∧ c.functions.contains d.elseBranch = true

variable {c : Context} {registry : Registry}

/-! ### Single checks -/

theorem hasDefinition_of_checkDefinition {function : FunctionId} {entry : FunctionEntry}
    (clean : c.checkDefinition function entry = []) : c.hasDefinition entry.definition = true := by
  unfold checkDefinition at clean
  split at clean
  · assumption
  · cases clean

theorem resolves_of_checkArguments {function : FunctionId} {args : ArgMap} {value : ValueId}
    (clean : c.checkArguments function args = []) (isArg : value ∈ args.values) :
    c.resolves value = true := by
  obtain ⟨⟨name, value⟩, isEntry, rfl⟩ := List.mem_map.1 isArg
  have nothing := List.filterMap_eq_nil_iff.1 clean (name, value) isEntry
  by_contra unresolved
  simp [unresolved] at nothing

theorem length_of_checkCombineUse {function : FunctionId} {definition : CombineId} {args : ArgMap}
    (clean : c.checkCombineUse function definition args = []) : args.entries.length = 2 := by
  unfold checkCombineUse at clean
  split at clean
  · next h => rw [h]; rfl
  · cases clean

theorem names_of_checkPipeUse {function : FunctionId} {definition : PipeId} {args : ArgMap}
    {d : PipeDefinition} (clean : c.checkPipeUse function definition args = [])
    (known : c.pipes[definition]? = some d) :
    (∀ input ∈ d.inputs, args.contains input.name = true) ∧
      ∀ name ∈ args.names, (d.input? name).isSome := by
  unfold checkPipeUse at clean
  rw [known] at clean
  dsimp only at clean
  split at clean
  · next complete =>
    simp only [Bool.and_eq_true, List.isEmpty_iff, List.filter_eq_nil_iff, List.mem_map,
      forall_exists_index, and_imp, forall_apply_eq_imp_iff₂, Bool.not_eq_true,
      Bool.not_eq_false'] at complete
    refine ⟨complete.1, fun name isName => ?_⟩
    rw [← Option.not_isNone]
    simpa using complete.2 name isName
  · cases clean

theorem hasBinary_of_checkOperation {id : CombineId} {operation : String}
    (clean : checkOperation registry id operation = []) : registry.hasBinary operation = true := by
  unfold checkOperation at clean
  split at clean
  · cases clean
  · split at clean
    · assumption
    · cases clean

theorem hasAdapter_of_checkSlot {id : CombineId} {operation adapter : String} {slot : Nat}
    {expected : OperationSignature → Parameter}
    (clean : checkSlot registry id operation slot adapter expected = []) :
    registry.hasAdapter adapter = true := by
  unfold checkSlot at clean
  split at clean
  · cases clean
  · split at clean
    · cases clean
    · next known => simpa using known

theorem checkStep_eq_nil {id : PipeId} {d : PipeDefinition} {index : Nat} {step : PipeStep}
    (clean : c.checkStep id d index step = []) :
    c.hasDefinition step.body.definition = true ∧
      ∀ name source, (name, source) ∈ step.args → c.sourceResolves d index source = true := by
  obtain ⟨definition, sources⟩ := List.append_eq_nil_iff.1 clean
  refine ⟨?_, fun name source isArg => ?_⟩
  · by_contra missing
    simp [missing] at definition
  · have nothing := List.filterMap_eq_nil_iff.1 sources (name, source) isArg
    by_contra unresolved
    simp [unresolved] at nothing

theorem contains_of_checkBranch {id : CondId} {branch : Branch} {function : FunctionId}
    (clean : c.checkBranch id branch function = []) : c.functions.contains function = true := by
  by_contra missing
  simp [checkBranch, missing] at clean

/-! ### All checks -/

/-- A validation without errors establishes all that the checks look for. -/
theorem checked_of_isValid (valid : (c.validate registry).isValid = true) : c.Checked registry := by
  have clean : c.validationErrors registry = [] := List.isEmpty_iff.1 valid
  unfold validationErrors at clean
  simp only [List.append_eq_nil_iff, List.flatMap_eq_nil_iff, Prod.forall,
    Table.mem_toList_iff] at clean
  obtain ⟨⟨⟨⟨functions, -⟩, combines⟩, pipes⟩, conds⟩ := clean
  have functionParts : ∀ {function : FunctionId} {entry : FunctionEntry},
      c.functions[function]? = some entry → _ :=
    fun {function entry} known => List.append_eq_nil_iff.1 (functions function entry known)
  -- steps are checked under their index, so one is found by it
  have pipeSteps : ∀ {id : PipeId} {d : PipeDefinition}, c.pipes[id]? = some d →
      ∀ {index : Nat} {step : PipeStep}, d.steps[index]? = some step →
      c.checkStep id d index step = [] := by
    intro id d known index step isStep
    have all := (List.append_eq_nil_iff.1 (pipes id d known)).2
    refine List.flatten_eq_nil_iff.1 all _ (List.mem_iff_getElem?.2 ⟨index, ?_⟩)
    rw [List.getElem?_mapIdx, isStep]
    rfl
  refine
    { definition := fun known => hasDefinition_of_checkDefinition
        (List.append_eq_nil_iff.1 (functionParts known).1).1
      arguments := fun known isArg => resolves_of_checkArguments
        (List.append_eq_nil_iff.1 (functionParts known).1).2 isArg
      combineArguments := fun known => length_of_checkCombineUse (functionParts known).2
      pipeArguments := fun known found => names_of_checkPipeUse (functionParts known).2 found
      operation := fun known => ?_
      adapters := fun known => ?_
      steps := fun known => ?_
      stepDefinition := fun known isStep => ?_
      stepArguments := fun known isStep isArg =>
        (checkStep_eq_nil (pipeSteps known isStep)).2 _ _ isArg
      condition := fun known => ?_
      branches := fun known => ?_ }
  · have parts := List.append_eq_nil_iff.1 (combines _ _ known)
    exact hasBinary_of_checkOperation (List.append_eq_nil_iff.1 parts.1).1
  · have parts := List.append_eq_nil_iff.1 (combines _ _ known)
    exact ⟨hasAdapter_of_checkSlot (List.append_eq_nil_iff.1 parts.1).2,
      hasAdapter_of_checkSlot parts.2⟩
  · intro none
    have parts := List.append_eq_nil_iff.1 (pipes _ _ known)
    simp [none] at parts
  · obtain ⟨index, isStep⟩ := List.mem_iff_getElem?.1 isStep
    exact (checkStep_eq_nil (pipeSteps known isStep)).1
  · have parts := List.append_eq_nil_iff.1 (conds _ _ known)
    by_contra missing
    simp [missing] at parts
  · have parts := List.append_eq_nil_iff.1 (conds _ _ known)
    exact ⟨contains_of_checkBranch (List.append_eq_nil_iff.1 parts.1).2,
      contains_of_checkBranch parts.2⟩

end TagFlow.Context
