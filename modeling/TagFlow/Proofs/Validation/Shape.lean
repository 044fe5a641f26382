import TagFlow.Proofs.Graph.Nesting
import TagFlow.Proofs.Graph.Producers
import TagFlow.Validation.Check

/-!
# The shape of a graph

`Shaped` says of a graph that everything it names is there and fits: definitions exist, combines have
two arguments and pipes just their inputs, steps read what comes before them, and every value has one
writer or is a row. It says nothing about operations, adapters and types.

Here stands what each check makes of a graph of this shape: the checks of definitions, arguments,
outputs, steps and conds find nothing. The other checks depend on the registry and on types.
-/

namespace TagFlow.Context

/-! ### Shapes -/

/-- What runs a definition with arguments of these names: a combine takes two, a pipe one for each of
its inputs. -/
def BodyShaped (c : Context) (names : List String) : StepBody → Prop
  | .combine id => (∃ d, c.combines[id]? = some d) ∧ names.length = 2
  | .pipe id => ∃ d, c.pipes[id]? = some d ∧ names = d.inputs.map (·.name)

def EntryShaped (c : Context) : FunctionEntry → Prop
  | .combine id args _ => c.BodyShaped args.names (.combine id)
  | .pipe id args _ => c.BodyShaped args.names (.pipe id)
  | .cond id _ => ∃ d, c.conds[id]? = some d

/-- Where the step with this index of a pipe may read from: its inputs, earlier steps and rows. -/
def SourceShaped (c : Context) (d : PipeDefinition) (index : Nat) : Source → Prop
  | .input name => name ∈ d.inputs.map (·.name)
  | .step earlier => earlier < index
  | .value id => ∃ value, c.values[id]? = some value

/-- The step with this index of a pipe. -/
structure StepShaped (c : Context) (d : PipeDefinition) (index : Nat) (step : PipeStep) : Prop where
  body : c.BodyShaped (Bindings.names step.args) step.body
  sources : ∀ arg ∈ step.args, c.SourceShaped d index arg.2

structure PipeShaped (c : Context) (d : PipeDefinition) : Prop where
  inputs : (d.inputs.map (·.name)).Nodup
  steps : ∀ {index : Nat} {step : PipeStep}, d.steps[index]? = some step → c.StepShaped d index step

structure CondShaped (c : Context) (d : CondDefinition) : Prop where
  condition : c.conditionResolves d.condition = true
  thenBranch : c.functions.contains d.thenBranch = true
  elseBranch : c.functions.contains d.elseBranch = true

/-- Everything that the graph names is there and fits. -/
structure Shaped (c : Context) : Prop where
  functions : ∀ {function : FunctionId} {entry : FunctionEntry},
    c.functions[function]? = some entry → c.EntryShaped entry
  arguments : ∀ {function : FunctionId} {entry : FunctionEntry},
    c.functions[function]? = some entry → ∀ value ∈ entry.args.values, c.resolves value = true
  pipes : ∀ {id : PipeId} {d : PipeDefinition}, c.pipes[id]? = some d → c.PipeShaped d
  conds : ∀ {id : CondId} {d : CondDefinition}, c.conds[id]? = some d → c.CondShaped d
  nesting : c.NestingAcyclic
  writers : c.DistinctReturns
  /-- What a function writes is no row. -/
  returns : ∀ {function : FunctionId} {value : ValueId}, c.Writes function value →
    c.values[value]? = none

/-! ### Checks of functions -/

variable {c : Context}

theorem isSome_input? {d : PipeDefinition} {name : String} :
    (d.input? name).isSome ↔ name ∈ d.inputs.map (·.name) := by
  unfold PipeDefinition.input?
  simp only [List.find?_isSome, beq_iff_eq, List.mem_map]

theorem contains_args {args : ArgMap} {name : String} :
    args.contains name = true ↔ name ∈ args.names := by
  unfold ArgMap.contains ArgMap.get? ArgMap.names Bindings.names
  rw [List.lookup_isSome_iff, List.mem_map]
  simp only [beq_iff_eq, @eq_comm _ name]

theorem checkDefinition_eq_nil (id : FunctionId) {entry : FunctionEntry}
    (shaped : c.EntryShaped entry) : c.checkDefinition id entry = [] := by
  have exist : c.hasDefinition entry.definition = true := by
    cases entry with
    | combine definition args returns => exact Table.contains_iff.2 shaped.1
    | pipe definition args returns =>
      obtain ⟨d, known, -⟩ := shaped
      exact Table.contains_iff.2 ⟨d, known⟩
    | cond definition returns => exact Table.contains_iff.2 shaped
  exact if_pos exist

theorem checkArguments_eq_nil (id : FunctionId) {args : ArgMap}
    (resolve : ∀ value ∈ args.values, c.resolves value = true) : c.checkArguments id args = [] := by
  apply List.filterMap_eq_nil_iff.2
  intro arg isArg
  exact if_pos (resolve arg.2 (List.mem_map_of_mem isArg))

theorem checkPipeUse_eq_nil (id : FunctionId) {definition : PipeId} {args : ArgMap}
    {returns : ValueId} (shaped : c.EntryShaped (.pipe definition args returns)) :
    c.checkPipeUse id definition args = [] := by
  obtain ⟨d, known, names⟩ := shaped
  have missing : (d.inputs.map (·.name)).filter (! args.contains ·) = [] := by
    apply List.filter_eq_nil_iff.2
    intro name isInput
    rw [contains_args.2 (names ▸ isInput)]
    decide
  have extra : (args.names.filter fun name => (d.input? name).isNone) = [] := by
    apply List.filter_eq_nil_iff.2
    intro name isName
    rw [Option.isNone_iff_eq_none, ← Option.not_isSome_iff_eq_none]
    exact not_not_intro (isSome_input?.2 (names ▸ isName))
  unfold checkPipeUse
  rw [known]
  dsimp only
  rw [missing, extra]
  rfl

/-! ### Checks of outputs -/

theorem getElem?_writersByValue (c : Context) (value : ValueId) :
    (c.writersByValue[value]?).getD [] = c.writers value := by
  unfold writersByValue writers
  induction c.functions.toList with
  | nil => rw [List.foldr_nil, Std.ExtTreeMap.getElem?_empty]; rfl
  | cons row rest ih =>
    obtain ⟨id, entry⟩ := row
    rw [List.foldr_cons, Table.getElem?_insert, List.filter_cons]
    by_cases same : entry.returns = value
    · rw [if_pos same, if_pos (beq_iff_eq.2 same), same, ih]
      rfl
    · rw [if_neg same, if_neg (fun h => same (beq_iff_eq.1 h)), ih]

theorem nodup_writers (c : Context) (value : ValueId) : (c.writers value).Nodup :=
  (List.filter_sublist.map _).nodup (Table.nodup_map_toList c.functions)

theorem checkWriters_eq_nil (distinct : c.DistinctReturns) : c.checkWriters = [] := by
  apply List.filterMap_eq_nil_iff.2
  rintro ⟨value, functions⟩ isRow
  have same : functions = c.writers value := by
    rw [← getElem?_writersByValue, Table.mem_toList_iff.1 isRow]
    rfl
  have few : ¬ functions.length > 1 := by
    intro many
    subst same
    obtain ⟨first, second, rest, listed⟩ : ∃ first second rest,
        c.writers value = first :: second :: rest := by
      match listed : c.writers value, many with
      | first :: second :: rest, _ => exact ⟨first, second, rest, rfl⟩
    have unique := nodup_writers c value
    have all : ∀ function ∈ c.writers value, c.Writes function value :=
      fun function isWriter => mem_writers.1 isWriter
    rw [listed] at unique all
    have agree := distinct (all first List.mem_cons_self)
      (all second (List.mem_cons_of_mem _ List.mem_cons_self))
    exact (List.nodup_cons.1 unique).1 (agree ▸ List.mem_cons_self)
  exact if_neg few

/-! ### Checks of definitions -/

theorem sourceResolves_of_shaped {d : PipeDefinition} {index : Nat} {source : Source}
    (shaped : c.SourceShaped d index source) : c.sourceResolves d index source = true := by
  cases source with
  | input name => exact isSome_input?.2 shaped
  | step earlier => exact decide_eq_true shaped
  | value id => exact Bool.or_eq_true_iff.2 (.inl (Table.contains_iff.2 shaped))

theorem checkStep_eq_nil_of_shaped (id : PipeId) {d : PipeDefinition} {index : Nat}
    {step : PipeStep} (shaped : c.StepShaped d index step) : c.checkStep id d index step = [] := by
  have exist : c.hasDefinition step.body.definition = true := by
    have body := shaped.body
    cases runs : step.body with
    | combine inner =>
      rw [runs] at body
      exact Table.contains_iff.2 body.1
    | pipe inner =>
      rw [runs] at body
      obtain ⟨e, known, -⟩ := body
      exact Table.contains_iff.2 ⟨e, known⟩
  unfold checkStep
  rw [if_pos exist, List.nil_append, List.filterMap_eq_nil_iff]
  intro arg isArg
  exact if_pos (sourceResolves_of_shaped (shaped.sources arg isArg))

/-- A pipe may be empty, and nothing else is wrong with it. -/
theorem eq_emptySequence_of_mem {id : PipeId} {d : PipeDefinition} (shaped : c.PipeShaped d)
    {e : ValidationError} (found : e ∈ c.checkPipe id d) : e = .emptySequence id ∧ d.steps = [] := by
  rcases List.mem_append.1 found with empty | inStep
  · split at empty
    · next none => exact ⟨List.mem_singleton.1 empty, List.isEmpty_iff.1 none⟩
    · cases empty
  · obtain ⟨errors, isStep, found⟩ := List.mem_flatten.1 inStep
    obtain ⟨index, here⟩ := List.mem_iff_getElem?.1 isStep
    rw [List.getElem?_mapIdx] at here
    obtain ⟨step, atIndex, same⟩ := Option.map_eq_some_iff.1 here
    rw [← same, checkStep_eq_nil_of_shaped id (shaped.steps atIndex)] at found
    cases found

theorem checkCond_eq_nil (id : CondId) {d : CondDefinition} (shaped : c.CondShaped d) :
    c.checkCond id d = [] := by
  unfold checkCond checkBranch
  rw [if_pos shaped.condition, if_pos shaped.thenBranch, if_pos shaped.elseBranch]
  rfl

/-- The codes of the errors about the shape of a graph. -/
def structuralCodes : List String :=
  ["V0001", "V0002", "V0008", "V0009", "V0010", "V0011", "V0014", "V0015", "V0016"]

end TagFlow.Context
