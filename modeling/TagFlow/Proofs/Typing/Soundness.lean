import TagFlow.Proofs.Evaluation.Agreement
import TagFlow.Proofs.Operation.Results
import TagFlow.Proofs.Operation.Signature
import TagFlow.Proofs.Typing.Monotone

/-!
# Static types are right

Under the standard registry, what a node means has the type that is inferred for it
(`denote_sound`). This rests on three things (`Truthful`): the items of a row have the element type
that the row declares, rows have no producers, and both branches of a cond have the type that is
inferred for the first of them. For a combine or a pipe the first two are enough (`HonestRows`,
`denote_function_sound`), whatever is true of the conds in the graph.

Only one operation has a result type that depends on its arguments, and it takes it from a row.
Adapters in between do no harm, since they hand on arrays as they are.
-/

namespace TagFlow

namespace Context

/-- The type that is inferred for the first branch of a cond is inferred for the second as well. -/
def BranchesAgree (c : Context) : Prop :=
  ∀ (id : CondId) (d : CondDefinition), c.conds[id]? = some d →
    ∀ ty, c.functionType d.thenBranch = some ty → c.functionType d.elseBranch = some ty

/-- What the types that are inferred for a graph rest on. -/
structure Truthful (c : Context) : Prop where
  rows : ∀ {id : ValueId} {value : Value}, c.values[id]? = some value → value.Honest
  unproduced : ∀ {id : ValueId} {value : Value}, c.values[id]? = some value →
    c.producerOf? id = none
  branches : c.BranchesAgree

/-- What the types of combines and pipes rest on. -/
structure HonestRows (c : Context) : Prop where
  honest : ∀ {id : ValueId} {value : Value}, c.values[id]? = some value → value.Honest
  unproduced : ∀ {id : ValueId} {value : Value}, c.values[id]? = some value →
    c.producerOf? id = none

theorem Truthful.honestRows {c : Context} (truthful : c.Truthful) : c.HonestRows :=
  ⟨truthful.rows, truthful.unproduced⟩

/-- The type of a node, as far as it can be told without evaluating: a row has the type of its
value. -/
def nodeType (c : Context) : Node → Option BaseType
  | .value id => c.values[id]?.map (·.baseType)
  | .function id => c.functionType id

end Context

namespace Evaluator

variable {m : Evaluator} {ty : BaseType}

/-! ### Operations -/

/-- What a combine gives has the result type of its operation, where the first argument has the
items that are claimed of it. -/
theorem combine_sound (standard : m.registry = .standard) {function : FunctionId}
    {d : CombineDefinition} {left right value : Value} {element : Option BaseType}
    (typed : operationResultType d.operation element = some ty)
    (honest : ∀ t, element = some t → ∀ items, left.asArray? = some items →
      ∀ item ∈ items, item.baseType = t)
    (run : m.combine function d left right = .ok value) : value.baseType = ty := by
  obtain ⟨first, second, adapted, -, applied⟩ := combine_eq_ok run
  rw [standard] at adapted applied
  refine Registry.baseType_of_applyBinary typed (fun t known items isArray => ?_) applied
  have array : first.baseType = .array := by
    unfold Value.asArray? at isArray
    unfold Value.baseType
    cases raw : first.raw with
    | array => rfl
    | number | string | boolean | null =>
      rw [raw] at isArray
      cases isArray
  rw [Registry.eq_of_applyAdapter adapted array] at isArray
  exact honest t known items isArray

theorem denoteCombine_eq_ok {function : FunctionId} {id : CombineId} {arity : Nat → NodeFault}
    {values : List Value} {value : Value}
    (run : m.denoteCombine function id arity values = .ok value) :
    ∃ d left right, m.context.combines[id]? = some d ∧ values = [left, right] ∧
      m.combine function d left right = .ok value := by
  unfold denoteCombine at run
  split at run
  · cases run
  · next d found =>
    split at run
    · next left right => exact ⟨d, left, right, found, rfl, run⟩
    · cases run

theorem denoteCombine_sound (standard : m.registry = .standard) {function : FunctionId}
    {id : CombineId} {arity : Nat → NodeFault} {values : List Value} {value : Value}
    {element : Option BaseType} (typed : m.context.combineType id element = some ty)
    (honest : ∀ t, element = some t → ∃ first, values.head? = some first ∧
      ∀ items, first.asArray? = some items → ∀ item ∈ items, item.baseType = t)
    (run : m.denoteCombine function id arity values = .ok value) : value.baseType = ty := by
  obtain ⟨d, left, right, found, rfl, applied⟩ := denoteCombine_eq_ok run
  obtain ⟨d', found', result⟩ := Option.bind_eq_some_iff.1 typed
  rw [found] at found'
  cases found'
  refine combine_sound standard result (fun t known => ?_) applied
  obtain ⟨first, isFirst, items⟩ := honest t known
  cases isFirst
  exact items

/-! ### Pipes -/

/-- Arguments that have been read, each from its source. -/
theorem forall₂_of_denoteArguments {function : FunctionId} {inputs : List (String × Value)}
    {outputs : List Value} {args : List (String × Source)} {values : List (String × Value)}
    (read : m.denoteArguments function inputs outputs args = .ok values) :
    List.Forall₂ (fun arg value => value.1 = arg.1 ∧
      m.denoteSource function inputs outputs arg.2 = .ok value.2) args values := by
  refine List.Forall₂.imp ?_ (Result.forall₂_of_mapM read)
  intro arg value here
  obtain ⟨content, source, same⟩ := Result.bind_eq_ok.1 here
  cases same
  exact ⟨rfl, source⟩

/-- The first argument of a step has the items that are claimed of it. -/
theorem honest_of_stepElement (rows : m.context.HonestRows) {function : FunctionId}
    {inputs : List (String × Value)} {outputs : List Value} {step : PipeStep}
    {args : List (String × Value)} {t : BaseType}
    (known : m.context.stepElement step = some t)
    (read : m.denoteArguments function inputs outputs step.args = .ok args) :
    ∃ first, (args.map (·.2)).head? = some first ∧
      ∀ items, first.asArray? = some items → ∀ item ∈ items, item.baseType = t := by
  unfold Context.stepElement at known
  split at known
  · next name id rest isFirst =>
    obtain ⟨row, here, element⟩ := Option.bind_eq_some_iff.1 known
    rw [isFirst] at read
    cases forall₂_of_denoteArguments read with
    | @cons _ value _ _ first _ =>
      have same : readRow m.context.values id = .ok value.2 := first.2
      simp only [readRow, here] at same
      cases same
      exact ⟨_, rfl, rows.honest here t element⟩
  · cases known

/-- A pipe that gives a value has run all of its steps, and the last of them gave the value. -/
theorem denotePipe_ok {function : FunctionId} {id : PipeId} {inputs : List (String × Value)}
    {value : Value} (run : (m.denotePipe function id inputs).run = some (.ok value)) :
    ∃ d outputs, m.context.pipes[id]? = some d ∧
      (m.denoteSteps function inputs [] d.steps).run = some (.ok outputs) ∧
      outputs.getLast? = some value := by
  rw [denotePipe] at run
  cases known : m.context.pipes[id]? with
  | none =>
    rw [known] at run
    cases run
  | some d =>
    rw [known] at run
    dsimp only at run
    split at run
    · cases run
    · obtain ⟨_, -, run⟩ := Meaning.of_run_bind_ok run
      obtain ⟨outputs, steps, run⟩ := Meaning.of_run_bind_ok run
      split at run
      · next last isLast =>
        cases run
        exact ⟨d, outputs, rfl, steps, isLast⟩
      · cases run

/-- What is true of a successful pipe: its last step gave the value. -/
theorem of_denotePipe_ok {function : FunctionId} {id : PipeId} {inputs : List (String × Value)}
    {value : Value} {d : PipeDefinition} {step : PipeStep} (found : m.context.pipes[id]? = some d)
    (last : d.steps.getLast? = some step)
    (run : (m.denotePipe function id inputs).run = some (.ok value)) :
    ∃ outputs, (m.denoteStep function inputs outputs step).run = some (.ok value) := by
  obtain ⟨before, split⟩ := List.getLast?_eq_some_iff.1 last
  obtain ⟨d', outputs, known, steps, isLast⟩ := denotePipe_ok run
  cases found.symm.trans known
  rw [split, denoteSteps_append] at steps
  obtain ⟨earlier, -, steps⟩ := Meaning.of_run_bind_ok steps
  rw [denoteSteps_cons] at steps
  obtain ⟨output, ran, steps⟩ := Meaning.of_run_bind_ok steps
  rw [denoteSteps_nil] at steps
  cases steps
  rw [List.getLast?_concat] at isLast
  cases isLast
  exact ⟨earlier, ran⟩

/-- A combine step gives what its operation gives for the arguments that it reads. -/
theorem denoteStep_combine_ok {function : FunctionId} {inputs : List (String × Value)}
    {outputs : List Value} {step : PipeStep} {combine : CombineId} {value : Value}
    (body : step.body = .combine combine)
    (run : (m.denoteStep function inputs outputs step).run = some (.ok value)) :
    ∃ args, m.denoteArguments function inputs outputs step.args = .ok args ∧
      m.denoteCombine function combine (.stepArity outputs.length) (args.map (·.2)) = .ok value := by
  unfold denoteStep at run
  obtain ⟨args, read, run⟩ := Meaning.of_run_bind_ok run
  rw [Meaning.run_lift] at read
  rw [body] at run
  exact ⟨args, Option.some.inj read, Option.some.inj run⟩

/-- What a combine step gives has the result type of its operation. -/
theorem denoteStep_combine_sound (standard : m.registry = .standard)
    (rows : m.context.HonestRows) {function : FunctionId} {inputs : List (String × Value)}
    {outputs : List Value} {step : PipeStep} {combine : CombineId} {value : Value}
    (body : step.body = .combine combine)
    (typed : m.context.combineType combine (m.context.stepElement step) = some ty)
    (run : (m.denoteStep function inputs outputs step).run = some (.ok value)) :
    value.baseType = ty := by
  obtain ⟨args, read, applied⟩ := denoteStep_combine_ok body run
  exact denoteCombine_sound standard typed
    (fun t known => honest_of_stepElement rows known read) applied

/-- A step that runs a pipe gives what the pipe gives. -/
theorem denoteStep_pipe_ok {function : FunctionId} {inputs : List (String × Value)}
    {outputs : List Value} {step : PipeStep} {inner : PipeId} {value : Value}
    (body : step.body = .pipe inner)
    (run : (m.denoteStep function inputs outputs step).run = some (.ok value)) :
    ∃ args, m.denoteArguments function inputs outputs step.args = .ok args ∧
      (m.denotePipe function inner args).run = some (.ok value) := by
  unfold denoteStep at run
  obtain ⟨args, read, run⟩ := Meaning.of_run_bind_ok run
  rw [Meaning.run_lift] at read
  rw [body] at run
  exact ⟨args, Option.some.inj read, run⟩

/-- What a pipe gives has the type that is inferred for the pipe. -/
theorem denotePipe_sound (standard : m.registry = .standard) (rows : m.context.HonestRows)
    (function : FunctionId) : ∀ (levels : Nat) (id : PipeId) (inputs : List (String × Value))
    (value : Value), m.context.pipeType levels id = some ty →
      (m.denotePipe function id inputs).run = some (.ok value) → value.baseType = ty
  | levels, id, inputs, value, typed, run => by
    obtain ⟨d, step, found, last, ⟨combine, body, result⟩ | ⟨inner, lower, body, rfl, result⟩⟩ :=
      Context.pipeType_eq_some typed
    · obtain ⟨outputs, ran⟩ := of_denotePipe_ok found last run
      exact denoteStep_combine_sound standard rows body result ran
    · obtain ⟨outputs, ran⟩ := of_denotePipe_ok found last run
      obtain ⟨args, -, ran⟩ := denoteStep_pipe_ok body ran
      exact denotePipe_sound standard rows function lower inner args value result ran

/-- What a step gives has the type that is inferred for the step. -/
theorem denoteStep_sound (standard : m.registry = .standard) (rows : m.context.HonestRows)
    {function : FunctionId} {levels : Nat} {inputs : List (String × Value)} {outputs : List Value}
    {step : PipeStep} {value : Value} (typed : m.context.stepType levels step = some ty)
    (run : (m.denoteStep function inputs outputs step).run = some (.ok value)) :
    value.baseType = ty := by
  unfold Context.stepType at typed
  split at typed
  · next combine body => exact denoteStep_combine_sound standard rows body typed run
  · next inner body =>
    obtain ⟨args, -, run⟩ := denoteStep_pipe_ok body run
    exact denotePipe_sound standard rows function levels inner args value typed run

/-! ### Nodes -/

theorem forall₂_of_mapM_denote {args : List ValueId} : ∀ {values : List Value},
    (args.mapM fun value => m.denote (.value value)).run = some (.ok values) →
      List.Forall₂ (fun arg value => (m.denote (.value arg)).run = some (.ok value)) args values := by
  induction args with
  | nil =>
    intro values run
    cases run
    exact .nil
  | cons arg args ih =>
    intro values run
    rw [List.mapM_cons] at run
    obtain ⟨value, here, run⟩ := Meaning.of_run_bind_ok run
    obtain ⟨rest, later, run⟩ := Meaning.of_run_bind_ok run
    cases run
    exact .cons here (ih later)

/-- A row means itself, as rows have no producers. -/
theorem denote_row {id : ValueId} {value : Value} (unproduced : m.context.producerOf? id = none)
    (row : m.context.values[id]? = some value) :
    (m.denote (.value id)).run = some (.ok value) := by
  rw [denote]
  simp only [unproduced, readRow, row]
  rfl

/-- What a combine or pipe means has the type that is inferred for it. -/
theorem denote_function_sound (standard : m.registry = .standard) (rows : m.context.HonestRows)
    {id : FunctionId} {entry : FunctionEntry} (known : m.context.functions[id]? = some entry)
    (isArgs : entry.kind ≠ .cond) {value : Value} (typed : m.context.functionType id = some ty)
    (run : (m.denote (.function id)).run = some (.ok value)) : value.baseType = ty := by
  rw [denote_function known isArgs] at run
  obtain ⟨values, meanings, run⟩ := Meaning.of_run_bind_ok run
  unfold Context.functionType Context.functionTypeWithin at typed
  rw [known] at typed
  cases entry with
  | cond => exact absurd rfl isArgs
  | combine definition args returns =>
    have applied : m.denoteCombine id definition .combineArity values = .ok value :=
      Option.some.inj run
    refine denoteCombine_sound standard typed (fun t element => ?_) applied
    obtain ⟨arg, isHead, element⟩ := Option.bind_eq_some_iff.1 element
    obtain ⟨row, here, element⟩ := Option.bind_eq_some_iff.1 element
    obtain ⟨others, split⟩ := List.head?_eq_some_iff.1 isHead
    have meanings : List.Forall₂ _ args.values values := forall₂_of_mapM_denote meanings
    rw [split] at meanings
    cases meanings with
    | cons first rest =>
      rw [denote_row (rows.unproduced here) here] at first
      cases first
      exact ⟨_, rfl, rows.honest here t element⟩
  | pipe definition args returns =>
    exact denotePipe_sound standard rows id 1 definition _ value typed run

/-- What a node means has the type that is inferred for the node. -/
theorem denote_sound (standard : m.registry = .standard) (truthful : m.context.Truthful)
    {tree : Tree} (unfolds : tree.Unfolds m.context) : ∀ (ty : BaseType) (value : Value),
      m.context.nodeType tree.node = some ty → (m.denote tree.node).run = some (.ok value) →
      value.baseType = ty := by
  induction unfolds with
  | @value id unproduced =>
    intro ty value typed run
    obtain ⟨row, here, same⟩ := Option.map_eq_some_iff.1 typed
    rw [show (Tree.value id).node = .value id from rfl,
      denote_row (truthful.unproduced here) here] at run
    cases run
    exact same
  | @function id entry children known isArgs nodes unfold ih =>
    intro ty value typed run
    exact denote_function_sound standard truthful.honestRows known isArgs typed run
  | @cond id definition returns d condition thenBranch elseBranch known found conditionNode thenNode
      elseNode _ _ _ _ ihThen ihElse =>
    intro ty value typed run
    have typed : m.context.functionTypeWithin Context.maxDepth id = some ty := typed
    rw [show (Tree.cond id returns condition thenBranch elseBranch).node = .function id from rfl,
      denote_cond known found] at run
    obtain ⟨flag, -, run⟩ := Meaning.of_run_bind_ok run
    unfold Context.functionTypeWithin at typed
    rw [known] at typed
    dsimp only at typed
    rw [found] at typed
    -- the branch is typed with fewer levels left; with all of them it has the same type
    have typed : m.context.functionType d.thenBranch = some ty :=
      Context.functionTypeWithin_mono (.refl _) (Context.maxDepth - 1) Context.maxDepth _
        (Nat.sub_le _ _) typed
    unfold denoteChoice at run
    split at run
    · cases run
    · exact ihThen ty value (thenNode ▸ typed) (thenNode ▸ run)
    · have same := truthful.branches definition d found ty typed
      exact ihElse ty value (elseNode ▸ same) (elseNode ▸ run)

end Evaluator

end TagFlow
