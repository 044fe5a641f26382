import TagFlow.Typing

/-!
# Static types of growing graphs

While a graph is being built, types are asked for before the graph is complete. A type that is known
then stays known, and stays the same: it does not change when rows, functions and definitions are
added, nor when inference goes down further (`functionTypeWithin_mono`).
-/

namespace TagFlow

/-- An element type that is known better makes the result type known better. -/
theorem operationResultType_mono {name : String} {element element' : Option BaseType}
    {ty : BaseType} (known : ∀ t, element = some t → element' = some t)
    (typed : operationResultType name element = some ty) :
    operationResultType name element' = some ty := by
  unfold operationResultType at typed ⊢
  cases found : OperationSignature.find? name with
  | none =>
    rw [found] at typed
    cases typed
  | some op =>
    rw [found] at typed
    simp only [Option.bind_some, OperationSignature.resultType] at typed ⊢
    cases returns : op.returns with
    | type t =>
      rw [returns] at typed
      exact typed
    | element =>
      rw [returns] at typed
      exact known ty typed
    | sameAsInput =>
      rw [returns] at typed
      cases typed

namespace Context

/-- Every row, function and definition of the one graph is in the other, unchanged. -/
structure Extends (c c' : Context) : Prop where
  values : ∀ {id : ValueId} {value : Value}, c.values[id]? = some value → c'.values[id]? = some value
  functions : ∀ {id : FunctionId} {entry : FunctionEntry}, c.functions[id]? = some entry →
    c'.functions[id]? = some entry
  combines : ∀ {id : CombineId} {d : CombineDefinition}, c.combines[id]? = some d →
    c'.combines[id]? = some d
  pipes : ∀ {id : PipeId} {d : PipeDefinition}, c.pipes[id]? = some d → c'.pipes[id]? = some d
  conds : ∀ {id : CondId} {d : CondDefinition}, c.conds[id]? = some d → c'.conds[id]? = some d

namespace Extends

theorem refl (c : Context) : c.Extends c := ⟨id, id, id, id, id⟩

theorem trans {c₁ c₂ c₃ : Context} (first : c₁.Extends c₂) (second : c₂.Extends c₃) :
    c₁.Extends c₃ where
  values h := second.values (first.values h)
  functions h := second.functions (first.functions h)
  combines h := second.combines (first.combines h)
  pipes h := second.pipes (first.pipes h)
  conds h := second.conds (first.conds h)

end Extends

variable {c c' : Context} {ty : BaseType}

theorem elementOf?_extends (more : c.Extends c') {id : ValueId} (typed : c.elementOf? id = some ty) :
    c'.elementOf? id = some ty := by
  obtain ⟨value, row, element⟩ := Option.bind_eq_some_iff.1 typed
  exact Option.bind_eq_some_iff.2 ⟨value, more.values row, element⟩

theorem combineType_extends (more : c.Extends c') {id : CombineId}
    {element element' : Option BaseType} (known : ∀ t, element = some t → element' = some t)
    (typed : c.combineType id element = some ty) : c'.combineType id element' = some ty := by
  obtain ⟨d, found, result⟩ := Option.bind_eq_some_iff.1 typed
  exact Option.bind_eq_some_iff.2 ⟨d, more.combines found, operationResultType_mono known result⟩

theorem stepElement_extends (more : c.Extends c') {step : PipeStep}
    (typed : c.stepElement step = some ty) : c'.stepElement step = some ty := by
  unfold stepElement at typed ⊢
  split at typed
  · exact elementOf?_extends more typed
  · cases typed

/-! ### Steps and pipes -/

/-- The type of the output of a step, following a pipe for so many levels. -/
def stepType (c : Context) (levels : Nat) (step : PipeStep) : Option BaseType :=
  match step.body with
  | .combine id => c.combineType id (c.stepElement step)
  | .pipe id => c.pipeType levels id

/-- The type of a pipe is that of its last step, with one level less to follow a pipe there. -/
theorem pipeType_eq_some {levels : Nat} {id : PipeId} (typed : c.pipeType levels id = some ty) :
    ∃ d step, c.pipes[id]? = some d ∧ d.steps.getLast? = some step ∧
      ((∃ combine, step.body = .combine combine ∧
          c.combineType combine (c.stepElement step) = some ty) ∨
        ∃ inner lower, step.body = .pipe inner ∧ levels = lower + 1 ∧
          c.pipeType lower inner = some ty) := by
  unfold pipeType at typed
  split at typed
  · cases typed
  · next step last =>
    obtain ⟨d, found, isLast⟩ := Option.bind_eq_some_iff.1 last
    refine ⟨d, step, found, isLast, ?_⟩
    split at typed
    · next combine body => exact .inl ⟨combine, body, typed⟩
    · next inner lower body => exact .inr ⟨inner, lower, body, rfl, typed⟩
    · cases typed

theorem pipeType_combine {levels : Nat} {id : PipeId} {d : PipeDefinition} {step : PipeStep}
    {combine : CombineId} (found : c.pipes[id]? = some d) (last : d.steps.getLast? = some step)
    (body : step.body = .combine combine) :
    c.pipeType levels id = c.combineType combine (c.stepElement step) := by
  rw [pipeType.eq_def]
  dsimp only
  rw [found, Option.bind_some, last]
  simp only [body]

theorem pipeType_pipe {levels : Nat} {id inner : PipeId} {d : PipeDefinition} {step : PipeStep}
    (found : c.pipes[id]? = some d) (last : d.steps.getLast? = some step)
    (body : step.body = .pipe inner) : c.pipeType (levels + 1) id = c.pipeType levels inner := by
  rw [pipeType.eq_def]
  dsimp only
  rw [found, Option.bind_some, last]
  simp only [body]

theorem pipeType_extends (more : c.Extends c') : ∀ (levels : Nat) (id : PipeId),
    c.pipeType levels id = some ty → c'.pipeType levels id = some ty
  | levels, id, typed => by
    obtain ⟨d, step, found, last, ⟨combine, body, result⟩ | ⟨inner, lower, body, rfl, result⟩⟩ :=
      pipeType_eq_some typed
    · rw [pipeType_combine (more.pipes found) last body]
      exact combineType_extends more (fun _ => stepElement_extends more) result
    · rw [pipeType_pipe (more.pipes found) last body]
      exact pipeType_extends more lower inner result

theorem stepType_extends (more : c.Extends c') {levels : Nat} {step : PipeStep}
    (typed : c.stepType levels step = some ty) : c'.stepType levels step = some ty := by
  unfold stepType at typed ⊢
  split at typed
  · exact combineType_extends more (fun _ => stepElement_extends more) typed
  · exact pipeType_extends more levels _ typed

/-! ### Functions -/

/-- A type stays known when the graph grows, and when inference goes down further. -/
theorem functionTypeWithin_mono (more : c.Extends c') : ∀ (levels levels' : Nat) (id : FunctionId),
    levels ≤ levels' → c.functionTypeWithin levels id = some ty →
      c'.functionTypeWithin levels' id = some ty
  | levels, levels', id, deeper, typed => by
    unfold functionTypeWithin at typed ⊢
    split at typed
    · cases typed
    · next definition args returns known =>
      rw [more.functions known]
      refine combineType_extends more (fun t element => ?_) typed
      obtain ⟨arg, isHead, element⟩ := Option.bind_eq_some_iff.1 element
      exact Option.bind_eq_some_iff.2 ⟨arg, isHead, elementOf?_extends more element⟩
    · next definition args returns known =>
      rw [more.functions known]
      exact pipeType_extends more 1 definition typed
    · next definition returns known =>
      rw [more.functions known]
      dsimp only
      split at typed
      · next d lower found =>
        obtain ⟨lower', rfl⟩ : ∃ n, levels' = n + 1 := ⟨levels' - 1, by omega⟩
        rw [more.conds found]
        exact functionTypeWithin_mono more lower lower' d.thenBranch (by omega) typed
      · cases typed

theorem functionType_extends (more : c.Extends c') {id : FunctionId}
    (typed : c.functionType id = some ty) : c'.functionType id = some ty :=
  functionTypeWithin_mono more maxDepth maxDepth id (Nat.le_refl _) typed

end Context

end TagFlow
