import TagFlow.Proofs.Spec.Built

/-!
# Which adapters lowering chooses

An argument without an explicit adapter goes through the pass adapter of the type that is known for it at
the moment when it is lowered. This module says which type that is.

Inside of a pipe the moment does not matter: the type of an input is that of what the input is bound to,
the type of a step is the one that is inferred for it, and both are still the same in the complete graph
(`StepsAdapted.grows`). Outside it does: the type of another function is what is inferred for it in the
graph of the functions that were lowered before (`Built.before`), so that nothing is known about functions
that come later (`Spec.adapted_of_build`).

What can go wrong is that a type is not known yet and would be known later. For a definition that stands in
the graph together with all that it runs there is no such type (`BodyAdapted.stepType_eq`), and lowering
inserts definitions after what they run.
-/

namespace TagFlow

open Result

namespace Context

variable {c c' : Context} {keep : FunctionId → Bool}

/-- The graph with just some of its functions. -/
def keepFunctions (c : Context) (keep : FunctionId → Bool) : Context :=
  { c with functions := c.functions.filter fun id _ => keep id }

theorem getElem?_keepFunctions {id : FunctionId} {entry : FunctionEntry} :
    (c.keepFunctions keep).functions[id]? = some entry ↔
      c.functions[id]? = some entry ∧ keep id = true := by
  show (c.functions.filter fun id _ => keep id)[id]? = some entry ↔ _
  rw [Std.ExtTreeMap.getElem?_filter', Option.filter_eq_some_iff]

/-- What is kept of the functions of a larger graph is what the smaller one has. -/
theorem Extends.functions_keepFunctions (more : c.Extends c')
    (kept : ∀ {id : FunctionId} {entry : FunctionEntry}, c'.functions[id]? = some entry →
      (keep id = true ↔ ∃ old, c.functions[id]? = some old)) :
    (c'.keepFunctions keep).functions = c.functions := by
  refine Std.ExtTreeMap.ext_getElem? fun id => Option.ext fun entry => ?_
  rw [getElem?_keepFunctions]
  constructor
  · rintro ⟨found, isKept⟩
    obtain ⟨old, known⟩ := (kept found).1 isKept
    cases (more.functions known).symm.trans found
    exact known
  · intro known
    exact ⟨more.functions known, (kept (more.functions known)).2 ⟨entry, known⟩⟩

theorem Extends.keepFunctions (more : c.Extends c')
    (functions : (c'.keepFunctions keep).functions = c.functions) :
    c.Extends (c'.keepFunctions keep) where
  values := more.values
  functions known := functions ▸ known
  combines := more.combines
  pipes := more.pipes
  conds := more.conds

end Context

namespace Lowering

/-! ### Adapters by types -/

/-- The type of what a step reads, in a pipe whose inputs and earlier steps have these types. -/
def typeIn (values : ValueTable) (inputs : List (String × Option BaseType))
    (outputs : List (Option BaseType)) : Source → Option BaseType
  | .input name => (inputs.lookup name).join
  | .step index => outputs[index]?.join
  | .value id => values[id]?.map (·.baseType)

mutual

/-- The body of a step, in a pipe whose inputs and earlier steps have these types: adapters are those
asked for, or else the pass adapters of just the types that the arguments have. -/
inductive BodyAdapted (c : Context) :
    List (String × Option BaseType) → List (Option BaseType) → ScopedStep → StepBody → Prop
  | combine {inputs outputs operation a b id} {d : CombineDefinition} :
      c.combines[id]? = some d → d.operation = operation →
      d.first.adapter = adapterFor a.adapter (typeIn c.values inputs outputs a.source) →
      d.second.adapter = adapterFor b.adapter (typeIn c.values inputs outputs b.source) →
      BodyAdapted c inputs outputs (.combine operation a b) (.combine id)
  | pipe {inputs outputs bindings steps id} {d : PipeDefinition} :
      c.pipes[id]? = some d →
      StepsAdapted c (bindings.map fun binding => (binding.1, typeIn c.values inputs outputs binding.2))
        [] steps d.steps →
      BodyAdapted c inputs outputs (.pipe bindings steps) (.pipe id)

/-- The steps of a pipe: each has the type that is inferred for it. -/
inductive StepsAdapted (c : Context) :
    List (String × Option BaseType) → List (Option BaseType) → List ScopedStep → List PipeStep → Prop
  | nil {inputs outputs} : StepsAdapted c inputs outputs [] []
  | cons {inputs outputs given rest steps} {step : PipeStep} :
      BodyAdapted c inputs outputs given step.body →
      StepsAdapted c inputs (outputs ++ [c.stepType 1 step]) rest steps →
      StepsAdapted c inputs outputs (given :: rest) (step :: steps)

end

/-- The entry of a function, where what names stand for has these types. -/
inductive FunctionAdapted (c : Context) (typeOf : Binding → Option BaseType) :
    ScopedFunction → FunctionEntry → Prop
  | combine {operation a b id args returns} {d : CombineDefinition} :
      c.combines[id]? = some d → d.operation = operation →
      d.first.adapter = adapterFor a.adapter (typeOf a.source) →
      d.second.adapter = adapterFor b.adapter (typeOf b.source) →
      FunctionAdapted c typeOf (.combine operation a b) (.combine id args returns)
  | pipe {bindings steps id args returns} {d : PipeDefinition} :
      c.pipes[id]? = some d →
      StepsAdapted c (bindings.map fun binding => (binding.1, typeOf binding.2)) [] steps d.steps →
      FunctionAdapted c typeOf (.pipe bindings steps) (.pipe id args returns)
  | cond {condition thenBranch elseBranch id returns} {d : CondDefinition} :
      c.conds[id]? = some d →
      FunctionAdapted c typeOf (.cond condition thenBranch elseBranch) (.cond id returns)

/-! ### Types do not become known later -/

variable {c c' : Context} {inputs : List (String × Option BaseType)}
  {outputs : List (Option BaseType)} {ty : BaseType}

/-- Each step of the pipe is adapted, after what comes before it. -/
theorem StepsAdapted.exists_body {given : List ScopedStep} {steps : List PipeStep} :
    ∀ {outputs : List (Option BaseType)}, StepsAdapted c inputs outputs given steps →
      ∀ step ∈ steps, ∃ outputs' given', BodyAdapted c inputs outputs' given' step.body := by
  induction given generalizing steps with
  | nil =>
    intro outputs adapted step isStep
    cases adapted
    cases isStep
  | cons first rest ih =>
    intro outputs adapted step isStep
    cases adapted with
    | cons body adapted =>
      rcases List.mem_cons.1 isStep with rfl | isStep
      · exact ⟨outputs, first, body⟩
      · exact ih adapted step isStep

theorem stepElement_eq (values : c'.values = c.values) (step : PipeStep) :
    c'.stepElement step = c.stepElement step := by
  unfold Context.stepElement Context.elementOf?
  rw [values]

/-- A type that is inferred for a pipe later could be inferred as soon as it was there. -/
theorem StepsAdapted.pipeType_of_later (more : c.Extends c') (values : c'.values = c.values) :
    ∀ (levels : Nat) {id : PipeId} {d : PipeDefinition} {given : List ScopedStep}
      {inputs : List (String × Option BaseType)} {outputs : List (Option BaseType)},
      c.pipes[id]? = some d → StepsAdapted c inputs outputs given d.steps →
      c'.pipeType levels id = some ty → c.pipeType levels id = some ty
  | levels, id, d, given, inputs, outputs, found, adapted, typed => by
    obtain ⟨d', step, found', last, body⟩ := Context.pipeType_eq_some typed
    cases (more.pipes found).symm.trans found'
    obtain ⟨_, _, isAdapted⟩ := adapted.exists_body step (List.mem_of_getLast? last)
    rcases body with ⟨combine, isCombine, result⟩ | ⟨inner, lower, isPipe, rfl, result⟩
    · rw [isCombine] at isAdapted
      cases isAdapted with
      | combine known =>
        rw [Context.pipeType_combine found last isCombine]
        unfold Context.combineType at result ⊢
        rwa [known, ← stepElement_eq values, ← more.combines known]
    · rw [isPipe] at isAdapted
      cases isAdapted with
      | pipe known steps =>
        rw [Context.pipeType_pipe found last isPipe]
        exact pipeType_of_later more values lower known steps result

/-- The type of a pipe is known as soon as the pipe is there. -/
theorem StepsAdapted.pipeType_eq (more : c.Extends c') (values : c'.values = c.values) {levels : Nat}
    {id : PipeId} {d : PipeDefinition} {given : List ScopedStep} (found : c.pipes[id]? = some d)
    (adapted : StepsAdapted c inputs outputs given d.steps) :
    c'.pipeType levels id = c.pipeType levels id := by
  ext ty
  exact ⟨adapted.pipeType_of_later more values levels found,
    Context.pipeType_extends more levels id⟩

theorem combineType_eq (more : c.Extends c') {id : CombineId} {d : CombineDefinition}
    (found : c.combines[id]? = some d) (element : Option BaseType) :
    c'.combineType id element = c.combineType id element := by
  unfold Context.combineType
  rw [found, more.combines found]

/-- The type of a step is known as soon as what it runs is there. -/
theorem BodyAdapted.stepType_eq (more : c.Extends c') (values : c'.values = c.values)
    {given : ScopedStep} {step : PipeStep} (adapted : BodyAdapted c inputs outputs given step.body) :
    c'.stepType 1 step = c.stepType 1 step := by
  unfold Context.stepType
  cases body : step.body with
  | combine id =>
    rw [body] at adapted
    cases adapted with
    | combine found =>
      dsimp only
      rw [stepElement_eq values, combineType_eq more found]
  | pipe id =>
    rw [body] at adapted
    cases adapted with
    | pipe found steps => exact steps.pipeType_eq more values found

mutual

theorem BodyAdapted.grows (more : c.Extends c') (values : c'.values = c.values) :
    ∀ (given : ScopedStep) {inputs : List (String × Option BaseType)}
      {outputs : List (Option BaseType)} {body : StepBody},
      BodyAdapted c inputs outputs given body → BodyAdapted c' inputs outputs given body
  | .combine operation a b, inputs, outputs, body, adapted => by
    cases adapted with
    | combine found same first second =>
      exact .combine (more.combines found) same (values ▸ first) (values ▸ second)
  | .pipe bindings steps, inputs, outputs, body, adapted => by
    cases adapted with
    | pipe found adapted =>
      exact .pipe (more.pipes found) (values ▸ StepsAdapted.grows more values steps adapted)

theorem StepsAdapted.grows (more : c.Extends c') (values : c'.values = c.values) :
    ∀ (given : List ScopedStep) {inputs : List (String × Option BaseType)}
      {outputs : List (Option BaseType)} {steps : List PipeStep},
      StepsAdapted c inputs outputs given steps → StepsAdapted c' inputs outputs given steps
  | [], inputs, outputs, steps, adapted => by
    cases adapted
    exact .nil
  | given :: rest, inputs, outputs, steps, adapted => by
    cases adapted with
    | cons body adapted =>
      refine .cons (BodyAdapted.grows more values given body) ?_
      rw [body.stepType_eq more values]
      exact StepsAdapted.grows more values rest adapted

end

theorem FunctionAdapted.grows (more : c.Extends c') (values : c'.values = c.values)
    {typeOf : Binding → Option BaseType} {body : ScopedFunction} {entry : FunctionEntry}
    (adapted : FunctionAdapted c typeOf body entry) : FunctionAdapted c' typeOf body entry := by
  cases adapted with
  | combine found same first second => exact .combine (more.combines found) same first second
  | pipe found steps => exact .pipe (more.pipes found) (steps.grows more values)
  | cond found => exact .cond (more.conds found)

/-- Every function of the graph has been lowered. -/
def AllAdapted (c : Context) : Prop :=
  ∀ (id : FunctionId) (entry : FunctionEntry), c.functions[id]? = some entry →
    ∃ typeOf body, FunctionAdapted c typeOf body entry

/-- As long as no function is added, types of functions do not become known. -/
theorem AllAdapted.functionTypeWithin_eq (all : AllAdapted c) (more : c.Extends c')
    (values : c'.values = c.values) (functions : c'.functions = c.functions) (levels : Nat)
    (id : FunctionId) : c'.functionTypeWithin levels id = c.functionTypeWithin levels id := by
  induction levels using Nat.strongRecOn generalizing id with
  | ind levels ih =>
    unfold Context.functionTypeWithin
    rw [functions]
    cases known : c.functions[id]? with
    | none => rfl
    | some entry =>
      obtain ⟨typeOf, body, adapted⟩ := all id entry known
      cases adapted with
      | @combine _ _ _ _ args _ _ found =>
        have element : c'.elementOf? = c.elementOf? := by
          unfold Context.elementOf?
          rw [values]
        dsimp only
        rw [element, combineType_eq more found]
      | pipe found steps => exact steps.pipeType_eq more values found
      | cond found =>
        dsimp only
        rw [found, more.conds found]
        cases levels with
        | zero => rfl
        | succ lower => exact ih lower (Nat.lt_succ_self lower) _

/-! ### Lowering chooses adapters by these types -/

variable {α β : Type} {draft later : Draft} {builder : Builder}

theorem Safely.and {x : Lowering α} {ok ok' : α → Draft → Prop} (first : Safely x builder ok)
    (second : Safely x builder ok') : Safely x builder fun a after => ok a after ∧ ok' a after :=
  ⟨first.1, first.2, second.2⟩

/-- The inputs of a pipe with the types that are recorded for their slots. -/
def inputTypes (draft : Draft) (inputs : List PipeInput) : List (String × Option BaseType) :=
  inputs.map fun input => (input.name, draft.mint.inferred? input.slot)

/-- The types that are recorded for the outputs of steps. -/
def outputTypes (draft : Draft) (outputs : List ValueId) : List (Option BaseType) :=
  outputs.map draft.mint.inferred?

theorem sourceType_eq_typeIn (inputs : List PipeInput) (outputs : List ValueId) (source : Source) :
    sourceType draft inputs outputs source =
      typeIn draft.context.values (inputTypes draft inputs) (outputTypes draft outputs) source := by
  cases source with
  | value id => rfl
  | step index =>
    show outputs[index]?.bind _ = (outputs.map draft.mint.inferred?)[index]?.join
    rw [List.getElem?_map]
    cases outputs[index]? <;> rfl
  | input name =>
    show ((inputs.find? (·.name == name)).bind _) = ((inputTypes draft inputs).lookup name).join
    induction inputs with
    | nil => rfl
    | cons input rest ih =>
      rw [inputTypes, List.map_cons, List.lookup_cons, List.find?_cons]
      by_cases here : input.name = name
      · rw [beq_iff_eq.2 here, beq_iff_eq.2 here.symm]
        rfl
      · rw [beq_eq_false_iff_ne.2 here, beq_eq_false_iff_ne.2 (Ne.symm here)]
        exact ih

theorem Environment.inputTypes_eq {inputs : List PipeInput} {outputs : List ValueId}
    (environment : Environment draft inputs outputs) (grows : draft.Grows later) :
    inputTypes later inputs = inputTypes draft inputs :=
  List.map_congr_left fun input isInput => by
    rw [inferred?_grows grows (environment.slots input isInput) (by decide) (by decide)]

theorem Environment.outputTypes_eq {inputs : List PipeInput} {outputs : List ValueId}
    (environment : Environment draft inputs outputs) (grows : draft.Grows later) :
    outputTypes later outputs = outputTypes draft outputs :=
  List.map_congr_left fun output isOutput =>
    inferred?_grows grows (environment.steps output isOutput) (by decide) (by decide)

/-- The slots of the inputs of a pipe get the types of what the inputs are bound to. -/
theorem adapted_pipeInputs (function : String) (typeOf : Draft → α → Option BaseType)
    (types : α → Option BaseType) : ∀ (bindings : List (String × α)) (builder : Builder),
    builder.Consistent →
      (∀ before : Draft, builder.Grows before → before.context = builder.context →
        ∀ a, typeOf before a = types a) →
      Safely (pipeInputs function typeOf bindings) builder fun inputs after =>
        after.context = builder.context ∧ (∀ input ∈ inputs, after.Issued input.slot .pipeInput) ∧
          inputTypes after inputs = bindings.map fun binding => (binding.1, types binding.2)
  | [], builder, consistent, _ => safely_pure consistent ⟨rfl, (by simp), rfl⟩
  | (name, source) :: rest, builder, consistent, stable => by
    apply safely_get
    refine (safely_issue_typed consistent .value (function ++ "." ++ name) .pipeInput
      (typeOf builder source) (by decide) (PipeInput.mk name)).bind ?_
    rintro _ δ₁ becomes₁ ⟨same₁, slot, rfl, known, -⟩
    refine (adapted_pipeInputs function typeOf types rest δ₁ becomes₁.consistent
      fun before grows same => stable before (becomes₁.grows.trans grows) (same.trans same₁)).bind ?_
    rintro inputs δ₂ becomes₂ ⟨same₂, issued, typed⟩
    have known := becomes₂.grows.record? known (by decide) (by decide)
    refine safely_pure becomes₂.consistent ⟨same₂.trans same₁, ?_, ?_⟩
    · intro input isInput
      rcases List.mem_cons.1 isInput with rfl | isInput
      · exact ⟨_, _, known⟩
      · exact issued input isInput
    · have here : δ₂.mint.inferred? slot = types source := by
        unfold Mint.inferred?
        rw [known]
        exact stable builder (.refl _) rfl source
      rw [inputTypes, List.map_cons, here, List.map_cons]
      exact congrArg _ typed

/-- The type of a combine step is inferred from its operation and its first argument. -/
theorem stepType_combine_eq {operation : String} {a b : ScopedArg Source} {id : CombineId}
    {d : CombineDefinition} (values : later.context.values = draft.context.values)
    (found : later.context.combines[id]? = some d) (same : d.operation = operation)
    (output : ValueId) :
    later.context.stepType 1 ⟨.combine id, [(a.name, a.source), (b.name, b.source)], output⟩ =
      operationResultType operation (sourceElement draft a.source) := by
  have element : later.context.stepElement
      ⟨.combine id, [(a.name, a.source), (b.name, b.source)], output⟩ =
      sourceElement draft a.source := by
    rw [stepElement_eq values]
    cases a.source <;> rfl
  show later.context.combineType id (later.context.stepElement _) = _
  rw [element, Context.combineType, found]
  exact congrArg (operationResultType · _) same

theorem outputTypes_append (outputs : List ValueId) {output : ValueId} {label : String}
    {origin : Origin} {ty : Option BaseType}
    (known : draft.mint.record? output = some ⟨label, origin, ty⟩) :
    outputTypes draft (outputs ++ [output]) = outputTypes draft outputs ++ [ty] := by
  have here : draft.mint.inferred? output = ty := by
    unfold Mint.inferred?
    rw [known]
    rfl
  rw [outputTypes, List.map_append, List.map_singleton, here]
  rfl

mutual

/-- Lowering a step: the type that is then recorded for its output is the one that is inferred. -/
theorem adapted_lowerStep (function : String) : ∀ (given : ScopedStep) (inputs : List PipeInput)
    (outputs : List ValueId) (builder : Builder), builder.Consistent → Environment builder inputs outputs →
    StepGrounded builder.context.values given →
    Safely (lowerStep function inputs outputs given) builder fun result after =>
      BodyAdapted after.context (inputTypes builder inputs) (outputTypes builder outputs) given result.1 ∧
        ∀ output, result.2.2 = after.context.stepType 1 ⟨result.1, result.2.1, output⟩
  | .combine operation a b, inputs, outputs, builder, consistent, environment, grounded => by
    rw [lowerStep]
    apply safely_get
    apply (safely_combineDefinition consistent operation _ _).bind
    rintro id δ becomes ⟨-, d, found, same, first, second⟩
    rw [sourceType_eq_typeIn, ← becomes.values] at first second
    exact safely_pure becomes.consistent ⟨.combine found same first second,
      fun output => (stepType_combine_eq becomes.values found same output).symm⟩
  | .pipe bindings steps, inputs, outputs, builder, consistent, environment, grounded => by
    unfold StepGrounded at grounded
    rw [lowerStep]
    -- the slots of the nested pipe take nothing away from what is known in the outer one
    have stable : ∀ before : Draft, builder.Grows before → before.context = builder.context →
        ∀ source, sourceType before inputs outputs source = typeIn builder.context.values
          (inputTypes builder inputs) (outputTypes builder outputs) source := by
      intro before grows same source
      rw [sourceType_eq_typeIn, same, environment.inputTypes_eq grows,
        environment.outputTypes_eq grows]
    refine ((safely_pipeInputs function (fun draft => sourceType draft inputs outputs) bindings builder
      consistent fun before after a t h grows => sourceType_grows (environment.grows h) grows).and
      (adapted_pipeInputs function _ _ bindings builder consistent stable)).bind ?_
    rintro nested δ₁ becomes₁ ⟨⟨-, bound, distinct, -⟩, -, -, types⟩
    have grounded₁ : StepsGrounded δ₁.context.values steps := becomes₁.values ▸ grounded.2.2
    refine ((safely_lowerSteps function steps nested [] δ₁ becomes₁.consistent bound.environment
      grounded₁).and (adapted_lowerSteps function steps nested [] δ₁ becomes₁.consistent
      bound.environment grounded₁)).bind ?_
    rintro lowered δ₂ becomes₂ ⟨⟨adds, stepsLowered⟩, adapted⟩
    refine (safely_definePipe function bound distinct becomes₂ stepsLowered adds grounded₁).bind ?_
    rintro id δ₃ becomes₃ ⟨-, found, -, -⟩
    have adapted := adapted.grows becomes₃.grows.context becomes₃.values
    have values : δ₃.context.values = builder.context.values :=
      becomes₃.values.trans (becomes₂.values.trans becomes₁.values)
    rw [types, ← values] at adapted
    exact safely_get (safely_pure becomes₃.consistent ⟨.pipe found adapted, fun _ => rfl⟩)

/-- Lowering the remaining steps of a pipe. -/
theorem adapted_lowerSteps (function : String) : ∀ (given : List ScopedStep)
    (inputs : List PipeInput) (outputs : List ValueId) (builder : Builder), builder.Consistent →
    Environment builder inputs outputs → StepsGrounded builder.context.values given →
    Safely (lowerSteps function inputs outputs given) builder fun steps after =>
      StepsAdapted after.context (inputTypes builder inputs) (outputTypes builder outputs) given steps
  | [], inputs, outputs, builder, consistent, _, _ => by
    rw [lowerSteps]
    exact safely_pure consistent .nil
  | given :: rest, inputs, outputs, builder, consistent, environment, grounded => by
    unfold StepsGrounded at grounded
    rw [lowerSteps]
    refine (adapted_lowerStep function given inputs outputs builder consistent environment
      grounded.1).bind ?_
    rintro ⟨body, args, ty⟩ δ₁ becomes₁ ⟨adapted₁, typed⟩
    refine (safely_issue_typed becomes₁.consistent .value
      (function ++ ".step" ++ toString outputs.length) .pipeStep ty (by decide) id).bind ?_
    rintro output δ₂ becomes₂ ⟨-, _, rfl, known, -⟩
    have environment₂ := (environment.grows becomes₁.grows).grows becomes₂.grows
    refine (adapted_lowerSteps function rest inputs (outputs ++ [output]) δ₂ becomes₂.consistent
      (environment₂.append ⟨_, _, known⟩)
      (becomes₂.values ▸ becomes₁.values ▸ grounded.2)).bind ?_
    rintro steps δ₃ becomes₃ adapted
    have more : δ₁.context.Extends δ₃.context := becomes₂.grows.context.trans becomes₃.grows.context
    have values : δ₃.context.values = δ₁.context.values := becomes₃.values.trans becomes₂.values
    let step : PipeStep := ⟨body, args, output⟩
    have adapted₁ : BodyAdapted δ₁.context (inputTypes builder inputs) (outputTypes builder outputs) given
        step.body := adapted₁
    have same : ty = δ₃.context.stepType 1 step :=
      (typed output).trans (adapted₁.stepType_eq more values).symm
    have grows₂ := becomes₁.grows.trans becomes₂.grows
    rw [outputTypes_append outputs known, environment.inputTypes_eq grows₂,
      environment.outputTypes_eq grows₂, same] at adapted
    exact safely_pure becomes₃.consistent (.cons (adapted₁.grows more values given) adapted)

end

/-- Lowering the body of a function: types of names are those that are known before. -/
theorem adapted_lowerFunction (consistent : builder.Consistent) (function : String) (returns : ValueId)
    (body : ScopedFunction) (grounded : FunctionGrounded builder.context.values body) :
    Safely (lowerFunction function returns body) builder fun entry after =>
      FunctionAdapted after.context (bindingType builder) body entry := by
  cases body with
  | combine operation a b =>
    apply safely_get
    apply (safely_combineDefinition consistent operation _ _).bind
    rintro id δ becomes ⟨-, d, found, same, first, second⟩
    exact safely_pure becomes.consistent (.combine found same first second)
  | pipe bindings steps =>
    have stable : ∀ before : Draft, builder.Grows before → before.context = builder.context →
        ∀ binding, bindingType before binding = bindingType builder binding := by
      intro before _ same binding
      unfold bindingType
      rw [same]
    refine ((safely_pipeInputs function bindingType bindings builder consistent
      fun before after a t _ grows => bindingType_grows grows).and
      (adapted_pipeInputs function _ _ bindings builder consistent stable)).bind ?_
    rintro inputs δ₁ becomes₁ ⟨⟨-, bound, distinct, -⟩, -, -, types⟩
    have grounded₁ : StepsGrounded δ₁.context.values steps := becomes₁.values ▸ grounded.2
    refine ((safely_lowerSteps function steps inputs [] δ₁ becomes₁.consistent bound.environment
      grounded₁).and (adapted_lowerSteps function steps inputs [] δ₁ becomes₁.consistent
      bound.environment grounded₁)).bind ?_
    rintro lowered δ₂ becomes₂ ⟨⟨adds, stepsLowered⟩, adapted⟩
    refine (safely_definePipe function bound distinct becomes₂ stepsLowered adds grounded₁).bind ?_
    rintro id δ₃ becomes₃ ⟨-, found, -, -⟩
    have adapted := adapted.grows becomes₃.grows.context becomes₃.values
    rw [types] at adapted
    exact safely_pure becomes₃.consistent (.pipe found adapted)
  | cond condition thenBranch elseBranch =>
    obtain ⟨becomes, -, found⟩ :=
      safely_condDefinition consistent function ⟨condition, thenBranch, elseBranch⟩
    exact ⟨becomes, .cond found⟩

/-! ### Lowering entries -/

/-- Lowering an entry: types of names are those that are known before. -/
theorem adapted_lowerEntry (consistent : builder.Consistent) (entry : Pending)
    (ready : Ready builder entry) :
    let after := ((lowerEntry entry).run builder).2
    ∃ lowered, after.context.functions[entry.id]? = some lowered ∧
      FunctionAdapted after.context (bindingType builder) entry.body lowered := by
  obtain ⟨becomes, adapted⟩ :=
    adapted_lowerFunction consistent entry.name entry.returns entry.body ready.grounded
  intro after
  let lowered := ((lowerFunction entry.name entry.returns entry.body).run builder).1
  let middle := ((lowerFunction entry.name entry.returns entry.body).run builder).2
  have new : middle.context.functions[entry.id]? = none := by
    rw [becomes.functions]
    exact ready.new
  have inserted := Draft.insertFunction_of_new lowered new
  rw [show after.context = middle.context.insertFunction entry.id lowered from rfl]
  refine ⟨lowered, ?_, adapted.grows (Draft.extends_insertFunction lowered new) ?_⟩
  · rw [inserted]
    exact Table.getElem?_insert_self
  · rw [inserted]

/-- After some entries have been lowered the others are still ready. -/
theorem ready_forM (lowered : List Pending) {others : List Pending} (consistent : builder.Consistent)
    (ready : ∀ entry ∈ lowered ++ others, Ready builder entry)
    (distinct : ((lowered ++ others).map (·.id)).Nodup) :
    ∀ entry ∈ others, Ready ((lowered.forM lowerEntry).run builder).2 entry := by
  rw [List.map_append, List.nodup_append] at distinct
  obtain ⟨-, grows, values, -, -, only⟩ := forM_lowerEntry_spec lowered builder consistent
    (fun entry isEntry => ready entry (List.mem_append_left _ isEntry)) distinct.1
  intro entry isOther
  have before := ready entry (List.mem_append_right _ isOther)
  refine ⟨?_, before.function.grows grows, before.returns.grows grows, values ▸ before.grounded⟩
  rw [Option.eq_none_iff_forall_ne_some]
  intro known found
  rcases only entry.id known found with old | ⟨other, isLowered, same, -⟩
  · exact absurd (before.new.symm.trans old) (by simp)
  · exact distinct.2.2 _ (List.mem_map_of_mem isLowered) _ (List.mem_map_of_mem isOther) same

theorem allAdapted_lowerEntry (consistent : builder.Consistent) (all : AllAdapted builder.context)
    (entry : Pending) (ready : Ready builder entry) :
    AllAdapted ((lowerEntry entry).run builder).2.context := by
  obtain ⟨lowered, known, adapted⟩ := adapted_lowerEntry consistent entry ready
  obtain ⟨-, grows, values, _, -, -, -, table⟩ := lowerEntry_spec consistent entry ready
  intro id other here
  by_cases same : entry.id = id
  · subst same
    cases known.symm.trans here
    exact ⟨_, _, adapted⟩
  · rw [table, Table.getElem?_insert_of_ne same] at here
    obtain ⟨typeOf, body, adapted⟩ := all id other here
    exact ⟨typeOf, body, adapted.grows grows.context values⟩

theorem allAdapted_forM : ∀ (pending : List Pending) (builder : Builder), builder.Consistent →
    AllAdapted builder.context → (∀ entry ∈ pending, Ready builder entry) →
    (pending.map (·.id)).Nodup → AllAdapted ((pending.forM lowerEntry).run builder).2.context
  | [], _, _, all, _, _ => all
  | entry :: rest, builder, consistent, all, ready, distinct => by
    have isReady := ready entry List.mem_cons_self
    exact allAdapted_forM rest _ (lowerEntry_spec consistent entry isReady).1
      (allAdapted_lowerEntry consistent all entry isReady)
      (ready_forM [entry] consistent ready distinct) (List.nodup_cons.1 distinct).2

theorem run_forM_append : ∀ (earlier later : List Pending) (builder : Builder),
    (((earlier ++ later).forM lowerEntry).run builder).2 =
      ((later.forM lowerEntry).run ((earlier.forM lowerEntry).run builder).2).2
  | [], _, _ => rfl
  | entry :: rest, later, builder => run_forM_append rest later ((lowerEntry entry).run builder).2

/-- Types of names are those that are inferred from the functions that have been lowered before, even in a
graph that has grown since. -/
theorem AllAdapted.bindingType_eq (all : AllAdapted draft.context)
    (more : draft.context.Extends later.context) (values : later.context.values = draft.context.values)
    {keep : FunctionId → Bool}
    (functions : (later.context.keepFunctions keep).functions = draft.context.functions) :
    bindingType ⟨later.mint, later.context.keepFunctions keep⟩ = bindingType draft := by
  funext binding
  cases binding with
  | literal id => exact congrArg (fun values : ValueTable => values[id]?.map (·.baseType)) values
  | function id returns =>
    exact all.functionTypeWithin_eq (more.keepFunctions functions) values functions _ id

/-- Whatever is lowered later, the types by which an entry was lowered are those that are inferred from
the functions of the entries before it. -/
theorem adapted_forM {earlier others : List Pending} {entry : Pending} (consistent : builder.Consistent)
    (empty : builder.context.functions = ∅)
    (ready : ∀ other ∈ earlier ++ entry :: others, Ready builder other)
    (distinct : ((earlier ++ entry :: others).map (·.id)).Nodup) {keep : FunctionId → Bool}
    (keeps : ∀ id, keep id = true ↔ ∃ other ∈ earlier, other.id = id) :
    let after := (((earlier ++ entry :: others).forM lowerEntry).run builder).2
    ∃ lowered, after.context.functions[entry.id]? = some lowered ∧
      FunctionAdapted after.context (bindingType ⟨after.mint, after.context.keepFunctions keep⟩)
        entry.body lowered := by
  intro after
  have readyEarlier : ∀ other ∈ earlier, Ready builder other :=
    fun other isEarlier => ready other (List.mem_append_left _ isEarlier)
  have ready := ready_forM earlier consistent ready distinct
  have isReady := ready entry List.mem_cons_self
  rw [List.map_append, List.nodup_append] at distinct
  obtain ⟨distinctEarlier, distinctOthers, -⟩ := distinct
  have noFunctions : ∀ {id : FunctionId} {e : FunctionEntry},
      builder.context.functions[id]? ≠ some e := by
    intro id e known
    rw [empty] at known
    cases Std.ExtTreeMap.getElem?_empty.symm.trans known
  -- the moment when the entry is lowered
  let moment := ((earlier.forM lowerEntry).run builder).2
  have all : AllAdapted moment.context :=
    allAdapted_forM earlier builder consistent (fun _ _ known => absurd known noFunctions) readyEarlier
      distinctEarlier
  obtain ⟨consistent, -, -, -, known, only⟩ :=
    forM_lowerEntry_spec earlier builder consistent readyEarlier distinctEarlier
  obtain ⟨lowered, here, adapted⟩ := adapted_lowerEntry consistent entry isReady
  -- and what has become of the builder since
  obtain ⟨consistent₁, grows₁, values₁, -⟩ := lowerEntry_spec consistent entry isReady
  obtain ⟨-, grows₂, values₂, -⟩ := forM_lowerEntry_spec others _ consistent₁
    (ready_forM [entry] consistent ready distinctOthers)
    (List.nodup_cons.1 distinctOthers).2
  rw [show ((others.forM lowerEntry).run ((lowerEntry entry).run moment).2).2 = after from
    (run_forM_append earlier (entry :: others) builder).symm] at grows₂ values₂
  have more : moment.context.Extends after.context := grows₁.context.trans grows₂.context
  have functions : (after.context.keepFunctions keep).functions = moment.context.functions := by
    refine more.functions_keepFunctions fun {id e} found => ?_
    rw [keeps]
    constructor
    · rintro ⟨other, isEarlier, rfl⟩
      obtain ⟨e', found', -⟩ := known other isEarlier
      exact ⟨e', found'⟩
    · rintro ⟨e', found'⟩
      rcases only id e' found' with old | ⟨other, isEarlier, same, -⟩
      · exact absurd old noFunctions
      · exact ⟨other, isEarlier, same⟩
  refine ⟨lowered, grows₂.context.functions here, ?_⟩
  rw [all.bindingType_eq more (values₂.trans values₁) functions]
  exact adapted.grows grows₂.context values₂

end Lowering

/-! ### The graph at the moment when an entry is lowered -/

/-- The graph without the functions of this entry and of those that come after it. -/
def Built.before (built : Built) (spec : Spec) (name : String) : Context :=
  let earlier := (spec.entries.takeWhile (·.1 != name)).filterMap fun entry => built.function? entry.1
  built.context.keepFunctions fun id => decide (id ∈ earlier)

namespace Spec

open Lowering

variable {spec : Spec} {built : Built}

/-- Entries are scoped one after the other. -/
theorem scope_append {names : Names} : ∀ (first : List (String × SpecEntry))
    {second : List (String × SpecEntry)} {pending : List Pending},
    scope names (first ++ second) = .ok pending →
    ∃ earlier later, scope names first = .ok earlier ∧ scope names second = .ok later ∧
      pending = earlier ++ later
  | [], _, pending, run => ⟨[], pending, rfl, run, rfl⟩
  | (name, .literal value) :: rest, second, pending, run =>
    scope_append rest (show scope names (rest ++ second) = .ok pending from run)
  | (name, .function expr) :: rest, second, pending, run => by
    by_cases registered : ∃ id returns, names[name]? = some (.function id returns)
    · obtain ⟨id, returns, found⟩ := registered
      obtain ⟨body, others, isScoped, isRest, rfl⟩ := (scope_function_eq_ok found).1 run
      obtain ⟨earlier, later, isFirst, isSecond, rfl⟩ := scope_append rest isRest
      exact ⟨⟨name, id, returns, body⟩ :: earlier, later,
        (scope_function_eq_ok found).2 ⟨body, earlier, isScoped, isFirst, rfl⟩, isSecond, rfl⟩
    · rw [List.cons_append, scope_of_unregistered registered] at run
      rw [scope_of_unregistered registered]
      exact scope_append rest run

/-- The functions of some entries are those that are lowered from them. -/
theorem mem_functions_iff {draft : Draft} (registered : Registered spec.entries built.names draft)
    {entries : List (String × SpecEntry)} (part : ∀ entry ∈ entries, entry ∈ spec.entries)
    {pending : List Pending} (isScoped : scope built.names entries = .ok pending) {id : FunctionId} :
    id ∈ entries.filterMap (fun entry => built.function? entry.1) ↔
      ∃ other ∈ pending, other.id = id := by
  obtain ⟨order, all, only⟩ := scope_eq_ok isScoped
  rw [List.mem_filterMap]
  constructor
  · rintro ⟨⟨name, entry⟩, isEntry, named⟩
    obtain ⟨returns, found⟩ := Compiled.exists_returns named
    obtain ⟨⟨expr, isFunction⟩, -⟩ := registered.ofFunction found
    cases entry_unique spec.nodup (part _ isEntry) isFunction
    obtain ⟨body, -, isPending⟩ := all name expr id returns isEntry found
    exact ⟨_, isPending, rfl⟩
  · rintro ⟨other, isPending, rfl⟩
    obtain ⟨entry, isEntry, same⟩ := List.mem_map.1 (order.subset (List.mem_map_of_mem isPending))
    exact ⟨entry, isEntry, same ▸ Compiled.function?_eq_some (only other isPending).1⟩

/-- What a build makes of an entry: types of names are those that are inferred from the functions of
the entries before it. -/
theorem adapted_of_build {session : Nat} (builds : spec.build session = .ok built) {name : String}
    {expr : FunctionExpr} {id : FunctionId} {returns : ValueId}
    (isEntry : (name, .function expr) ∈ spec.entries)
    (found : built.names[name]? = some (.function id returns)) :
    ∃ body entry, built.names.scopeFunction name expr = .ok body ∧
      built.context.functions[id]? = some entry ∧
      FunctionAdapted built.context (bindingType ⟨built.mint, built.before spec name⟩) body entry := by
  obtain ⟨start, pending, stages⟩ := exists_stages builds
  obtain ⟨first, second, entries⟩ := List.append_of_mem isEntry
  obtain ⟨earlier, later, isEarlier, isLater, rfl⟩ := scope_append first (entries ▸ stages.isScoped)
  obtain ⟨body, others, isScoped, -, rfl⟩ := (scope_function_eq_ok found).1 isLater
  -- names of entries are different, so the entries before this one are the first ones
  have takes : spec.entries.takeWhile (·.1 != name) = first := by
    have distinct := spec.nodup
    rw [Bindings.names, entries, List.map_append, List.nodup_append] at distinct
    rw [entries, List.takeWhile_append_of_pos, List.takeWhile_cons_of_neg (by simp), List.append_nil]
    intro other isFirst
    exact bne_iff_ne.2 (distinct.2.2 _ (List.mem_map_of_mem isFirst) _ List.mem_cons_self)
  have keeps : ∀ id, decide (id ∈ (spec.entries.takeWhile (·.1 != name)).filterMap
      fun entry => built.function? entry.1) = true ↔ ∃ other ∈ earlier, other.id = id := by
    intro id
    rw [takes, decide_eq_true_iff]
    exact mem_functions_iff stages.registered
      (fun entry isFirst => entries ▸ List.mem_append_left _ isFirst) isEarlier
  obtain ⟨lowered, known, adapted⟩ := adapted_forM stages.consistent
    (congrArg Context.functions stages.onlyRows) stages.ready stages.distinct keeps
  rw [stages.lowered] at known adapted
  exact ⟨body, lowered, isScoped, known, adapted⟩

end Spec

end TagFlow
