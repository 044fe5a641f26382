import TagFlow.Proofs.Graph.Usage
import TagFlow.Proofs.Spec.Draft

/-!
# What lowering makes of a function

`FunctionLowered` says how the entry of a function in the graph relates to the scoped function that
it was lowered from: definitions run the operations that were asked for, behind the adapters that
were asked for or else the pass adapters of types that are known; each definition stands in the
graph; and the types that were recorded for slots and outputs of steps are known ones. Since a draft
only grows, this stays true once it is (`FunctionLowered.grows`), and lowering a function establishes
it (`safely_lowerFunction`). No definition comes into the graph that the function does not involve.
-/

namespace TagFlow

namespace Builder

variable {builder middle later : Builder}

/-! ### Lowering one function -/

/-- What happens to a builder while one function is being lowered. -/
structure Becomes (before after : Builder) : Prop where
  consistent : after.Consistent
  grows : before.Grows after
  functions : after.context.functions = before.context.functions
  values : after.context.values = before.context.values

theorem Becomes.refl (consistent : builder.Consistent) : builder.Becomes builder :=
  ⟨consistent, .refl _, rfl, rfl⟩

theorem Becomes.trans (first : builder.Becomes middle) (second : middle.Becomes later) :
    builder.Becomes later :=
  ⟨second.consistent, first.grows.trans second.grows, second.functions.trans first.functions,
    second.values.trans first.values⟩

/-- Issuing an identifier, and recording its type at once. -/
theorem Consistent.becomes_issue (consistent : builder.Consistent) (kind : IdKind) (label : String)
    (origin : Origin) (ty : Option BaseType) (untyped : origin = .functionReturn → ty = none) :
    let issued := builder.mint.issue kind label origin
    let after : Builder := { builder with mint := issued.2.recordType? issued.1 ty }
    builder.Becomes after ∧ after.mint.record? issued.1 = some ⟨label, origin, ty⟩ := by
  intro issued after
  have fresh : builder.mint.records[issued.1.text]? = none :=
    consistent.counted.fresh kind label origin
  have here : after.mint.record? issued.1 = some ⟨label, origin, ty⟩ :=
    issued.2.record?_recordType? ty (builder.mint.record?_issue kind label origin)
  -- recording the type touches just the record of the new identifier
  have others : ∀ {text : String}, issued.1.text ≠ text →
      after.mint.records[text]? = issued.2.records[text]? :=
    fun other => issued.2.records_recordType?_of_ne ty other
  have grows : builder.Grows after := by
    refine ⟨.refl _, (issued.2.counters_recordType? issued.1 ty).1,
      fun {text label origin ty} known => ⟨ty, ?_, fun _ _ => rfl⟩⟩
    rw [others]
    · exact consistent.counted.records_issue known
    · rintro rfl
      exact absurd (fresh.symm.trans known) (by simp)
  refine ⟨⟨⟨consistent.withMint grows (consistent.counted.issue.recordType? _ _) ?_,
    consistent.cached⟩, grows, rfl, rfl⟩, here⟩
  intro id label' ty' known
  by_cases same : issued.1.text = id.text
  · have both := (congrArg (after.mint.records[·]?) same).symm.trans here
    rw [show after.mint.records[id.text]? = _ from known] at both
    cases both
    cases untyped rfl
  · apply consistent.returns id label' ty'
    have known : after.mint.records[id.text]? = _ := known
    rw [others same] at known
    exact (Table.getElem?_insert_of_ne same).symm.trans known

end Builder

namespace Lowering

variable {α β : Type} {draft later : Draft} {builder : Builder}

/-- The computation makes of the builder what the lowering of a function may, with a result and a draft as
`ok` says. -/
def Safely (x : Lowering α) (builder : Builder) (ok : α → Draft → Prop) : Prop :=
  builder.Becomes (x.run builder).2 ∧ ok (x.run builder).1 (x.run builder).2

theorem safely_pure {a : α} {ok : α → Draft → Prop} (consistent : builder.Consistent)
    (h : ok a builder) : Safely (pure a) builder ok := ⟨.refl consistent, h⟩

/-- Looking at the builder. -/
theorem safely_get {next : Builder → Lowering β} {ok : β → Draft → Prop}
    (rest : Safely (next builder) builder ok) : Safely (get >>= next) builder ok := rest

theorem Safely.bind {x : Lowering α} {next : α → Lowering β} {mid : α → Draft → Prop}
    {ok : β → Draft → Prop} (first : Safely x builder mid)
    (rest : ∀ (a : α) (after : Builder), builder.Becomes after → mid a after →
      Safely (next a) after ok) : Safely (x >>= next) builder ok := by
  obtain ⟨becomes, holds⟩ := first
  obtain ⟨becomes', holds'⟩ := rest _ _ becomes holds
  exact ⟨becomes.trans becomes', holds'⟩

theorem Safely.mono {x : Lowering α} {ok weaker : α → Draft → Prop} (h : Safely x builder ok)
    (implies : ∀ (a : α) (after : Builder), builder.Becomes after → ok a after → weaker a after) :
    Safely x builder weaker := ⟨h.1, implies _ _ h.1 h.2⟩

/-! ### Identifiers and definitions -/

theorem safely_issue (consistent : builder.Consistent) (kind : IdKind) (label : String)
    (origin : Origin) :
    Safely (issue kind label origin) builder fun id after => after.context = builder.context ∧
      after.mint.record? id = some ⟨label, origin, none⟩ ∧ builder.mint.record? id = none := by
  obtain ⟨becomes, here⟩ := consistent.becomes_issue kind label origin none fun _ => rfl
  exact ⟨becomes, rfl, here, consistent.counted.fresh kind label origin⟩

/-- Issuing an identifier, recording its type, and returning something that has it. -/
theorem safely_issue_typed (consistent : builder.Consistent) (kind : IdKind) (label : String)
    (origin : Origin) (ty : Option BaseType) (typed : origin ≠ .functionReturn)
    (result : Id kind → α) :
    Safely (do
      let id ← issue kind label origin
      recordType? id ty
      return result id) builder fun a after => after.context = builder.context ∧
        ∃ id, a = result id ∧ after.mint.record? id = some ⟨label, origin, ty⟩ ∧
          builder.mint.record? id = none := by
  obtain ⟨becomes, here⟩ := consistent.becomes_issue kind label origin ty fun h => absurd h typed
  exact ⟨becomes, rfl, _, rfl, here, consistent.counted.fresh kind label origin⟩

/-- A definition that is remembered has been created for the signature; one that is not is created and
remembered. -/
theorem safely_combineDefinition (consistent : builder.Consistent) (operation first second : String) :
    Safely (combineDefinition operation first second) builder fun id after =>
      builder.context.AddsOnly after.context [.combine id] ∧
        ∃ d, after.context.combines[id]? = some d ∧ d.operation = operation ∧
          d.first.adapter = first ∧ d.second.adapter = second := by
  apply safely_get
  cases remembered : builder.cache[(⟨operation, [first, second]⟩ : CombineSignature)]? with
  | some id =>
    obtain ⟨d, known, same⟩ := (consistent.cached _ id).1 remembered
    cases same
    exact safely_pure consistent ⟨.of_eq rfl rfl rfl, d, known, rfl, rfl, rfl⟩
  | none =>
    apply (safely_issue consistent .combine operation .definition).bind
    rintro id δ₁ becomes₁ ⟨same₁, known, fresh⟩
    apply (safely_issue becomes₁.consistent .value operation .combineSlot).bind
    rintro slot₁ δ₂ becomes₂ ⟨same₂, -, -⟩
    apply (safely_issue becomes₂.consistent .value operation .combineSlot).bind
    rintro slot₂ δ₃ becomes₃ ⟨same₃, -, -⟩
    -- a definition under the new identifier would have been issued before, but it is fresh
    have new : δ₃.context.combines[id]? = none := by
      rw [same₃, same₂, same₁]
      cases old : builder.context.combines[id]? with
      | none => rfl
      | some d =>
        obtain ⟨label, ty, known⟩ := consistent.combines old
        exact absurd (fresh.symm.trans known) (by simp)
    have issued : δ₃.Issued id .definition :=
      (Draft.Issued.grows ⟨_, _, known⟩ becomes₂.grows).grows becomes₃.grows
    let d : CombineDefinition := ⟨operation, ⟨slot₁, first⟩, ⟨slot₂, second⟩⟩
    have adds : builder.context.AddsOnly (δ₃.context.insertCombine id d) [.combine id] := by
      rw [same₃, same₂, same₁]
      exact .insertCombine id d
    -- the table is as before, so the signature is not remembered either
    have unknown : δ₃.cache[d.signature]? = none := by
      rw [Option.eq_none_iff_forall_ne_some]
      intro other later
      have has := (becomes₃.consistent.cached d.signature other).1 later
      rw [same₃, same₂, same₁, ← consistent.cached d.signature other] at has
      cases remembered.symm.trans has
    exact ⟨⟨⟨becomes₃.consistent.toConsistent.insertCombine d new issued,
      becomes₃.consistent.cached.insertCombine new unknown⟩,
      Draft.grows_of_extends (Draft.extends_insertCombine d new), rfl, rfl⟩,
      adds, d, Table.getElem?_insert_self, rfl, rfl, rfl⟩

theorem safely_pipeDefinition (consistent : builder.Consistent) (function : String)
    {inputs : List PipeInput} {steps : List PipeStep} (holds : builder.HoldsPipe ⟨inputs, steps⟩) :
    Safely (pipeDefinition function inputs steps) builder fun id after =>
      builder.context.AddsOnly after.context [.pipe id] ∧
        after.context.pipes[id]? = some ⟨inputs, steps⟩ ∧
        after.mint.record? id = some ⟨function, .definition, none⟩ := by
  apply (safely_issue consistent .pipe function .definition).bind
  rintro id δ₁ becomes ⟨same, known, fresh⟩
  have new : δ₁.context.pipes[id]? = none := by
    rw [same]
    cases old : builder.context.pipes[id]? with
    | none => rfl
    | some d =>
      obtain ⟨label, ty, known⟩ := (consistent.pipes old).1
      exact absurd (fresh.symm.trans known) (by simp)
  exact ⟨⟨⟨becomes.consistent.toConsistent.insertPipe new ⟨_, _, known⟩ (holds.grows becomes.grows),
    becomes.consistent.cached⟩,
    Draft.grows_of_extends (Draft.extends_insertPipe _ new), rfl, rfl⟩,
    same ▸ .insertPipe id _, Table.getElem?_insert_self, known⟩

theorem safely_condDefinition (consistent : builder.Consistent) (function : String)
    (d : CondDefinition) :
    Safely (do
      let id ← issue .cond function .definition
      modifyContext (·.insertCond id d)
      return id) builder fun id after =>
        builder.context.AddsOnly after.context [.cond id] ∧ after.context.conds[id]? = some d := by
  apply (safely_issue consistent .cond function .definition).bind
  rintro id δ₁ becomes ⟨same, known, fresh⟩
  have new : δ₁.context.conds[id]? = none := by
    rw [same]
    cases old : builder.context.conds[id]? with
    | none => rfl
    | some d =>
      obtain ⟨label, ty, known⟩ := consistent.conds old
      exact absurd (fresh.symm.trans known) (by simp)
  exact ⟨⟨⟨becomes.consistent.toConsistent.insertCond d new ⟨_, _, known⟩, becomes.consistent.cached⟩,
    Draft.grows_of_extends (Draft.extends_insertCond _ new), rfl, rfl⟩,
    same ▸ .insertCond id d, Table.getElem?_insert_self⟩

/-! ### How lowered bodies relate to scoped ones -/

/-- The adapter of an argument: the one asked for, or the pass adapter of a type that the argument is
known to have. -/
def Adapts (explicit : Option String) (known : Option BaseType) (adapter : String) : Prop :=
  ∃ ty, adapter = adapterFor explicit ty ∧ ∀ t, ty = some t → known = some t

/-- Inputs with their slots: the types recorded for slots are types of what is bound to them. -/
def InputsLowered (draft : Draft) (typeOf : α → Option BaseType) (bindings : List (String × α))
    (inputs : List PipeInput) : Prop :=
  List.Forall₂ (fun binding input => input.name = binding.1 ∧
    ∃ label ty, draft.mint.record? input.slot = some ⟨label, .pipeInput, ty⟩ ∧
      ∀ t, ty = some t → typeOf binding.2 = some t) bindings inputs

mutual

/-- The body and the arguments of a step, in a pipe with these inputs and these outputs of earlier
steps. -/
inductive BodyLowered (draft : Draft) (function : String) :
    List PipeInput → List ValueId → ScopedStep → StepBody → List (String × Source) → Prop
  | combine {inputs outputs operation a b id} {d : CombineDefinition} :
      draft.context.combines[id]? = some d → d.operation = operation →
      Adapts a.adapter (sourceType draft inputs outputs a.source) d.first.adapter →
      Adapts b.adapter (sourceType draft inputs outputs b.source) d.second.adapter →
      BodyLowered draft function inputs outputs (.combine operation a b) (.combine id)
        [(a.name, a.source), (b.name, b.source)]
  | pipe {inputs outputs bindings steps id} {d : PipeDefinition} :
      draft.context.pipes[id]? = some d →
      draft.mint.record? id = some ⟨function, .definition, none⟩ → (bindings.map (·.1)).Nodup →
      InputsLowered draft (sourceType draft inputs outputs) bindings d.inputs →
      StepsLowered draft function d.inputs [] steps d.steps →
      BodyLowered draft function inputs outputs (.pipe bindings steps) (.pipe id) bindings

/-- The steps of a pipe: the types recorded for their outputs are inferred types. -/
inductive StepsLowered (draft : Draft) (function : String) :
    List PipeInput → List ValueId → List ScopedStep → List PipeStep → Prop
  | nil {inputs outputs} : StepsLowered draft function inputs outputs [] []
  | cons {inputs outputs given rest label ty steps} {step : PipeStep} :
      BodyLowered draft function inputs outputs given step.body step.args →
      draft.mint.record? step.output = some ⟨label, .pipeStep, ty⟩ →
      (∀ t, ty = some t → draft.context.stepType 1 step = some t) →
      StepsLowered draft function inputs (outputs ++ [step.output]) rest steps →
      StepsLowered draft function inputs outputs (given :: rest) (step :: steps)

end

/-- The entry of a function. -/
inductive FunctionLowered (draft : Draft) (function : String) :
    ScopedFunction → FunctionEntry → Prop
  | combine {operation a b id returns} {d : CombineDefinition} :
      draft.context.combines[id]? = some d → d.operation = operation → a.name ≠ b.name →
      Adapts a.adapter (bindingType draft a.source) d.first.adapter →
      Adapts b.adapter (bindingType draft b.source) d.second.adapter →
      FunctionLowered draft function (.combine operation a b)
        (.combine id (.ofList [(a.name, a.source.output), (b.name, b.source.output)]) returns)
  | pipe {bindings steps id returns} {d : PipeDefinition} :
      draft.context.pipes[id]? = some d →
      draft.mint.record? id = some ⟨function, .definition, none⟩ → (bindings.map (·.1)).Nodup →
      InputsLowered draft (bindingType draft) bindings d.inputs →
      StepsLowered draft function d.inputs [] steps d.steps →
      FunctionLowered draft function (.pipe bindings steps)
        (.pipe id (.ofList (bindings.map fun binding => (binding.1, binding.2.output))) returns)
  | cond {condition thenBranch elseBranch id returns} :
      draft.context.conds[id]? = some ⟨condition, thenBranch, elseBranch⟩ →
      FunctionLowered draft function (.cond condition thenBranch elseBranch) (.cond id returns)

/-! ### Growth keeps the relation -/

/-- What a step can read by name or by index was issued for that. -/
structure Environment (draft : Draft) (inputs : List PipeInput) (outputs : List ValueId) : Prop where
  slots : ∀ input ∈ inputs, draft.Issued input.slot .pipeInput
  steps : ∀ output ∈ outputs, draft.Issued output .pipeStep

theorem Environment.grows {inputs : List PipeInput} {outputs : List ValueId}
    (environment : Environment draft inputs outputs) (grows : draft.Grows later) :
    Environment later inputs outputs where
  slots input isInput := (environment.slots input isInput).grows grows
  steps output isOutput := (environment.steps output isOutput).grows grows

theorem Adapts.mono {explicit : Option String} {known known' : Option BaseType} {adapter : String}
    (adapts : Adapts explicit known adapter) (better : ∀ t, known = some t → known' = some t) :
    Adapts explicit known' adapter := by
  obtain ⟨ty, same, typed⟩ := adapts
  exact ⟨ty, same, fun t h => better t (typed t h)⟩

/-- The type that is recorded for a slot or an output of a step does not change. -/
theorem inferred?_grows (grows : draft.Grows later) {id : ValueId} {origin : Origin}
    (issued : draft.Issued id origin) (noFunction : origin ≠ .function)
    (noReturn : origin ≠ .functionReturn) : later.mint.inferred? id = draft.mint.inferred? id := by
  obtain ⟨label, ty, known⟩ := issued
  unfold Mint.inferred?
  rw [known, grows.record? known noFunction noReturn]

theorem rowType_grows (grows : draft.Grows later) {id : ValueId} {t : BaseType}
    (typed : draft.context.values[id]?.map (·.baseType) = some t) :
    later.context.values[id]?.map (·.baseType) = some t := by
  obtain ⟨value, row, same⟩ := Option.map_eq_some_iff.1 typed
  exact Option.map_eq_some_iff.2 ⟨value, grows.context.values row, same⟩

theorem sourceType_grows {inputs : List PipeInput} {outputs : List ValueId}
    (environment : Environment draft inputs outputs) (grows : draft.Grows later) {source : Source}
    {t : BaseType} (typed : sourceType draft inputs outputs source = some t) :
    sourceType later inputs outputs source = some t := by
  cases source with
  | input name =>
    obtain ⟨input, found, typed⟩ := Option.bind_eq_some_iff.1 typed
    have issued := environment.slots input (List.mem_of_find?_eq_some found)
    refine Option.bind_eq_some_iff.2 ⟨input, found, ?_⟩
    rw [inferred?_grows grows issued (by decide) (by decide)]
    exact typed
  | step index =>
    obtain ⟨output, here, typed⟩ := Option.bind_eq_some_iff.1 typed
    have issued := environment.steps output (List.mem_of_getElem? here)
    refine Option.bind_eq_some_iff.2 ⟨output, here, ?_⟩
    rw [inferred?_grows grows issued (by decide) (by decide)]
    exact typed
  | value id => exact rowType_grows grows typed

theorem bindingType_grows (grows : draft.Grows later) {binding : Binding} {t : BaseType}
    (typed : bindingType draft binding = some t) : bindingType later binding = some t := by
  cases binding with
  | literal id => exact rowType_grows grows typed
  | function id returns => exact Context.functionType_extends grows.context typed

theorem InputsLowered.mono {typeOf typeOf' : α → Option BaseType} {bindings : List (String × α)}
    {inputs : List PipeInput} (lowered : InputsLowered draft typeOf bindings inputs)
    (grows : draft.Grows later) (better : ∀ a t, typeOf a = some t → typeOf' a = some t) :
    InputsLowered later typeOf' bindings inputs := by
  refine List.Forall₂.imp ?_ lowered
  rintro binding input ⟨name, label, ty, known, typed⟩
  exact ⟨name, label, ty, grows.record? known (by decide) (by decide),
    fun t h => better _ t (typed t h)⟩

theorem InputsLowered.issued {typeOf : α → Option BaseType} {bindings : List (String × α)}
    {inputs : List PipeInput} (lowered : InputsLowered draft typeOf bindings inputs) :
    ∀ input ∈ inputs, draft.Issued input.slot .pipeInput := by
  induction lowered with
  | nil => simp
  | cons head _ ih =>
    obtain ⟨-, label, ty, known, -⟩ := head
    intro input isInput
    rcases List.mem_cons.1 isInput with rfl | isInput
    · exact ⟨label, ty, known⟩
    · exact ih input isInput

/-- The inputs of a pipe make its environment before the first step. -/
theorem InputsLowered.environment {typeOf : α → Option BaseType} {bindings : List (String × α)}
    {inputs : List PipeInput} (lowered : InputsLowered draft typeOf bindings inputs) :
    Environment draft inputs [] := ⟨lowered.issued, by simp⟩

/-- After a step its output belongs to the environment. -/
theorem Environment.append {inputs : List PipeInput} {outputs : List ValueId} {output : ValueId}
    (environment : Environment draft inputs outputs) (issued : draft.Issued output .pipeStep) :
    Environment draft inputs (outputs ++ [output]) where
  slots := environment.slots
  steps other isOutput := by
    rcases List.mem_append.1 isOutput with old | new
    · exact environment.steps other old
    · rw [List.mem_singleton.1 new]
      exact issued

mutual

theorem BodyLowered.grows (grows : draft.Grows later) {function : String} :
    ∀ (given : ScopedStep) {inputs : List PipeInput} {outputs : List ValueId} {body : StepBody}
      {args : List (String × Source)}, Environment draft inputs outputs →
      BodyLowered draft function inputs outputs given body args →
      BodyLowered later function inputs outputs given body args
  | .combine operation a b, inputs, outputs, body, args, environment, lowered => by
    cases lowered with
    | combine found same first second =>
      exact .combine (grows.context.combines found) same
        (first.mono fun _ => sourceType_grows environment grows)
        (second.mono fun _ => sourceType_grows environment grows)
  | .pipe bindings steps, inputs, outputs, body, args, environment, lowered => by
    cases lowered with
    | pipe found known names bound lowered =>
      exact .pipe (grows.context.pipes found) (grows.record? known (by decide) (by decide)) names
        (bound.mono grows fun _ _ => sourceType_grows environment grows)
        (StepsLowered.grows grows steps bound.environment lowered)

theorem StepsLowered.grows (grows : draft.Grows later) {function : String} :
    ∀ (given : List ScopedStep) {inputs : List PipeInput} {outputs : List ValueId}
      {steps : List PipeStep}, Environment draft inputs outputs →
      StepsLowered draft function inputs outputs given steps →
      StepsLowered later function inputs outputs given steps
  | [], inputs, outputs, steps, environment, lowered => by
    cases lowered
    exact .nil
  | step :: rest, inputs, outputs, steps, environment, lowered => by
    cases lowered with
    | cons body known typed lowered =>
      exact .cons (BodyLowered.grows grows step environment body)
        (grows.record? known (by decide) (by decide))
        (fun t h => Context.stepType_extends grows.context (typed t h))
        (StepsLowered.grows grows rest (environment.append ⟨_, _, known⟩) lowered)

end

theorem FunctionLowered.grows (grows : draft.Grows later) {function : String}
    {body : ScopedFunction} {entry : FunctionEntry}
    (lowered : FunctionLowered draft function body entry) :
    FunctionLowered later function body entry := by
  cases lowered with
  | combine found same different first second =>
    exact .combine (grows.context.combines found) same different
      (first.mono fun _ => bindingType_grows grows) (second.mono fun _ => bindingType_grows grows)
  | pipe found known names bound lowered =>
    exact .pipe (grows.context.pipes found) (grows.record? known (by decide) (by decide)) names
      (bound.mono grows fun _ _ => bindingType_grows grows)
      (StepsLowered.grows grows _ bound.environment lowered)
  | cond found => exact .cond (grows.context.conds found)

/-! ### Lowering establishes the relation -/

/-- If the source is an absolute value, then it is a row. -/
def SourceGrounded (values : ValueTable) (source : Source) : Prop :=
  ∀ id, source = .value id → ∃ value, values[id]? = some value

mutual

/-- The absolute values that the step reads, itself or in a pipe that it runs, are rows; and the
inputs of pipes have different names. -/
def StepGrounded (values : ValueTable) : ScopedStep → Prop
  | .combine _ a b => SourceGrounded values a.source ∧ SourceGrounded values b.source
  | .pipe bindings steps => (bindings.map (·.1)).Nodup ∧
    (∀ binding ∈ bindings, SourceGrounded values binding.2) ∧ StepsGrounded values steps

def StepsGrounded (values : ValueTable) : List ScopedStep → Prop
  | [] => True
  | step :: rest => StepGrounded values step ∧ StepsGrounded values rest

end

/-- The absolute values that the function reads inside of pipes are rows; and its arguments have
different names. -/
def FunctionGrounded (values : ValueTable) : ScopedFunction → Prop
  | .combine _ a b => a.name ≠ b.name
  | .pipe bindings steps => (bindings.map (·.1)).Nodup ∧ StepsGrounded values steps
  | .cond _ _ _ => True

/-- The absolute arguments of a lowered step are rows, and a pipe that it runs stands in the graph. -/
theorem BodyLowered.holds {function : String} {inputs : List PipeInput} {outputs : List ValueId}
    {given : ScopedStep} {body : StepBody} {args : List (String × Source)}
    (lowered : BodyLowered draft function inputs outputs given body args)
    (grounded : StepGrounded draft.context.values given) :
    (∀ name id, (name, Source.value id) ∈ args →
      ∃ value, draft.context.values[id]? = some value) ∧
      ∀ inner, body = .pipe inner → ∃ e, draft.context.pipes[inner]? = some e := by
  cases lowered with
  | @combine _ _ _ a b =>
    unfold StepGrounded at grounded
    refine ⟨fun name id isArg => ?_, fun inner h => nomatch h⟩
    simp only [List.mem_cons, Prod.mk.injEq, List.not_mem_nil, or_false] at isArg
    rcases isArg with ⟨-, same⟩ | ⟨-, same⟩
    · exact grounded.1 id same.symm
    · exact grounded.2 id same.symm
  | pipe found =>
    unfold StepGrounded at grounded
    refine ⟨fun name id isArg => grounded.2.1 _ isArg id rfl, fun inner h => ?_⟩
    cases h
    exact ⟨_, found⟩

theorem StepsLowered.holds {function : String} {given : List ScopedStep} :
    ∀ {inputs : List PipeInput} {outputs : List ValueId} {steps : List PipeStep},
    StepsLowered draft function inputs outputs given steps →
    StepsGrounded draft.context.values given → ∀ step ∈ steps,
      (∀ name id, (name, Source.value id) ∈ step.args →
        ∃ value, draft.context.values[id]? = some value) ∧
        ∀ inner, step.body = .pipe inner → ∃ e, draft.context.pipes[inner]? = some e := by
  induction given with
  | nil =>
    intro inputs outputs steps lowered _ step isStep
    cases lowered
    cases isStep
  | cons first rest ih =>
    intro inputs outputs steps lowered grounded step isStep
    unfold StepsGrounded at grounded
    cases lowered with
    | cons body _ _ lowered =>
      rcases List.mem_cons.1 isStep with rfl | isStep
      · exact body.holds grounded.1
      · exact ih lowered grounded.2 step isStep

/-- The slots of the inputs of a pipe are new and different. `typeOf` may look at the builder, as long
as what it finds out stays true. -/
theorem safely_pipeInputs (function : String) (typeOf : Draft → α → Option BaseType) :
    ∀ (bindings : List (String × α)) (builder : Builder), builder.Consistent →
      (∀ before after a t, builder.Grows before → before.Grows after → typeOf before a = some t →
        typeOf after a = some t) →
      Safely (pipeInputs function typeOf bindings) builder fun inputs after =>
        after.context = builder.context ∧ InputsLowered after (typeOf after) bindings inputs ∧
          (inputs.map (·.slot)).Nodup ∧ ∀ input ∈ inputs, builder.mint.record? input.slot = none
  | [], builder, consistent, _ =>
    safely_pure consistent ⟨rfl, .nil, List.nodup_nil, fun _ h => nomatch h⟩
  | (name, source) :: rest, builder, consistent, stable => by
    apply safely_get
    refine (safely_issue_typed consistent .value (function ++ "." ++ name) .pipeInput
      (typeOf builder source) (by decide) (PipeInput.mk name)).bind ?_
    rintro _ δ₁ becomes₁ ⟨same₁, slot, rfl, known, fresh⟩
    refine (safely_pipeInputs function typeOf rest δ₁ becomes₁.consistent
      fun before after a t h => stable before after a t (becomes₁.grows.trans h)).bind ?_
    rintro inputs δ₂ becomes₂ ⟨same₂, lowered, distinct, new⟩
    refine safely_pure becomes₂.consistent ⟨same₂.trans same₁, .cons ⟨rfl, _, _,
      becomes₂.grows.record? known (by decide) (by decide), fun t h => ?_⟩ lowered, ?_, ?_⟩
    · exact stable builder δ₂ source t (.refl _) (becomes₁.grows.trans becomes₂.grows) h
    · rw [List.map_cons, List.nodup_cons]
      -- the slots of the rest were unknown when this one was there already
      refine ⟨fun again => ?_, distinct⟩
      obtain ⟨input, isInput, same⟩ := List.mem_map.1 again
      have unknown := new input isInput
      rw [same, known] at unknown
      cases unknown
    · intro input isInput
      rcases List.mem_cons.1 isInput with rfl | isInput
      · exact fresh
      · exact becomes₁.grows.unknown (new input isInput)

/-- The type of a combine step that has just been lowered. -/
theorem stepType_combine {operation : String} {a b : ScopedArg Source} {id : CombineId}
    {d : CombineDefinition} {output : ValueId} {t : BaseType} (grows : draft.Grows later)
    (found : later.context.combines[id]? = some d) (same : d.operation = operation)
    (typed : operationResultType operation (sourceElement draft a.source) = some t) :
    later.context.stepType 1 ⟨.combine id, [(a.name, a.source), (b.name, b.source)], output⟩ =
      some t := by
  subst same
  refine Option.bind_eq_some_iff.2 ⟨d, found, operationResultType_mono (fun t element => ?_) typed⟩
  cases source : a.source with
  | input name =>
    rw [source] at element
    cases element
  | step index =>
    rw [source] at element
    cases element
  | value id =>
    rw [source] at element
    exact Context.elementOf?_extends grows.context element

/-- Once the steps of a pipe are lowered it can be defined, and its steps stay lowered. -/
theorem safely_definePipe (function : String) {middle : Builder} {typeOf : α → Option BaseType}
    {bindings : List (String × α)} {inputs : List PipeInput} {given : List ScopedStep}
    {steps : List PipeStep} (bound : InputsLowered builder typeOf bindings inputs)
    (distinct : (inputs.map (·.slot)).Nodup) (becomes : builder.Becomes middle)
    (lowered : StepsLowered middle function inputs [] given steps)
    (adds : builder.context.AddsOnly middle.context (steps.map (·.body.definition)))
    (grounded : StepsGrounded builder.context.values given) :
    Safely (pipeDefinition function inputs steps) middle fun id after =>
      builder.context.AddsOnly after.context [.pipe id] ∧
        after.context.pipes[id]? = some ⟨inputs, steps⟩ ∧
        after.mint.record? id = some ⟨function, .definition, none⟩ ∧
        StepsLowered after function inputs [] given steps := by
  have holds := lowered.holds (becomes.values ▸ grounded)
  have isPipe : middle.HoldsPipe ⟨inputs, steps⟩ :=
    { slots := fun input isInput => (bound.issued input isInput).grows becomes.grows
      distinct := distinct
      absolute := fun step isStep => (holds step isStep).1
      nested := fun step isStep => (holds step isStep).2 }
  apply (safely_pipeDefinition becomes.consistent function isPipe).mono
  rintro id after becomes' ⟨adds', found, known⟩
  refine ⟨(adds.trans becomes'.grows.context adds').within ?_, found, known,
    lowered.grows becomes'.grows given (bound.environment.grows becomes.grows)⟩
  intro root isRoot
  refine ⟨_, List.mem_singleton_self _, ?_⟩
  rcases List.mem_append.1 isRoot with isStep | itself
  · exact .single ⟨id, _, rfl, found, isStep⟩
  · rw [List.mem_singleton.1 itself]
    exact .refl

mutual

/-- Lowering a step. -/
theorem safely_lowerStep (function : String) : ∀ (given : ScopedStep) (inputs : List PipeInput)
    (outputs : List ValueId) (builder : Builder), builder.Consistent → Environment builder inputs outputs →
    StepGrounded builder.context.values given →
    Safely (lowerStep function inputs outputs given) builder fun result after =>
      builder.context.AddsOnly after.context [result.1.definition] ∧
        BodyLowered after function inputs outputs given result.1 result.2.1 ∧
        ∀ output t, result.2.2 = some t →
          after.context.stepType 1 ⟨result.1, result.2.1, output⟩ = some t
  | .combine operation a b, inputs, outputs, builder, consistent, environment, grounded => by
    rw [lowerStep]
    apply safely_get
    apply (safely_combineDefinition consistent operation _ _).bind
    rintro id δ becomes ⟨adds, d, found, same, first, second⟩
    have stable : ∀ source t, sourceType builder inputs outputs source = some t →
        sourceType δ inputs outputs source = some t :=
      fun source t => sourceType_grows environment becomes.grows
    exact safely_pure becomes.consistent ⟨adds, .combine found same ⟨_, first, stable a.source⟩
      ⟨_, second, stable b.source⟩, fun output t => stepType_combine becomes.grows found same⟩
  | .pipe bindings steps, inputs, outputs, builder, consistent, environment, grounded => by
    unfold StepGrounded at grounded
    rw [lowerStep]
    refine (safely_pipeInputs function (fun draft => sourceType draft inputs outputs) bindings builder
      consistent fun before after a t h grows => sourceType_grows (environment.grows h) grows).bind ?_
    rintro nested δ₁ becomes₁ ⟨same, bound, distinct, -⟩
    refine (safely_lowerSteps function steps nested [] δ₁ becomes₁.consistent bound.environment
      (becomes₁.values ▸ grounded.2.2)).bind ?_
    rintro lowered δ₂ becomes₂ ⟨adds, stepsLowered⟩
    refine (safely_definePipe function bound distinct becomes₂ stepsLowered adds
      (becomes₁.values ▸ grounded.2.2)).bind ?_
    rintro id δ₃ becomes₃ ⟨adds, found, known, stepsLowered⟩
    have grows₃ := becomes₂.grows.trans becomes₃.grows
    refine safely_get (safely_pure becomes₃.consistent
      ⟨same ▸ adds, .pipe found known grounded.1 ?_ stepsLowered, fun _ _ typed => typed⟩)
    exact bound.mono grows₃ fun _ _ => sourceType_grows (environment.grows becomes₁.grows) grows₃

/-- Lowering the remaining steps of a pipe. -/
theorem safely_lowerSteps (function : String) : ∀ (given : List ScopedStep)
    (inputs : List PipeInput) (outputs : List ValueId) (builder : Builder), builder.Consistent →
    Environment builder inputs outputs → StepsGrounded builder.context.values given →
    Safely (lowerSteps function inputs outputs given) builder fun steps after =>
      builder.context.AddsOnly after.context (steps.map (·.body.definition)) ∧
        StepsLowered after function inputs outputs given steps
  | [], inputs, outputs, builder, consistent, _, _ => by
    rw [lowerSteps]
    exact safely_pure consistent ⟨.of_eq rfl rfl rfl, .nil⟩
  | given :: rest, inputs, outputs, builder, consistent, environment, grounded => by
    unfold StepsGrounded at grounded
    rw [lowerSteps]
    refine (safely_lowerStep function given inputs outputs builder consistent environment
      grounded.1).bind ?_
    rintro ⟨body, args, ty⟩ δ₁ becomes₁ ⟨adds₁, bodyLowered, typed⟩
    have environment₁ := environment.grows becomes₁.grows
    refine (safely_issue_typed becomes₁.consistent .value
      (function ++ ".step" ++ toString outputs.length) .pipeStep ty (by decide) id).bind ?_
    rintro output δ₂ becomes₂ ⟨same, _, rfl, known, -⟩
    refine (safely_lowerSteps function rest inputs (outputs ++ [output]) δ₂ becomes₂.consistent
      ((environment₁.grows becomes₂.grows).append ⟨_, _, known⟩)
      (becomes₂.values ▸ becomes₁.values ▸ grounded.2)).bind ?_
    rintro steps δ₃ becomes₃ ⟨adds₃, stepsLowered⟩
    have grows₃ := becomes₂.grows.trans becomes₃.grows
    have adds := adds₁.trans grows₃.context (same ▸ adds₃)
    exact safely_pure becomes₃.consistent ⟨adds,
      .cons (bodyLowered.grows grows₃ given environment₁)
        (becomes₃.grows.record? known (by decide) (by decide))
        (fun t h => Context.stepType_extends grows₃.context (typed output t h)) stepsLowered⟩

end

/-- Lowering the body of a function. -/
theorem safely_lowerFunction (consistent : builder.Consistent) (function : String) (returns : ValueId)
    (body : ScopedFunction) (grounded : FunctionGrounded builder.context.values body) :
    Safely (lowerFunction function returns body) builder fun entry after =>
      builder.context.AddsOnly after.context [entry.definition] ∧
        FunctionLowered after function body entry ∧ entry.returns = returns := by
  cases body with
  | combine operation a b =>
    apply safely_get
    apply (safely_combineDefinition consistent operation _ _).bind
    rintro id δ becomes ⟨adds, d, found, same, first, second⟩
    have stable : ∀ binding t, bindingType builder binding = some t →
        bindingType δ binding = some t := fun binding t => bindingType_grows becomes.grows
    exact safely_pure becomes.consistent ⟨adds, .combine found same grounded ⟨_, first, stable a.source⟩
      ⟨_, second, stable b.source⟩, rfl⟩
  | pipe bindings steps =>
    refine (safely_pipeInputs function bindingType bindings builder consistent
      fun before after a t _ grows => bindingType_grows grows).bind ?_
    rintro inputs δ₁ becomes₁ ⟨same, bound, distinct, -⟩
    obtain ⟨names, grounded⟩ := grounded
    refine (safely_lowerSteps function steps inputs [] δ₁ becomes₁.consistent bound.environment
      (becomes₁.values ▸ grounded)).bind ?_
    rintro lowered δ₂ becomes₂ ⟨adds, stepsLowered⟩
    refine (safely_definePipe function bound distinct becomes₂ stepsLowered adds
      (becomes₁.values ▸ grounded)).bind ?_
    rintro id δ₃ becomes₃ ⟨adds, found, known, stepsLowered⟩
    have grows₃ := becomes₂.grows.trans becomes₃.grows
    exact safely_pure becomes₃.consistent ⟨same ▸ adds, .pipe found known names
      (bound.mono grows₃ fun _ _ => bindingType_grows grows₃) stepsLowered, rfl⟩
  | cond condition thenBranch elseBranch =>
    obtain ⟨becomes, adds, found⟩ :=
      safely_condDefinition consistent function ⟨condition, thenBranch, elseBranch⟩
    exact ⟨becomes, adds, .cond found, rfl⟩

end Lowering

end TagFlow
