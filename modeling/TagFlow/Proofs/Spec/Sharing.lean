import TagFlow.Proofs.Spec.Built

/-!
# Slots are not shared

A combine definition is created together with its slots, so that no identifier is the slot of two arguments,
of one definition or of two (`Draft.SlotsApart`). Only `combineDefinition` adds definitions; everything else
that lowering does leaves them alone (`Draft.SlotsApart.of_combines`), and so the property holds of every
graph that is built (`Spec.slotsApart_of_build`).
-/

namespace TagFlow

namespace Draft

variable {draft later : Draft} {id : CombineId} {d : CombineDefinition}

/-- The slots of combine definitions have been issued as such, and are all different. -/
structure SlotsApart (draft : Draft) : Prop where
  counted : draft.mint.Counted
  issued : ∀ {id : CombineId} {d : CombineDefinition}, draft.context.combines[id]? = some d →
    ∀ slot ∈ d.slots, draft.Issued slot.slot .combineSlot
  apart : ∀ {id : CombineId} {d : CombineDefinition}, draft.context.combines[id]? = some d →
    d.first.slot ≠ d.second.slot
  disjoint : ∀ {id id' : CombineId} {d d' : CombineDefinition},
    draft.context.combines[id]? = some d → draft.context.combines[id']? = some d' →
      ∀ slot ∈ d.slots, ∀ slot' ∈ d'.slots, slot.slot = slot'.slot → id = id'

theorem slotsApart_new (session : Nat) : SlotsApart ⟨.new session, .empty⟩ := by
  have none : ∀ (id : CombineId) (d : CombineDefinition),
      Context.empty.combines[id]? ≠ some d := by
    intro id d known
    cases Std.ExtTreeMap.getElem?_empty.symm.trans known
  exact ⟨Mint.counted_new session, fun known => absurd known (none _ _),
    fun known => absurd known (none _ _), fun known => absurd known (none _ _)⟩

/-- Nothing but the table of combine definitions and the records of their slots matters. -/
theorem SlotsApart.of_combines (slots : draft.SlotsApart) (counted : later.mint.Counted)
    (same : later.context.combines = draft.context.combines)
    (issued : ∀ {id : ValueId}, draft.Issued id .combineSlot → later.Issued id .combineSlot) :
    later.SlotsApart where
  counted := counted
  issued known slot isSlot := issued (slots.issued (same ▸ known) slot isSlot)
  apart known := slots.apart (same ▸ known)
  disjoint known known' := slots.disjoint (same ▸ known) (same ▸ known')

/-- A definition with new slots. -/
theorem SlotsApart.insertCombine (slots : draft.SlotsApart)
    (issued : ∀ slot ∈ d.slots, draft.Issued slot.slot .combineSlot)
    (apart : d.first.slot ≠ d.second.slot)
    (new : ∀ (other : CombineId) (e : CombineDefinition), draft.context.combines[other]? = some e →
      ∀ slot ∈ e.slots, ∀ slot' ∈ d.slots, slot.slot ≠ slot'.slot) :
    SlotsApart ⟨draft.mint, draft.context.insertCombine id d⟩ := by
  -- each row is the new one or an old one
  have rows : ∀ {other : CombineId} {e : CombineDefinition},
      (draft.context.insertCombine id d).combines[other]? = some e →
        id = other ∧ d = e ∨ draft.context.combines[other]? = some e := by
    intro other e known
    have known : (draft.context.combines.insert id d)[other]? = some e := known
    rw [Table.getElem?_insert] at known
    split at known
    · next same =>
      cases known
      exact .inl ⟨same, rfl⟩
    · exact .inr known
  refine
    { counted := slots.counted
      issued := fun known => ?_
      apart := fun known => ?_
      disjoint := fun known known' slot isSlot slot' isSlot' same => ?_ }
  · rcases rows known with ⟨rfl, rfl⟩ | old
    · exact issued
    · exact slots.issued old
  · rcases rows known with ⟨rfl, rfl⟩ | old
    · exact apart
    · exact slots.apart old
  · rcases rows known with ⟨rfl, rfl⟩ | old <;> rcases rows known' with ⟨rfl, rfl⟩ | old'
    · rfl
    · exact absurd same.symm (new _ _ old' slot' isSlot' slot isSlot)
    · exact absurd same (new _ _ old slot isSlot slot' isSlot')
    · exact slots.disjoint old old' slot isSlot slot' isSlot' same

/-- The slots of all definitions are different. -/
theorem SlotsApart.nodup_slots (slots : draft.SlotsApart) :
    (draft.context.combines.toList.flatMap fun row => row.2.slots.map (·.slot)).Nodup := by
  rw [List.nodup_flatMap]
  refine ⟨fun row isRow => ?_, ?_⟩
  · have different := slots.apart (Table.mem_toList_iff.1 isRow)
    simpa [CombineDefinition.slots] using different
  · refine (List.pairwise_map.1 (Table.nodup_map_toList draft.context.combines)).imp_of_mem ?_
    intro row row' isRow isRow' different slot isSlot isSlot'
    obtain ⟨s, here, rfl⟩ := List.mem_map.1 isSlot
    obtain ⟨s', here', same⟩ := List.mem_map.1 isSlot'
    exact different (slots.disjoint (Table.mem_toList_iff.1 isRow) (Table.mem_toList_iff.1 isRow') s
      here s' here' same.symm)

end Draft

namespace Lowering

variable {α β : Type} {ok : Draft → Prop}

/-! ### Computations that keep a property of drafts -/

/-- The computation keeps a property of the draft. -/
def Keeps (ok : Draft → Prop) (x : Lowering α) : Prop :=
  ∀ builder : Builder, ok builder → ok (x.run builder).2

theorem keeps_pure (a : α) : Keeps ok (pure a) := fun _ holds => holds

/-- Looking at the builder. -/
theorem keeps_get {next : Builder → Lowering β} (rest : ∀ builder, Keeps ok (next builder)) :
    Keeps ok (get >>= next) := fun builder holds => rest builder builder holds

theorem run_get_bind (next : Builder → Lowering β) (builder : Builder) :
    (get >>= next).run builder = (next builder).run builder := rfl

theorem Keeps.bind {x : Lowering α} {next : α → Lowering β} (first : Keeps ok x)
    (rest : ∀ a, Keeps ok (next a)) : Keeps ok (x >>= next) :=
  fun draft holds => rest _ _ (first draft holds)

theorem keeps_forM {x : α → Lowering Unit} (each : ∀ a, Keeps ok (x a)) :
    ∀ items : List α, Keeps ok (items.forM x)
  | [] => keeps_pure _
  | a :: rest => (each a).bind fun _ => keeps_forM each rest

/-! ### Lowering keeps combine definitions shared -/

open Draft (SlotsApart)

theorem slotsApart_issue (kind : IdKind) (label : String) (origin : Origin) :
    Keeps SlotsApart (issue kind label origin) := by
  intro builder slots
  refine slots.of_combines slots.counted.issue rfl ?_
  rintro id ⟨label, ty, known⟩
  exact ⟨label, ty, slots.counted.records_issue known⟩

theorem slotsApart_recordType? {kind : IdKind} (id : Id kind) (ty : Option BaseType) :
    Keeps SlotsApart (recordType? id ty) := by
  intro builder slots
  refine slots.of_combines (slots.counted.recordType? id ty) rfl ?_
  rintro other ⟨label, old, known⟩
  obtain ⟨ty', known', -⟩ := builder.mint.records_recordType? id ty known
  exact ⟨label, ty', known'⟩

theorem slotsApart_modifyContext {f : Context → Context} (same : ∀ c, (f c).combines = c.combines) :
    Keeps SlotsApart (modifyContext f) :=
  fun _ slots => slots.of_combines slots.counted (same _) id

/-- The slots of a definition that is created are new. -/
theorem slotsApart_combineDefinition (operation first second : String) :
    Keeps SlotsApart (combineDefinition operation first second) := by
  intro builder slots
  rw [combineDefinition, run_get_bind]
  cases builder.cache[(⟨operation, [first, second]⟩ : CombineSignature)]? with
  | some id => exact slots
  | none =>
    let issued := builder.mint.issue .combine operation .definition
    let left := issued.2.issue .value operation .combineSlot
    let right := left.2.issue .value operation .combineSlot
    let d : CombineDefinition := ⟨operation, ⟨left.1, first⟩, ⟨right.1, second⟩⟩
    have counted₁ : issued.2.Counted := slots.counted.issue
    have counted₂ : left.2.Counted := counted₁.issue
    have shares₃ : SlotsApart ⟨right.2, builder.context⟩ :=
      slotsApart_issue .value operation .combineSlot _ (slotsApart_issue .value operation .combineSlot _
        (slotsApart_issue .combine operation .definition _ slots))
    have isLeft : left.2.record? left.1 = some ⟨operation, .combineSlot, none⟩ :=
      Mint.record?_issue ..
    have isRight : right.2.record? right.1 = some ⟨operation, .combineSlot, none⟩ :=
      Mint.record?_issue ..
    have newLeft : ∀ {id : ValueId} {known : IdRecord}, builder.mint.record? id = some known →
        id ≠ left.1 := by
      intro id known before same
      exact counted₁.issue_ne (slots.counted.records_issue before) (congrArg Id.text same.symm)
    have newRight : ∀ {id : ValueId} {known : IdRecord}, left.2.record? id = some known →
        id ≠ right.1 := by
      intro id known before same
      exact counted₂.issue_ne before (congrArg Id.text same.symm)
    show SlotsApart ⟨right.2, builder.context.insertCombine issued.1 d⟩
    refine shares₃.insertCombine ?_ (newRight isLeft) ?_
    · intro slot isSlot
      simp only [d, CombineDefinition.slots, List.mem_cons, List.not_mem_nil, or_false] at isSlot
      rcases isSlot with rfl | rfl
      · exact ⟨_, _, counted₂.records_issue isLeft⟩
      · exact ⟨_, _, isRight⟩
    · intro other e known slot isSlot slot' isSlot'
      obtain ⟨label, ty, before⟩ := slots.issued known slot isSlot
      simp only [d, CombineDefinition.slots, List.mem_cons, List.not_mem_nil, or_false] at isSlot'
      rcases isSlot' with rfl | rfl
      · exact newLeft before
      · exact newRight (counted₁.records_issue (slots.counted.records_issue before))

theorem slotsApart_pipeInputs (function : String) (typeOf : Draft → α → Option BaseType) :
    ∀ bindings : List (String × α), Keeps SlotsApart (pipeInputs function typeOf bindings)
  | [] => keeps_pure _
  | _ :: rest => keeps_get fun _ => Keeps.bind
    ((slotsApart_issue _ _ _).bind fun slot => (slotsApart_recordType? slot _).bind fun _ => keeps_pure _)
    fun _ => (slotsApart_pipeInputs function typeOf rest).bind fun _ => keeps_pure _

theorem slotsApart_stepOutput (function : String) (index : Nat) (ty : Option BaseType) :
    Keeps SlotsApart (stepOutput function index ty) :=
  (slotsApart_issue _ _ _).bind fun output => (slotsApart_recordType? output ty).bind fun _ => keeps_pure _

theorem slotsApart_pipeDefinition (function : String) (inputs : List PipeInput) (steps : List PipeStep) :
    Keeps SlotsApart (pipeDefinition function inputs steps) :=
  (slotsApart_issue _ _ _).bind fun id =>
    (slotsApart_modifyContext (f := (·.insertPipe id ⟨inputs, steps⟩)) fun _ => rfl).bind fun _ =>
      keeps_pure _

mutual

theorem slotsApart_lowerStep (function : String) (inputs : List PipeInput) (outputs : List ValueId) :
    ∀ step : ScopedStep, Keeps SlotsApart (lowerStep function inputs outputs step)
  | .combine operation a b => by
    rw [lowerStep]
    exact keeps_get fun _ => (slotsApart_combineDefinition _ _ _).bind fun _ => keeps_pure _
  | .pipe bindings steps => by
    rw [lowerStep]
    apply (slotsApart_pipeInputs function _ bindings).bind
    intro nested
    apply (slotsApart_lowerSteps function nested [] steps).bind
    intro lowered
    exact (slotsApart_pipeDefinition function nested lowered).bind fun _ =>
      keeps_get fun _ => keeps_pure _

theorem slotsApart_lowerSteps (function : String) (inputs : List PipeInput) (outputs : List ValueId) :
    ∀ steps : List ScopedStep, Keeps SlotsApart (lowerSteps function inputs outputs steps)
  | [] => by
    rw [lowerSteps]
    exact keeps_pure _
  | step :: rest => by
    rw [lowerSteps]
    apply (slotsApart_lowerStep function inputs outputs step).bind
    rintro ⟨body, args, ty⟩
    apply (slotsApart_stepOutput function outputs.length ty).bind
    intro output
    exact (slotsApart_lowerSteps function inputs (outputs ++ [output]) rest).bind fun _ => keeps_pure _

end

theorem slotsApart_lowerFunction (function : String) (returns : ValueId) (body : ScopedFunction) :
    Keeps SlotsApart (lowerFunction function returns body) := by
  cases body with
  | combine operation a b =>
    exact keeps_get fun _ => (slotsApart_combineDefinition _ _ _).bind fun _ => keeps_pure _
  | pipe bindings steps =>
    apply (slotsApart_pipeInputs function bindingType bindings).bind
    intro inputs
    apply (slotsApart_lowerSteps function inputs [] steps).bind
    intro lowered
    exact (slotsApart_pipeDefinition function inputs lowered).bind fun _ => keeps_pure _
  | cond condition thenBranch elseBranch =>
    apply (slotsApart_issue .cond function .definition).bind
    intro id
    exact (slotsApart_modifyContext (f := (·.insertCond id ⟨condition, thenBranch, elseBranch⟩))
      fun _ => rfl).bind fun _ => keeps_pure _

theorem combines_insertFunction (c : Context) (id : FunctionId) (entry : FunctionEntry) :
    (c.insertFunction id entry).combines = c.combines := by
  have unlinked : ∀ (c : Context) (value : ValueId),
      (c.unlinkProducer id value).combines = c.combines := by
    intro c value
    unfold Context.unlinkProducer
    split
    · split <;> rfl
    · rfl
  unfold Context.insertFunction
  split
  · rfl
  · exact unlinked _ _

theorem slotsApart_lowerEntry (entry : Pending) : Keeps SlotsApart (lowerEntry entry) := by
  apply (slotsApart_lowerFunction entry.name entry.returns entry.body).bind
  intro lowered
  apply (slotsApart_modifyContext fun c => combines_insertFunction c entry.id lowered).bind
  intro _
  exact keeps_get fun _ => (slotsApart_recordType? entry.id _).bind fun _ =>
    slotsApart_recordType? entry.returns _

theorem slotsApart_registerLiteral (name : String) (value : Value) :
    Keeps SlotsApart (registerLiteral name value) := by
  apply (slotsApart_issue .value name .literal).bind
  intro id
  apply (slotsApart_recordType? id (some value.baseType)).bind
  intro _
  exact (slotsApart_modifyContext (f := (·.insertValue id value)) fun _ => rfl).bind fun _ => keeps_pure _

theorem slotsApart_registerLiterals : ∀ entries : List (String × SpecEntry),
    Keeps SlotsApart (registerLiterals entries)
  | [] => keeps_pure _
  | (_, .function _) :: rest => slotsApart_registerLiterals rest
  | (name, .literal value) :: rest => (slotsApart_registerLiteral name value).bind fun _ =>
    (slotsApart_registerLiterals rest).bind fun _ => keeps_pure _

theorem slotsApart_registerFunction (name : String) : Keeps SlotsApart (registerFunction name) :=
  (slotsApart_issue .function name .function).bind fun _ =>
    (slotsApart_issue .value name .functionReturn).bind fun _ => keeps_pure _

theorem slotsApart_registerFunctions : ∀ entries : List (String × SpecEntry),
    Keeps SlotsApart (registerFunctions entries)
  | [] => keeps_pure _
  | (_, .literal _) :: rest => slotsApart_registerFunctions rest
  | (name, .function _) :: rest => (slotsApart_registerFunction name).bind fun _ =>
    (slotsApart_registerFunctions rest).bind fun _ => keeps_pure _

theorem slotsApart_register (entries : List (String × SpecEntry)) : Keeps SlotsApart (register entries) :=
  (slotsApart_registerLiterals entries).bind fun _ =>
    (slotsApart_registerFunctions entries).bind fun _ => keeps_pure _

end Lowering

namespace Spec

open Result Lowering

/-- In a graph that was built, no identifier is the slot of two arguments. -/
theorem slotsApart_of_build {spec : Spec} {session : Nat} {built : Built}
    (run : spec.build session = .ok built) : Draft.SlotsApart ⟨built.mint, built.context⟩ := by
  obtain ⟨start, pending, stages⟩ := exists_stages run
  have registered := slotsApart_register spec.entries (.new session) (Draft.slotsApart_new session)
  rw [stages.registers] at registered
  rw [← stages.lowered]
  exact keeps_forM slotsApart_lowerEntry pending start registered

end Spec

end TagFlow
