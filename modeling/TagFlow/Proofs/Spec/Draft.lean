import TagFlow.Proofs.Graph.Nesting
import TagFlow.Proofs.Graph.Producers
import TagFlow.Proofs.Mint
import TagFlow.Proofs.Typing.Monotone
import TagFlow.Spec.Build

/-!
# Drafts

What holds of every graph under construction (`Draft.Consistent`), and what each step of lowering does to
it: it only adds (`Draft.Grows`), and leaves rows and functions alone while one function is being lowered
(`Builder.Becomes`). `Lowering.Safely` says this of a computation, together with a property of its result;
it is what the later statements about lowering are put together from.

Origins tell identifiers apart: a row was issued as a literal, the output of a function as such, a slot as
an input of a pipe. So nothing is two of these.

A builder keeps its combine definitions twice, in the table of the graph and in a cache by their signatures.
The two agree (`Builder.Cached`) as long as a definition is only added to both, under an identifier and with
a signature that are new (`Builder.Cached.insertCombine`).
-/

namespace TagFlow

namespace Draft

variable {draft middle later : Draft} {kind : IdKind}

/-! ### Growth -/

/-- All that was there is there still. Only the types of functions and of their outputs may have
been recorded since. -/
structure Grows (before after : Draft) : Prop where
  context : before.context.Extends after.context
  session : after.mint.session = before.mint.session
  records : ∀ {text : String} {label : String} {origin : Origin} {ty : Option BaseType},
    before.mint.records[text]? = some ⟨label, origin, ty⟩ →
      ∃ ty', after.mint.records[text]? = some ⟨label, origin, ty'⟩ ∧
        (origin ≠ .function → origin ≠ .functionReturn → ty' = ty)

namespace Grows

theorem refl (draft : Draft) : draft.Grows draft :=
  ⟨.refl _, rfl, fun known => ⟨_, known, fun _ _ => rfl⟩⟩

theorem trans (first : draft.Grows middle) (second : middle.Grows later) : draft.Grows later where
  context := first.context.trans second.context
  session := second.session.trans first.session
  records known := by
    obtain ⟨ty₁, known₁, same₁⟩ := first.records known
    obtain ⟨ty₂, known₂, same₂⟩ := second.records known₁
    exact ⟨ty₂, known₂, fun h h' => (same₂ h h').trans (same₁ h h')⟩

/-- Identifiers of all but functions and their outputs keep their records. -/
theorem record? (grows : draft.Grows later) {id : Id kind} {label : String} {origin : Origin}
    {ty : Option BaseType} (known : draft.mint.record? id = some ⟨label, origin, ty⟩)
    (noFunction : origin ≠ .function) (noReturn : origin ≠ .functionReturn) :
    later.mint.record? id = some ⟨label, origin, ty⟩ := by
  obtain ⟨ty', known', same⟩ := grows.records known
  rw [same noFunction noReturn] at known'
  exact known'

/-- What is new to the later draft was new to the earlier one. -/
theorem unknown (grows : draft.Grows later) {id : Id kind}
    (new : later.mint.record? id = none) : draft.mint.record? id = none := by
  cases old : draft.mint.record? id with
  | none => rfl
  | some known =>
    obtain ⟨_, known', -⟩ := grows.records old
    exact absurd (new.symm.trans known') (by simp)

end Grows

/-- The mint of the draft has issued the identifier for this. -/
def Issued (draft : Draft) (id : Id kind) (origin : Origin) : Prop :=
  ∃ label ty, draft.mint.record? id = some ⟨label, origin, ty⟩

theorem Issued.grows {id : Id kind} {origin : Origin} (issued : draft.Issued id origin)
    (grows : draft.Grows later) : later.Issued id origin := by
  obtain ⟨label, ty, known⟩ := issued
  obtain ⟨ty', known', -⟩ := grows.records known
  exact ⟨label, ty', known'⟩

/-- An identifier was issued for one thing only. -/
theorem Issued.ne {kind' : IdKind} {id : Id kind} {id' : Id kind'} {origin origin' : Origin}
    (issued : draft.Issued id origin) (issued' : draft.Issued id' origin')
    (different : origin ≠ origin') : id.text ≠ id'.text := by
  intro same
  obtain ⟨label, ty, known⟩ := issued
  obtain ⟨label', ty', known'⟩ := issued'
  have both := known.symm.trans ((congrArg (draft.mint.records[·]?) same).trans known')
  cases both
  exact different rfl

/-! ### Consistency -/

/-- What holds of a pipe definition of the draft. -/
structure HoldsPipe (draft : Draft) (d : PipeDefinition) : Prop where
  slots : ∀ input ∈ d.inputs, draft.Issued input.slot .pipeInput
  distinct : (d.inputs.map (·.slot)).Nodup
  absolute : ∀ step ∈ d.steps, ∀ name id, (name, Source.value id) ∈ step.args →
    ∃ value, draft.context.values[id]? = some value
  nested : ∀ step ∈ d.steps, ∀ inner, step.body = .pipe inner →
    ∃ e, draft.context.pipes[inner]? = some e

theorem HoldsPipe.grows {d : PipeDefinition} (holds : draft.HoldsPipe d)
    (grows : draft.Grows later) : later.HoldsPipe d where
  slots input isInput := (holds.slots input isInput).grows grows
  distinct := holds.distinct
  absolute step isStep name id isArg := by
    obtain ⟨value, row⟩ := holds.absolute step isStep name id isArg
    exact ⟨value, grows.context.values row⟩
  nested step isStep inner body := by
    obtain ⟨e, known⟩ := holds.nested step isStep inner body
    exact ⟨e, grows.context.pipes known⟩

/-- A type that is recorded for the output of a function is the one that is inferred. -/
def TypesReturns (draft : Draft) : Prop :=
  ∀ (id : ValueId) (label : String) (ty : BaseType),
    draft.mint.record? id = some ⟨label, .functionReturn, some ty⟩ →
      ∃ function entry, draft.context.functions[function]? = some entry ∧ entry.returns = id ∧
        draft.context.functionType function = some ty

/-- What holds of every graph under construction. -/
structure Consistent (draft : Draft) : Prop where
  counted : draft.mint.Counted
  reachable : draft.context.Reachable
  acyclic : draft.context.NestingAcyclic
  rows : ∀ {id : ValueId} {value : Value}, draft.context.values[id]? = some value →
    ∃ label, draft.mint.record? id = some ⟨label, .literal, some value.baseType⟩
  functions : ∀ {id : FunctionId} {entry : FunctionEntry},
    draft.context.functions[id]? = some entry → draft.Issued entry.returns .functionReturn
  combines : ∀ {id : CombineId} {d : CombineDefinition}, draft.context.combines[id]? = some d →
    draft.Issued id .definition
  pipes : ∀ {id : PipeId} {d : PipeDefinition}, draft.context.pipes[id]? = some d →
    draft.Issued id .definition ∧ draft.HoldsPipe d
  conds : ∀ {id : CondId} {d : CondDefinition}, draft.context.conds[id]? = some d →
    draft.Issued id .definition
  returns : draft.TypesReturns

theorem consistent_new (session : Nat) : Consistent ⟨.new session, .empty⟩ where
  counted := Mint.counted_new session
  reachable := .empty
  acyclic := Context.nestingAcyclic_of_rank (fun _ => 0) fun {outer _} nests => by
    obtain ⟨d, known, -⟩ := nests
    rw [show Context.empty.pipes[outer]? = none from Std.ExtTreeMap.getElem?_empty] at known
    cases known
  rows {id _} known := by
    rw [show Context.empty.values[id]? = none from Std.ExtTreeMap.getElem?_empty] at known
    cases known
  functions {id _} known := by
    rw [show Context.empty.functions[id]? = none from Std.ExtTreeMap.getElem?_empty] at known
    cases known
  combines {id _} known := by
    rw [show Context.empty.combines[id]? = none from Std.ExtTreeMap.getElem?_empty] at known
    cases known
  pipes {id _} known := by
    rw [show Context.empty.pipes[id]? = none from Std.ExtTreeMap.getElem?_empty] at known
    cases known
  conds {id _} known := by
    rw [show Context.empty.conds[id]? = none from Std.ExtTreeMap.getElem?_empty] at known
    cases known
  returns id label ty known := by
    rw [show (Mint.new session).record? id = none from Std.ExtTreeMap.getElem?_empty] at known
    cases known

namespace Consistent

theorem closed (consistent : draft.Consistent) {outer inner : PipeId}
    (nests : draft.context.Nests outer inner) : ∃ e, draft.context.pipes[inner]? = some e := by
  obtain ⟨d, known, step, isStep, body⟩ := nests
  exact (consistent.pipes known).2.nested step isStep inner body

/-- A draft with other records is consistent, if it has grown. -/
theorem withMint (consistent : draft.Consistent) {mint : Mint}
    (grows : draft.Grows ⟨mint, draft.context⟩) (counted : mint.Counted)
    (returns : TypesReturns ⟨mint, draft.context⟩) : Consistent ⟨mint, draft.context⟩ where
  counted := counted
  reachable := consistent.reachable
  acyclic := consistent.acyclic
  rows row := by
    obtain ⟨label, known⟩ := consistent.rows row
    exact ⟨label, grows.record? known (by decide) (by decide)⟩
  functions known := (consistent.functions known).grows grows
  combines known := (consistent.combines known).grows grows
  pipes known := ⟨(consistent.pipes known).1.grows grows, (consistent.pipes known).2.grows grows⟩
  conds known := (consistent.conds known).grows grows
  returns := returns

theorem returns_grows (consistent : draft.Consistent) {context : Context}
    (more : draft.context.Extends context) : TypesReturns ⟨draft.mint, context⟩ := by
  intro id label ty known
  obtain ⟨function, entry, here, writes, typed⟩ := consistent.returns id label ty known
  exact ⟨function, entry, more.functions here, writes, Context.functionType_extends more typed⟩

end Consistent

/-! ### Adding to the graph -/

theorem extends_insertCombine {c : Context} {id : CombineId} (d : CombineDefinition)
    (new : c.combines[id]? = none) : c.Extends (c.insertCombine id d) where
  values h := h
  functions h := h
  combines h := Table.getElem?_insert_of_new new h
  pipes h := h
  conds h := h

theorem extends_insertPipe {c : Context} {id : PipeId} (d : PipeDefinition)
    (new : c.pipes[id]? = none) : c.Extends (c.insertPipe id d) where
  values h := h
  functions h := h
  combines h := h
  pipes h := Table.getElem?_insert_of_new new h
  conds h := h

theorem extends_insertCond {c : Context} {id : CondId} (d : CondDefinition)
    (new : c.conds[id]? = none) : c.Extends (c.insertCond id d) where
  values h := h
  functions h := h
  combines h := h
  pipes h := h
  conds h := Table.getElem?_insert_of_new new h

theorem extends_insertValue {c : Context} {id : ValueId} (value : Value)
    (new : c.values[id]? = none) : c.Extends (c.insertValue id value) where
  values h := Table.getElem?_insert_of_new new h
  functions h := h
  combines h := h
  pipes h := h
  conds h := h

theorem insertFunction_of_new {c : Context} {id : FunctionId} (entry : FunctionEntry)
    (new : c.functions[id]? = none) :
    c.insertFunction id entry =
      { c with
        functions := c.functions.insert id entry
        producers := c.producers.insert entry.returns id } := by
  unfold Context.insertFunction
  rw [new]
  rfl

theorem extends_insertFunction {c : Context} {id : FunctionId} (entry : FunctionEntry)
    (new : c.functions[id]? = none) : c.Extends (c.insertFunction id entry) := by
  rw [insertFunction_of_new entry new]
  exact ⟨fun h => h, fun h => Table.getElem?_insert_of_new new h, fun h => h, fun h => h, fun h => h⟩

/-- Growth of the graph alone. -/
theorem grows_of_extends {context : Context} (more : draft.context.Extends context) :
    draft.Grows ⟨draft.mint, context⟩ :=
  ⟨more, rfl, fun known => ⟨_, known, fun _ _ => rfl⟩⟩

namespace Consistent

theorem insertCombine (consistent : draft.Consistent) {id : CombineId} (d : CombineDefinition)
    (new : draft.context.combines[id]? = none) (issued : draft.Issued id .definition) :
    Consistent ⟨draft.mint, draft.context.insertCombine id d⟩ where
  counted := consistent.counted
  reachable := .insertCombine _ _ consistent.reachable
  acyclic := consistent.acyclic
  rows := consistent.rows
  functions := consistent.functions
  combines {other e} known := by
    have known : (draft.context.combines.insert id d)[other]? = some e := known
    rw [Table.getElem?_insert] at known
    split at known
    · next same => exact same ▸ issued
    · exact consistent.combines known
  pipes known := ⟨(consistent.pipes known).1,
    (consistent.pipes known).2.grows (grows_of_extends (extends_insertCombine d new))⟩
  conds := consistent.conds
  returns := consistent.returns_grows (extends_insertCombine d new)

theorem insertPipe (consistent : draft.Consistent) {id : PipeId} {d : PipeDefinition}
    (new : draft.context.pipes[id]? = none) (issued : draft.Issued id .definition)
    (holds : draft.HoldsPipe d) :
    Consistent ⟨draft.mint, draft.context.insertPipe id d⟩ where
  counted := consistent.counted
  reachable := .insertPipe _ _ consistent.reachable
  acyclic := consistent.acyclic.insertPipe new consistent.closed holds.nested
  rows := consistent.rows
  functions := consistent.functions
  combines := consistent.combines
  pipes {other e} known := by
    have grows := grows_of_extends (extends_insertPipe d new)
    have known : (draft.context.pipes.insert id d)[other]? = some e := known
    rw [Table.getElem?_insert] at known
    split at known
    · next same =>
      cases known
      exact ⟨same ▸ issued, holds.grows grows⟩
    · exact ⟨(consistent.pipes known).1, (consistent.pipes known).2.grows grows⟩
  conds := consistent.conds
  returns := consistent.returns_grows (extends_insertPipe d new)

theorem insertCond (consistent : draft.Consistent) {id : CondId} (d : CondDefinition)
    (new : draft.context.conds[id]? = none) (issued : draft.Issued id .definition) :
    Consistent ⟨draft.mint, draft.context.insertCond id d⟩ where
  counted := consistent.counted
  reachable := .insertCond _ _ consistent.reachable
  acyclic := consistent.acyclic
  rows := consistent.rows
  functions := consistent.functions
  combines := consistent.combines
  pipes known := ⟨(consistent.pipes known).1,
    (consistent.pipes known).2.grows (grows_of_extends (extends_insertCond d new))⟩
  conds {other e} known := by
    have known : (draft.context.conds.insert id d)[other]? = some e := known
    rw [Table.getElem?_insert] at known
    split at known
    · next same => exact same ▸ issued
    · exact consistent.conds known
  returns := consistent.returns_grows (extends_insertCond d new)

theorem insertValue (consistent : draft.Consistent) {id : ValueId} {value : Value} {label : String}
    (new : draft.context.values[id]? = none)
    (known : draft.mint.record? id = some ⟨label, .literal, some value.baseType⟩) :
    Consistent ⟨draft.mint, draft.context.insertValue id value⟩ where
  counted := consistent.counted
  reachable := .insertValue _ _ consistent.reachable
  acyclic := consistent.acyclic
  rows {other content} row := by
    have row : (draft.context.values.insert id value)[other]? = some content := row
    rw [Table.getElem?_insert] at row
    split at row
    · next same =>
      cases row
      exact ⟨label, same ▸ known⟩
    · exact consistent.rows row
  functions := consistent.functions
  combines := consistent.combines
  pipes known := ⟨(consistent.pipes known).1,
    (consistent.pipes known).2.grows (grows_of_extends (extends_insertValue value new))⟩
  conds := consistent.conds
  returns := consistent.returns_grows (extends_insertValue value new)

theorem insertFunction (consistent : draft.Consistent) {id : FunctionId} {entry : FunctionEntry}
    (new : draft.context.functions[id]? = none)
    (issued : draft.Issued entry.returns .functionReturn) :
    Consistent ⟨draft.mint, draft.context.insertFunction id entry⟩ := by
  have more := extends_insertFunction entry new
  have same := insertFunction_of_new entry new
  refine
    { counted := consistent.counted
      reachable := .insertFunction _ _ consistent.reachable
      acyclic := ?_
      rows := fun row => ?_
      functions := fun {other _} known => ?_
      combines := fun known => ?_
      pipes := fun known => ?_
      conds := fun known => ?_
      returns := consistent.returns_grows more }
  all_goals simp only [same] at *
  · exact consistent.acyclic
  · exact consistent.rows row
  · rw [Table.getElem?_insert] at known
    split at known
    · cases known
      exact issued
    · exact consistent.functions known
  · exact consistent.combines known
  · exact ⟨(consistent.pipes known).1, (consistent.pipes known).2.grows (grows_of_extends more)⟩
  · exact consistent.conds known

end Consistent

end Draft

/-! ### The cache of combine definitions -/

namespace Builder

variable {builder later : Builder}

/-- The cache and the table of combine definitions agree: it leads from a signature to the definition that
has it. -/
def Cached (builder : Builder) : Prop := ∀ (signature : CombineSignature) (id : CombineId),
  builder.cache[signature]? = some id ↔
    ∃ d, builder.context.combines[id]? = some d ∧ d.signature = signature

namespace Cached

theorem new (session : Nat) : (Builder.new session).Cached := by
  intro signature id
  constructor
  · intro remembered
    cases Std.ExtTreeMap.getElem?_empty.symm.trans remembered
  · rintro ⟨d, known, -⟩
    cases Std.ExtTreeMap.getElem?_empty.symm.trans known

/-- Nothing but the cache and the table matters. -/
theorem of_eq (cached : builder.Cached) (cache : later.cache = builder.cache)
    (combines : later.context.combines = builder.context.combines) : later.Cached := by
  intro signature id
  rw [cache, combines]
  exact cached signature id

/-- No two definitions have the same signature. -/
theorem signatures (cached : builder.Cached) {id other : CombineId} {d e : CombineDefinition}
    (known : builder.context.combines[id]? = some d)
    (known' : builder.context.combines[other]? = some e) (same : d.signature = e.signature) :
    id = other := by
  have remembered := (cached d.signature id).2 ⟨d, known, rfl⟩
  have remembered' := (cached d.signature other).2 ⟨e, known', same.symm⟩
  exact Option.some.inj (remembered.symm.trans remembered')

/-- A definition that is added to both, where neither its identifier nor its signature was there. -/
theorem insertCombine (cached : builder.Cached) {id : CombineId} {d : CombineDefinition}
    (new : builder.context.combines[id]? = none) (unknown : builder.cache[d.signature]? = none) :
    Cached ⟨⟨builder.mint, builder.context.insertCombine id d⟩, builder.cache.insert d.signature id⟩ := by
  intro signature other
  show (builder.cache.insert d.signature id)[signature]? = some other ↔
    ∃ e, (builder.context.combines.insert id d)[other]? = some e ∧ e.signature = signature
  rw [Table.getElem?_insert, Table.getElem?_insert]
  by_cases same : d.signature = signature
  · -- no definition had the signature before
    have only : ∀ e, builder.context.combines[other]? = some e → e.signature ≠ signature := by
      intro e known hasIt
      have remembered := (cached signature other).2 ⟨e, known, hasIt⟩
      rw [← same, unknown] at remembered
      cases remembered
    rw [if_pos same, Option.some.injEq]
    constructor
    · rintro rfl
      exact ⟨d, if_pos rfl, same⟩
    · rintro ⟨e, known, hasIt⟩
      by_contra apart
      rw [if_neg apart] at known
      exact only e known hasIt
  · rw [if_neg same, cached signature other]
    constructor
    · rintro ⟨e, known, hasIt⟩
      refine ⟨e, ?_, hasIt⟩
      rw [if_neg, known]
      rintro rfl
      cases new.symm.trans known
    · rintro ⟨e, known, hasIt⟩
      split at known
      · cases known
        exact absurd hasIt same
      · exact ⟨e, known, hasIt⟩

end Cached

/-- What holds of every builder. -/
structure Consistent (builder : Builder) : Prop extends builder.toDraft.Consistent where
  cached : builder.Cached

theorem consistent_new (session : Nat) : (Builder.new session).Consistent :=
  ⟨Draft.consistent_new session, .new session⟩

end Builder

end TagFlow
