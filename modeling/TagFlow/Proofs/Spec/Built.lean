import TagFlow.Proofs.Evaluation.Agreement
import TagFlow.Proofs.Spec.Registering
import TagFlow.Proofs.Spec.Scoping

/-!
# Graphs that are built from specs

A build scopes an entry and lowers it before it goes on to the next. Lowering has no say in what an entry
may refer to, so the graph is the same as if all entries were scoped first (`lower_eq_scope`), and a
successful build has gone through the stages that `Stages` lists. What it has made of the spec is
`Compiled` (`compiled_of_build`): every literal is a row, every function entry has been scoped and
lowered, the graph has no other rows and functions, and no definitions that these do not use.

From this follows what evaluation rests on (`Compiled.orderly`): the index of producers is exact,
every output has one writer, the nesting of pipes ends, slots are distinct, and absolute values are
neither slots nor outputs. It follows as well that rows have no producers, that the cache of the builder
agrees with the table of definitions (`cached_of_build`), and that no identifier of the graph can be a
scratch identifier of another session (`freshIn_of_build`).
-/

namespace TagFlow

open Result

namespace Draft

variable {draft later : Draft} {kind : IdKind}

/-- What a mint has issued is of its session. -/
theorem Issued.ofSession {id : Id kind} {origin : Origin} (issued : draft.Issued id origin)
    (counted : draft.mint.Counted) : id.OfSession draft.mint.session := by
  obtain ⟨_, _, known⟩ := issued
  obtain ⟨kind', label, serial, text, -⟩ := counted _ _ known
  exact ⟨kind', label, serial, text⟩

/-- Recording the type of a function or of an output. -/
theorem grows_recordType? {id : Id kind} {origin : Origin} (issued : draft.Issued id origin)
    (ofFunction : origin = .function ∨ origin = .functionReturn) (ty : Option BaseType) :
    draft.Grows ⟨draft.mint.recordType? id ty, draft.context⟩ := by
  refine ⟨.refl _, (draft.mint.counters_recordType? id ty).1, fun {text label origin' old} known => ?_⟩
  obtain ⟨ty', known', same⟩ := draft.mint.records_recordType? id ty known
  refine ⟨ty', known', fun noFunction noReturn => same ?_⟩
  rintro rfl
  obtain ⟨_, _, here⟩ := issued
  cases known.symm.trans here
  exact ofFunction.elim noFunction noReturn

/-- Recording the inferred type of a function, and then of its output. -/
theorem Consistent.recordTypes (consistent : draft.Consistent) {function : FunctionId}
    {entry : FunctionEntry} (known : draft.context.functions[function]? = some entry)
    (issued : draft.Issued function .function) :
    let ty := draft.context.functionType function
    let after : Draft :=
      ⟨(draft.mint.recordType? function ty).recordType? entry.returns ty, draft.context⟩
    after.Consistent ∧ draft.Grows after := by
  intro ty after
  let middle : Draft := ⟨draft.mint.recordType? function ty, draft.context⟩
  have first : draft.Grows middle := grows_recordType? issued (.inl rfl) ty
  have second : middle.Grows after :=
    grows_recordType? ((consistent.functions known).grows first) (.inr rfl) ty
  have grows := first.trans second
  refine ⟨consistent.withMint grows ((consistent.counted.recordType? _ _).recordType? _ _) ?_, grows⟩
  intro id label t here
  rcases Mint.of_records_recordType? here with here | ⟨same, typed, -⟩
  · rcases Mint.of_records_recordType? here with here | ⟨same, -, old, before⟩
    · exact consistent.returns id label t here
    · -- the identifier of a function is not that of an output
      exact absurd same (issued.ne ⟨label, old, before⟩ (by decide))
  · exact ⟨function, entry, known, Id.ext_text same, typed⟩

end Draft

namespace Lowering

variable {draft : Draft} {builder : Builder}

/-! ### Lowering entries -/

/-- An entry that is ready to be lowered. -/
structure Ready (draft : Draft) (entry : Pending) : Prop where
  new : draft.context.functions[entry.id]? = none
  function : draft.Issued entry.id .function
  returns : draft.Issued entry.returns .functionReturn
  grounded : FunctionGrounded draft.context.values entry.body

/-- Lowering an entry adds just the one function. -/
theorem lowerEntry_spec (consistent : builder.Consistent) (entry : Pending)
    (ready : Ready builder entry) :
    let after := ((lowerEntry entry).run builder).2
    after.Consistent ∧ builder.Grows after ∧ after.context.values = builder.context.values ∧
      ∃ lowered, builder.context.AddsOnly after.context [lowered.definition] ∧
        FunctionLowered after entry.name entry.body lowered ∧
        lowered.returns = entry.returns ∧
        after.context.functions = builder.context.functions.insert entry.id lowered := by
  obtain ⟨becomes, adds, isLowered, returns⟩ := safely_lowerFunction consistent entry.name entry.returns
    entry.body ready.grounded
  unfold lowerEntry
  intro after
  let lowered := ((lowerFunction entry.name entry.returns entry.body).run builder).1
  let middle := ((lowerFunction entry.name entry.returns entry.body).run builder).2
  have new : middle.context.functions[entry.id]? = none := by
    rw [becomes.functions]
    exact ready.new
  have issued : middle.Issued lowered.returns .functionReturn := by
    rw [show lowered.returns = entry.returns from returns]
    exact ready.returns.grows becomes.grows
  let inserted : Draft := ⟨middle.mint, middle.context.insertFunction entry.id lowered⟩
  have table : inserted.context.functions = middle.context.functions.insert entry.id lowered := by
    show (middle.context.insertFunction entry.id lowered).functions = _
    rw [Draft.insertFunction_of_new lowered new]
  have grows : middle.Grows inserted :=
    Draft.grows_of_extends (Draft.extends_insertFunction lowered new)
  have known : inserted.context.functions[entry.id]? = some lowered := by
    rw [table]
    exact Table.getElem?_insert_self
  -- the types are inferred in the graph that already has the function
  obtain ⟨consistent', grows'⟩ :=
    (becomes.consistent.toConsistent.insertFunction new issued).recordTypes known
      ((ready.function.grows becomes.grows).grows grows)
  have same : after.toDraft = ⟨(inserted.mint.recordType? entry.id
      (inserted.context.functionType entry.id)).recordType? lowered.returns
      (inserted.context.functionType entry.id), inserted.context⟩ := by
    rw [show lowered.returns = entry.returns from returns]
    rfl
  have combines : after.context.combines = middle.context.combines := by
    show (middle.context.insertFunction entry.id lowered).combines = _
    rw [Draft.insertFunction_of_new lowered new]
  have consistent : after.Consistent := ⟨same ▸ consistent', becomes.consistent.cached.of_eq rfl combines⟩
  refine ⟨consistent, ?_⟩
  rw [same]
  refine ⟨(becomes.grows.trans grows).trans grows', ?_, lowered, ?_,
    isLowered.grows (grows.trans grows'), returns, ?_⟩
  · show (middle.context.insertFunction entry.id lowered).values = _
    rw [Draft.insertFunction_of_new lowered new]
    exact becomes.values
  · have functionOnly : middle.context.AddsOnly inserted.context [] := by
      show middle.context.AddsOnly (middle.context.insertFunction entry.id lowered) []
      rw [Draft.insertFunction_of_new lowered new]
      exact .of_eq rfl rfl rfl
    exact adds.trans grows.context functionOnly
  · rw [table, show middle.context.functions = _ from becomes.functions]

/-- Lowering entries, one after the other, adds just their functions. -/
theorem forM_lowerEntry_spec : ∀ (pending : List Pending) (builder : Builder), builder.Consistent →
    (∀ entry ∈ pending, Ready builder entry) → (pending.map (·.id)).Nodup →
    let after := ((pending.forM lowerEntry).run builder).2
    after.Consistent ∧ builder.Grows after ∧ after.context.values = builder.context.values ∧
      (builder.context.AllUsed → after.context.AllUsed) ∧
      (∀ entry ∈ pending, ∃ lowered, after.context.functions[entry.id]? = some lowered ∧
        lowered.returns = entry.returns ∧ FunctionLowered after entry.name entry.body lowered) ∧
      ∀ (id : FunctionId) (lowered : FunctionEntry), after.context.functions[id]? = some lowered →
        builder.context.functions[id]? = some lowered ∨
          ∃ entry ∈ pending, entry.id = id ∧ entry.returns = lowered.returns
  | [], builder, consistent, _, _ =>
    ⟨consistent, .refl _, rfl, id, fun _ h => (nomatch h), fun _ _ known => .inl known⟩
  | entry :: rest, builder, consistent, ready, distinct => by
    obtain ⟨apart, distinct⟩ := List.nodup_cons.1 distinct
    obtain ⟨consistent₁, grows₁, values₁, lowered, adds, isLowered, returns, table⟩ :=
      lowerEntry_spec consistent entry (ready entry List.mem_cons_self)
    -- the other entries have other identifiers, so they are as new as before
    have readyRest : ∀ other ∈ rest, Ready ((lowerEntry entry).run builder).2 other := by
      intro other isRest
      have before := ready other (List.mem_cons_of_mem _ isRest)
      refine ⟨?_, before.function.grows grows₁, before.returns.grows grows₁, ?_⟩
      · rw [table, Table.getElem?_insert_of_ne]
        · exact before.new
        · exact fun same => apart (List.mem_map.2 ⟨other, isRest, same.symm⟩)
      · rw [values₁]
        exact before.grounded
    obtain ⟨consistent₂, grows₂, values₂, used, entries, only⟩ :=
      forM_lowerEntry_spec rest _ consistent₁ readyRest distinct
    have known : ((lowerEntry entry).run builder).2.context.functions[entry.id]? = some lowered := by
      rw [table]
      exact Table.getElem?_insert_self
    refine ⟨consistent₂, grows₁.trans grows₂, values₂.trans values₁,
      fun all => used (all.adds grows₁.context adds known), ?_, ?_⟩
    · intro other isEntry
      rcases List.mem_cons.1 isEntry with rfl | isRest
      · exact ⟨lowered, grows₂.context.functions known, returns, isLowered.grows grows₂⟩
      · exact entries other isRest
    · intro id other known
      rcases only id other known with old | ⟨found, isRest, same⟩
      · rw [table, Table.getElem?_insert] at old
        split at old
        · next same =>
          cases old
          exact .inr ⟨entry, List.mem_cons_self, same, returns.symm⟩
        · exact .inl old
      · exact .inr ⟨found, List.mem_cons_of_mem _ isRest, same⟩

end Lowering

namespace Spec

open Lowering

/-! ### Scoping all entries -/

/-- Follow the references of all function entries, in order, without lowering any. -/
def scope (names : Names) : List (String × SpecEntry) → Except BuildError (List Pending)
  | [] => .ok []
  | (_, .literal _) :: rest => scope names rest
  | (name, .function expr) :: rest =>
    match names[name]? with
    | some (.function id returns) => do
      let body ← names.scopeFunction name expr
      let others ← scope names rest
      return ⟨name, id, returns, body⟩ :: others
    | _ => scope names rest

/-- What an entry may refer to does not depend on what has been lowered: all entries could be scoped before
the first is lowered. -/
theorem lower_eq_scope (names : Names) : ∀ (entries : List (String × SpecEntry)) (builder : Builder),
    lower names entries builder =
      (scope names entries).map fun pending => ((pending.forM lowerEntry).run builder).2
  | [], _ => rfl
  | (_, .literal _) :: rest, builder => lower_eq_scope names rest builder
  | (name, .function expr) :: rest, builder => by
    rw [lower, scope]
    rcases names[name]? with _ | _ | ⟨id, returns⟩
    · exact lower_eq_scope names rest builder
    · exact lower_eq_scope names rest builder
    · cases names.scopeFunction name expr with
      | error e => rfl
      | ok body =>
        show lower names rest ((lowerEntry ⟨name, id, returns, body⟩).run builder).2 =
          Except.map _ (scope names rest >>= fun others => .ok (⟨name, id, returns, body⟩ :: others))
        rw [lower_eq_scope names rest]
        cases scope names rest with
        | error e => rfl
        | ok others => rfl

theorem scope_function_eq_ok {names : Names} {name : String} {expr : FunctionExpr}
    {rest : List (String × SpecEntry)} {id : FunctionId} {returns : ValueId} {pending : List Pending}
    (found : names[name]? = some (.function id returns)) :
    scope names ((name, .function expr) :: rest) = .ok pending ↔
      ∃ body others, names.scopeFunction name expr = .ok body ∧ scope names rest = .ok others ∧
        pending = ⟨name, id, returns, body⟩ :: others := by
  rw [scope, found]
  simp only [bind_eq_ok, pure, Except.pure, Except.ok.injEq, exists_and_left]
  tauto

/-- An entry that was not registered makes no difference. -/
theorem scope_of_unregistered {names : Names} {name : String} {expr : FunctionExpr}
    {rest : List (String × SpecEntry)}
    (unknown : ¬ ∃ id returns, names[name]? = some (.function id returns)) :
    scope names ((name, .function expr) :: rest) = scope names rest := by
  rw [scope]
  split
  · next id returns found => exact absurd ⟨id, returns, found⟩ unknown
  · rfl

/-- What a successful scoping of all entries gives: each function entry in order, ready to be
lowered. -/
theorem scope_eq_ok {names : Names} : ∀ {entries : List (String × SpecEntry)}
    {pending : List Pending}, scope names entries = .ok pending →
    (pending.map (·.name)).Sublist (entries.map (·.1)) ∧
      (∀ name expr id returns, (name, .function expr) ∈ entries →
        names[name]? = some (.function id returns) →
        ∃ body, names.scopeFunction name expr = .ok body ∧ ⟨name, id, returns, body⟩ ∈ pending) ∧
      ∀ entry ∈ pending, names[entry.name]? = some (.function entry.id entry.returns) ∧
        ∃ expr, names.scopeFunction entry.name expr = .ok entry.body
  | [], pending, run => by
    cases run
    exact ⟨.slnil, fun _ _ _ _ h => (nomatch h), fun _ h => (nomatch h)⟩
  | (name, .literal value) :: rest, pending, run => by
    obtain ⟨order, all, only⟩ := scope_eq_ok (show scope names rest = .ok pending from run)
    refine ⟨order.cons _, fun other expr id returns isEntry found => ?_, only⟩
    rcases List.mem_cons.1 isEntry with same | isEntry
    · cases same
    · exact all other expr id returns isEntry found
  | (name, .function expr) :: rest, pending, run => by
    by_cases registered : ∃ id returns, names[name]? = some (.function id returns)
    · obtain ⟨id, returns, found⟩ := registered
      obtain ⟨body, others, isScoped, later, rfl⟩ := (scope_function_eq_ok found).1 run
      obtain ⟨order, all, only⟩ := scope_eq_ok later
      refine ⟨order.cons_cons _, fun other expr' id' returns' isEntry found' => ?_,
        fun entry isPending => ?_⟩
      · rcases List.mem_cons.1 isEntry with same | isEntry
        · cases same
          cases found.symm.trans found'
          exact ⟨body, isScoped, List.mem_cons_self⟩
        · obtain ⟨body', isScoped', isPending⟩ := all other expr' id' returns' isEntry found'
          exact ⟨body', isScoped', List.mem_cons_of_mem _ isPending⟩
      · rcases List.mem_cons.1 isPending with rfl | isPending
        · exact ⟨found, expr, isScoped⟩
        · exact only entry isPending
    · rw [scope_of_unregistered registered] at run
      obtain ⟨order, all, only⟩ := scope_eq_ok run
      refine ⟨order.cons _, fun other expr' id' returns' isEntry found' => ?_, only⟩
      rcases List.mem_cons.1 isEntry with same | isEntry
      · cases same
        exact absurd ⟨id', returns', found'⟩ registered
      · exact all other expr' id' returns' isEntry found'

/-! ### The whole build -/

/-- How a build went: the names were registered, and then the scoped entries were lowered one after the
other. -/
structure Stages (spec : Spec) (session : Nat) (built : Built) (start : Builder)
    (pending : List Pending) : Prop where
  registers : (register spec.entries).run (.new session) = (built.names, start)
  consistent : start.Consistent
  issues : start.mint.session = session
  onlyRows : start.context = Context.empty.setValues start.context.values
  registered : Registered spec.entries built.names start
  isScoped : scope built.names spec.entries = .ok pending
  ready : ∀ entry ∈ pending, Ready start entry
  distinct : (pending.map (·.id)).Nodup
  assembled : spec.assemble session = .ok (built.names, ((pending.forM lowerEntry).run start).2)
  finished : ((pending.forM lowerEntry).run start).2.finish built.names = built

/-- The graph that was built is that of the last builder. -/
theorem Stages.lowered {spec : Spec} {session : Nat} {built : Built} {start : Builder}
    {pending : List Pending} (stages : Stages spec session built start pending) :
    ((pending.forM lowerEntry).run start).2.toDraft = ⟨built.mint, built.context⟩ := by
  rw [← stages.finished]
  rfl

theorem build_eq_ok {spec : Spec} {session : Nat} {built : Built} :
    spec.build session = .ok built ↔
      ∃ builder, spec.assemble session = .ok (built.names, builder) ∧
        builder.finish built.names = built := by
  unfold build
  rw [bind_eq_ok]
  constructor
  · rintro ⟨⟨names, builder⟩, assembled, ⟨⟩⟩
    exact ⟨builder, assembled, rfl⟩
  · rintro ⟨builder, assembled, finished⟩
    exact ⟨_, assembled, congrArg Except.ok finished⟩

/-- The builder in which all names are registered and nothing is lowered. -/
theorem assemble_eq_scope {spec : Spec} (session : Nat) (named : spec.unnamed? = none) :
    let registered := (register spec.entries).run (.new session)
    spec.assemble session = (scope registered.1 spec.entries).map fun pending =>
      (registered.1, ((pending.forM lowerEntry).run registered.2).2) := by
  intro registered
  unfold assemble
  rw [named]
  show (lower registered.1 spec.entries registered.2 >>= _) = _
  rw [lower_eq_scope]
  cases scope registered.1 spec.entries with
  | error e => rfl
  | ok pending => rfl

theorem exists_stages {spec : Spec} {session : Nat} {built : Built}
    (run : spec.build session = .ok built) : ∃ start pending, Stages spec session built start pending := by
  obtain ⟨builder, assembled, finished⟩ := build_eq_ok.1 run
  have named : spec.unnamed? = none := by
    cases unnamed : spec.unnamed? with
    | none => rfl
    | some position =>
      rw [assemble, unnamed] at assembled
      cases assembled
  obtain ⟨consistent, issues, onlyRows, registered⟩ := register_spec spec.nodup session
  let start := ((register spec.entries).run (.new session)).2
  obtain ⟨pending, isScoped, same⟩ := map_eq_ok.1 ((assemble_eq_scope session named).symm.trans assembled)
  obtain ⟨names, rfl⟩ := Prod.ext_iff.1 same
  rw [show ((register spec.entries).run (.new session)).1 = built.names from names] at isScoped registered
  obtain ⟨order, -, only⟩ := scope_eq_ok isScoped
  have functions : start.context.functions = ∅ := congrArg Context.functions onlyRows
  have literals : built.names.LiteralsIn start.context.values := fun name id found => by
    obtain ⟨value, -, row⟩ := registered.ofLiteral found
    exact ⟨value, row⟩
  have ready : ∀ entry ∈ pending, Ready start entry := fun entry isPending => by
    obtain ⟨found, expr, isScoped⟩ := only entry isPending
    obtain ⟨-, function, returns⟩ := registered.ofFunction found
    refine ⟨?_, function, returns, Names.grounded_of_scopeFunction literals isScoped⟩
    rw [functions]
    exact Std.ExtTreeMap.getElem?_empty
  -- entries have different names, and different names got different identifiers
  have distinct : (pending.map (·.id)).Nodup := by
    have names : (pending.map (·.name)).Nodup := order.nodup spec.nodup
    refine (List.pairwise_map.1 names).imp_of_mem ?_ |> List.pairwise_map.2
    intro entry other isPending isPending' different same
    exact different (registered.distinct (only entry isPending).1 (only other isPending').1
      (.inl same))
  exact ⟨start, pending, Prod.ext names rfl, consistent, issues, onlyRows, registered, isScoped, ready,
    distinct, assembled, finished⟩

/-- What a build has made of a spec. -/
structure Compiled (spec : Spec) (built : Built) : Prop where
  consistent : Draft.Consistent ⟨built.mint, built.context⟩
  registered : Registered spec.entries built.names ⟨built.mint, built.context⟩
  lowered : ∀ {name : String} {expr : FunctionExpr} {id : FunctionId} {returns : ValueId},
    (name, .function expr) ∈ spec.entries → built.names[name]? = some (.function id returns) →
    ∃ body entry, built.names.scopeFunction name expr = .ok body ∧
      built.context.functions[id]? = some entry ∧ entry.returns = returns ∧
      FunctionLowered ⟨built.mint, built.context⟩ name body entry
  functions : ∀ {id : FunctionId} {entry : FunctionEntry},
    built.context.functions[id]? = some entry →
    ∃ name : String, built.names[name]? = some (Binding.function id entry.returns)
  used : built.context.AllUsed

theorem compiled_of_build {spec : Spec} {session : Nat} {built : Built}
    (run : spec.build session = .ok built) : Compiled spec built := by
  obtain ⟨start, pending, stages⟩ := exists_stages run
  obtain ⟨-, all, only⟩ := scope_eq_ok stages.isScoped
  obtain ⟨consistent, grows, values, used, entries, others⟩ :=
    forM_lowerEntry_spec pending start stages.consistent stages.ready stages.distinct
  rw [stages.lowered] at grows values used entries others
  have noDefinitions : start.context.AllUsed := stages.onlyRows ▸ Context.allUsed_of_rows _
  refine ⟨stages.lowered ▸ consistent.toConsistent, stages.registered.grows grows values,
    fun {name expr id returns} isEntry found => ?_, fun {id entry} known => ?_, used noDefinitions⟩
  · obtain ⟨body, isScoped, isPending⟩ := all name expr id returns isEntry found
    obtain ⟨lowered, known, same, isLowered⟩ := entries _ isPending
    exact ⟨body, lowered, isScoped, known, same, isLowered⟩
  · rcases others id entry known with old | ⟨found, isPending, rfl, same⟩
    · rw [stages.onlyRows] at old
      cases Std.ExtTreeMap.getElem?_empty.symm.trans old
    · exact ⟨found.name, same ▸ (only found isPending).1⟩

namespace Compiled

variable {spec : Spec} {built : Built} {id : ValueId} {value : Value}

/-- The node of a function entry. -/
theorem exists_returns {name : String} {function : FunctionId}
    (named : built.function? name = some function) :
    ∃ returns, built.names[name]? = some (.function function returns) := by
  unfold Built.function? Built.node? at named
  obtain ⟨node, isNode, isFunction⟩ := Option.bind_eq_some_iff.1 named
  obtain ⟨binding, found, rfl⟩ := Option.map_eq_some_iff.1 isNode
  cases binding with
  | literal id => cases isFunction
  | function id returns =>
    cases isFunction
    exact ⟨returns, found⟩

theorem function?_eq_some {name : String} {function : FunctionId} {returns : ValueId}
    (found : built.names[name]? = some (.function function returns)) :
    built.function? name = some function := by
  unfold Built.function? Built.node?
  rw [found]
  rfl

/-- What a function writes was issued as the output of a function. -/
theorem issued_of_writes (compiled : Compiled spec built) {function : FunctionId}
    (writes : built.context.Writes function id) :
    Draft.Issued ⟨built.mint, built.context⟩ id .functionReturn := by
  obtain ⟨entry, known, rfl⟩ := writes
  exact compiled.consistent.functions known

/-- No function writes a row. -/
theorem not_writes_row (compiled : Compiled spec built)
    (row : built.context.values[id]? = some value) (function : FunctionId) :
    ¬ built.context.Writes function id := by
  intro writes
  obtain ⟨label, known⟩ := compiled.consistent.rows row
  have isRow : Draft.Issued ⟨built.mint, built.context⟩ id .literal := ⟨label, _, known⟩
  exact isRow.ne (compiled.issued_of_writes writes) (by decide) rfl

/-- Rows have no producers. -/
theorem unproduced (compiled : Compiled spec built)
    (row : built.context.values[id]? = some value) : built.context.producerOf? id = none := by
  cases produced : built.context.producerOf? id with
  | none => rfl
  | some function =>
    have writes := compiled.consistent.reachable.indexExact.writes produced
    exact absurd writes (compiled.not_writes_row row function)

/-- A graph that was built has all that evaluation rests on. -/
theorem orderly (compiled : Compiled spec built) : built.context.Orderly where
  exact := compiled.consistent.reachable.indexExact
  distinct := by
    rintro id function other ⟨entry, known, rfl⟩ ⟨entry', known', same⟩
    obtain ⟨name, found⟩ := compiled.functions known
    obtain ⟨name', found'⟩ := compiled.functions known'
    have := compiled.registered.distinct found found' (.inr same.symm)
    subst this
    have both := found.symm.trans found'
    simp only [Option.some.injEq, Binding.function.injEq] at both
    exact both.1
  acyclic := compiled.consistent.acyclic
  slots id d known := (compiled.consistent.pipes known).2.distinct
  apart := by
    intro id d known step isStep name absolute isArg
    obtain ⟨-, holds⟩ := compiled.consistent.pipes known
    obtain ⟨value, row⟩ := holds.absolute step isStep name absolute isArg
    refine ⟨compiled.not_writes_row row, fun isSlot => ?_⟩
    obtain ⟨input, isInput, same⟩ := List.mem_map.1 isSlot
    obtain ⟨label, literal⟩ := compiled.consistent.rows row
    have isRow : Draft.Issued ⟨built.mint, built.context⟩ absolute .literal := ⟨label, _, literal⟩
    exact isRow.ne (holds.slots input isInput) (by decide) (congrArg Id.text same.symm)

/-- The arguments of a pipe entry, where the names of its inputs are different. -/
theorem ofList_outputs {bindings : List (String × Binding)} (names : (bindings.map (·.1)).Nodup) :
    let args := ArgMap.ofList (bindings.map fun binding => (binding.1, binding.2.output))
    args.names = bindings.map (·.1) ∧ args.values = bindings.map (·.2.output) := by
  have distinct : (Bindings.names (bindings.map fun binding =>
      (binding.1, binding.2.output))).Nodup := by
    simpa [Bindings.names, Function.comp_def] using names
  constructor
  · rw [ArgMap.names_ofList distinct, Bindings.names, List.map_map]
    rfl
  · rw [ArgMap.values_ofList distinct, List.map_map]
    rfl

/-- Every function of the graph has been scoped and lowered from an entry. -/
theorem exists_entry (compiled : Compiled spec built) {function : FunctionId} {entry : FunctionEntry}
    (known : built.context.functions[function]? = some entry) :
    ∃ name expr body, (name, .function expr) ∈ spec.entries ∧
      built.names[name]? = some (.function function entry.returns) ∧
      built.names.scopeFunction name expr = .ok body ∧
      FunctionLowered ⟨built.mint, built.context⟩ name body entry := by
  obtain ⟨name, found⟩ := compiled.functions known
  obtain ⟨⟨expr, isEntry⟩, -, -⟩ := compiled.registered.ofFunction found
  obtain ⟨body, entry', isScoped, known', -, lowered⟩ := compiled.lowered isEntry found
  cases known.symm.trans known'
  exact ⟨name, expr, body, isEntry, found, isScoped, lowered⟩

/-- What an argument reads is supplied by the node that its name stands for. -/
theorem supplier_output (compiled : Compiled spec built) {name : String} {binding : Binding}
    (found : built.names[name]? = some binding) :
    built.context.supplier (.value binding.output) = binding.node := by
  cases binding with
  | literal id =>
    obtain ⟨value, -, row⟩ := compiled.registered.ofLiteral found
    exact Context.supplier_of_unproduced (compiled.unproduced row)
  | function id returns =>
    obtain ⟨⟨expr, isEntry⟩, -, -⟩ := compiled.registered.ofFunction found
    obtain ⟨body, entry, -, known, rfl, -⟩ := compiled.lowered isEntry found
    exact Context.supplier_of_producerOf?
      (compiled.orderly.exact.producerOf?_returns compiled.orderly.distinct known)

end Compiled

/-- The cache of definitions is up to date when the last entry has been lowered. -/
theorem cached_of_build {spec : Spec} {session : Nat} {built : Built}
    (run : spec.build session = .ok built) :
    ∃ builder, spec.assemble session = .ok (built.names, builder) ∧
      builder.finish built.names = built ∧ builder.Cached := by
  obtain ⟨start, pending, stages⟩ := exists_stages run
  obtain ⟨consistent, -⟩ :=
    forM_lowerEntry_spec pending start stages.consistent stages.ready stages.distinct
  exact ⟨_, stages.assembled, stages.finished, consistent.cached⟩

/-- The identifiers of a graph are of the session that it was built in. -/
theorem session_of_build {spec : Spec} {session : Nat} {built : Built}
    (run : spec.build session = .ok built) : built.mint.session = session := by
  obtain ⟨start, pending, stages⟩ := exists_stages run
  obtain ⟨-, grows, -⟩ :=
    forM_lowerEntry_spec pending start stages.consistent stages.ready stages.distinct
  rw [stages.lowered] at grows
  exact grows.session.trans stages.issues

/-- Evaluations in other sessions than the one of the build have their scratch identifiers for
themselves. -/
theorem freshIn_of_build {spec : Spec} {session scratch : Nat} {built : Built}
    (run : spec.build session = .ok built) (apart : scratch ≠ session) :
    built.context.FreshIn scratch := by
  have consistent := (compiled_of_build run).consistent
  have other : ∀ {kind : IdKind} {id : Id kind} {origin : Origin},
      Draft.Issued ⟨built.mint, built.context⟩ id origin → ¬ id.OfSession scratch := by
    intro kind id origin issued here
    have there := issued.ofSession consistent.counted
    rw [show Mint.session _ = session from session_of_build run] at there
    exact apart (here.eq there)
  refine ⟨fun known input isInput => other ((consistent.pipes known).2.slots input isInput),
    fun known step isStep name value isArg => ?_⟩
  obtain ⟨content, row⟩ := (consistent.pipes known).2.absolute step isStep name value isArg
  obtain ⟨label, issued⟩ := consistent.rows row
  exact other ⟨label, _, issued⟩

/-! ### An instance

A cond with both branches after it, a pipe that nests another and asks for an adapter, and an item of
an array. -/

namespace Greeting

def entries : List (String × SpecEntry) :=
  [ ("choose", .function (.cond "loud" "greet" "word"))
  , ("greet", .function (.pipe [("who", ⟨.output "word", none⟩)]
      [ .pipe [("x", ⟨.input "who", none⟩)]
          [.combine ⟨"string::concat",
            [("a", ⟨.input "x", some "generic::toString"⟩), ("b", ⟨.name "name", none⟩)]⟩]
      , .combine ⟨"string::concat", [("a", ⟨.step 0, none⟩), ("b", ⟨.input "who", none⟩)]⟩ ]))
  , ("word", .function (.combine ⟨"string::concat",
      [("a", ⟨.value "name", none⟩), ("b", ⟨.name "name", none⟩)]⟩))
  , ("name", .literal (.string "Ada"))
  , ("loud", .literal (.boolean true))
  , ("pick", .function (.combine ⟨"array::at",
      [("array", ⟨.value "words", none⟩), ("index", ⟨.value "index", none⟩)]⟩))
  , ("words", .literal (.array [.string "hello", .string "bye"]))
  , ("index", .literal (.number 1)) ]

end Greeting

def greeting : Spec := ⟨Greeting.entries, by decide⟩

namespace Greeting

/-- The graph of the spec: the branches of its conds agree in their types, and evaluating `choose`
gives a text. -/
theorem exists_built : ∃ built, greeting.build 7 = .ok built ∧
    (∀ row ∈ built.context.conds.toList,
      built.context.functionType row.2.thenBranch = built.context.functionType row.2.elseBranch) ∧
    ∃ function evaluation, built.function? "choose" = some function ∧
      built.context.functionType function = some .string ∧
      built.context.evaluate .standard (.function function) 8 = .ok evaluation ∧
      evaluation.value.asString? = some "AdaAdaAdaAdaAda" := by
  have holds : ((greeting.build 7).toOption.any fun built =>
      decide (∀ row ∈ built.context.conds.toList, built.context.functionType row.2.thenBranch =
        built.context.functionType row.2.elseBranch) &&
      (built.function? "choose").any fun function =>
        built.context.functionType function == some .string &&
        (built.context.evaluate .standard (.function function) 8).toOption.any fun evaluation =>
          evaluation.value.asString? == some "AdaAdaAdaAdaAda") = true := by
    decide +kernel
  obtain ⟨built, builds, holds⟩ := (Option.any_eq_true _ _).1 holds
  rw [Bool.and_eq_true, decide_eq_true_iff] at holds
  obtain ⟨agree, holds⟩ := holds
  obtain ⟨function, named, holds⟩ := (Option.any_eq_true _ _).1 holds
  rw [Bool.and_eq_true, beq_iff_eq] at holds
  obtain ⟨typed, holds⟩ := holds
  obtain ⟨evaluation, evaluates, holds⟩ := (Option.any_eq_true _ _).1 holds
  exact ⟨built, eq_ok_of_toOption builds, agree, function, evaluation, named, typed,
    eq_ok_of_toOption evaluates, beq_iff_eq.1 holds⟩

end Greeting

end Spec

end TagFlow
