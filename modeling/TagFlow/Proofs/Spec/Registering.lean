import TagFlow.Proofs.Spec.Lowering

/-!
# Registering names

Before any function is lowered, every entry of a spec gets its name: a literal gets a row, a function
its identifier and that of its output. What holds then (`Registered`, `register_spec`) stays true
while functions are lowered: the names stand for all entries and for nothing else, there are no other
rows, and different functions have different identifiers and different outputs.
-/

namespace TagFlow.Lowering

variable {draft : Draft} {builder : Builder} {entries rest : List (String × SpecEntry)} {before after : Draft}
  {bindings : List (String × Binding)} {name : String}

/-! ### Literals -/

/-- The literals of a list of entries have been registered under these bindings. -/
structure Literals (entries : List (String × SpecEntry)) (bindings : List (String × Binding))
    (before after : Draft) : Prop where
  names : (bindings.map (·.1)).Sublist (entries.map (·.1))
  all : ∀ {name : String} {value : Value}, (name, .literal value) ∈ entries →
    ∃ id, (name, .literal id) ∈ bindings
  only : ∀ {name : String} {binding : Binding}, (name, binding) ∈ bindings →
    ∃ id value, binding = .literal id ∧ (name, .literal value) ∈ entries ∧
      after.context.values[id]? = some value
  rows : ∀ {id : ValueId} {value : Value}, after.context.values[id]? = some value →
    before.context.values[id]? = some value ∨
      ∃ name, (name, .literal value) ∈ entries ∧ (name, .literal id) ∈ bindings

/-- A literal gets a row of its own. -/
theorem registerLiteral_spec (consistent : builder.Consistent) (name : String) (value : Value) :
    let result := (registerLiteral name value).run builder
    ∃ id, result.1 = .literal id ∧ result.2.Consistent ∧ builder.Grows result.2 ∧
      result.2.context = builder.context.setValues result.2.context.values ∧
      builder.context.values[id]? = none ∧
      result.2.context.values = builder.context.values.insert id value := by
  obtain ⟨becomes, known⟩ := consistent.becomes_issue .value name .literal (some value.baseType)
    fun h => nomatch h
  have new : builder.context.values[(builder.mint.issue .value name .literal).1]? = none := by
    cases old : builder.context.values[(builder.mint.issue .value name .literal).1]? with
    | none => rfl
    | some content =>
      obtain ⟨label, known⟩ := consistent.rows old
      exact absurd ((consistent.counted.fresh .value name .literal).symm.trans known) (by simp)
  exact ⟨_, rfl, ⟨becomes.consistent.toConsistent.insertValue new known, becomes.consistent.cached⟩,
    becomes.grows.trans (Draft.grows_of_extends (Draft.extends_insertValue value new)), rfl, new,
    rfl⟩

/-- An entry that is no literal makes no difference. -/
theorem Literals.skip (literals : Literals rest bindings before after) (expr : FunctionExpr) :
    Literals ((name, .function expr) :: rest) bindings before after where
  names := literals.names.cons _
  all isEntry := by
    rcases List.mem_cons.1 isEntry with same | isEntry
    · cases same
    · exact literals.all isEntry
  only isBinding := by
    obtain ⟨id, value, same, isEntry, row⟩ := literals.only isBinding
    exact ⟨id, value, same, List.mem_cons_of_mem _ isEntry, row⟩
  rows row := by
    apply (literals.rows row).imp_right
    rintro ⟨other, isEntry, isBinding⟩
    exact ⟨other, List.mem_cons_of_mem _ isEntry, isBinding⟩

/-- A literal that was registered before the others. -/
theorem Literals.cons {middle : Draft} (literals : Literals rest bindings middle after)
    (grows : middle.Grows after) {id : ValueId} {content : Value}
    (values : middle.context.values = before.context.values.insert id content) :
    Literals ((name, .literal content) :: rest) ((name, .literal id) :: bindings) before after where
  names := literals.names.cons_cons _
  all isEntry := by
    rcases List.mem_cons.1 isEntry with same | isEntry
    · cases same
      exact ⟨id, List.mem_cons_self⟩
    · obtain ⟨other, isBinding⟩ := literals.all isEntry
      exact ⟨other, List.mem_cons_of_mem _ isBinding⟩
  only isBinding := by
    rcases List.mem_cons.1 isBinding with same | isBinding
    · cases same
      refine ⟨id, content, rfl, List.mem_cons_self, grows.context.values ?_⟩
      rw [values]
      exact Table.getElem?_insert_self
    · obtain ⟨other, value, same, isEntry, row⟩ := literals.only isBinding
      exact ⟨other, value, same, List.mem_cons_of_mem _ isEntry, row⟩
  rows row := by
    rcases literals.rows row with old | ⟨other, isEntry, isBinding⟩
    · rw [values, Table.getElem?_insert] at old
      split at old
      · next same =>
        subst same
        cases old
        exact .inr ⟨name, List.mem_cons_self, List.mem_cons_self⟩
      · exact .inl old
    · exact .inr ⟨other, List.mem_cons_of_mem _ isEntry, List.mem_cons_of_mem _ isBinding⟩

/-- Registering literals adds just their rows. -/
theorem registerLiterals_spec : ∀ (entries : List (String × SpecEntry)) (builder : Builder),
    builder.Consistent →
    let result := (registerLiterals entries).run builder
    result.2.Consistent ∧ builder.Grows result.2 ∧
      result.2.context = builder.context.setValues result.2.context.values ∧
      Literals entries result.1 builder result.2
  | [], builder, consistent => by
    refine ⟨consistent, .refl _, rfl, .slnil, ?_, ?_, .inl⟩
    · intro name value isEntry
      cases isEntry
    · intro name binding isBinding
      cases isBinding
  | (name, .function expr) :: rest, builder, consistent => by
    obtain ⟨consistent, grows, same, literals⟩ := registerLiterals_spec rest builder consistent
    exact ⟨consistent, grows, same, literals.skip expr⟩
  | (name, .literal content) :: rest, builder, consistent => by
    obtain ⟨literal, isLiteral, consistent₁, grows₁, same₁, -, values₁⟩ :=
      registerLiteral_spec consistent name content
    obtain ⟨consistent₂, grows₂, same₂, literals⟩ :=
      registerLiterals_spec rest ((registerLiteral name content).run builder).2 consistent₁
    have unfolds : (registerLiterals ((name, .literal content) :: rest)).run builder =
        ((name, ((registerLiteral name content).run builder).1) ::
          ((registerLiterals rest).run ((registerLiteral name content).run builder).2).1,
        ((registerLiterals rest).run ((registerLiteral name content).run builder).2).2) := rfl
    intro result
    simp only [result, unfolds]
    rw [isLiteral]
    refine ⟨consistent₂, grows₁.trans grows₂, same₂.trans ?_, literals.cons grows₂ values₁⟩
    rw [same₁]
    rfl

/-- Different literals get different rows, and none of them was there before. -/
theorem registerLiterals_distinct : ∀ (entries : List (String × SpecEntry)) (builder : Builder),
    builder.Consistent → ∀ {name : String} {id : ValueId},
    (name, .literal id) ∈ ((registerLiterals entries).run builder).1 →
      builder.context.values[id]? = none ∧ ∀ {other : String},
        (other, .literal id) ∈ ((registerLiterals entries).run builder).1 → other = name
  | [], builder, _, name, id, isBinding => by cases isBinding
  | (_, .function expr) :: rest, builder, consistent, name, id, isBinding =>
    registerLiterals_distinct rest builder consistent isBinding
  | (first, .literal content) :: rest, builder, consistent, name, id, isBinding => by
    obtain ⟨literal, isLiteral, consistent₁, -, -, new, values⟩ :=
      registerLiteral_spec consistent first content
    have here : ((registerLiteral first content).run builder).2.context.values[literal]? =
        some content := by
      rw [values]
      exact Table.getElem?_insert_self
    have unfolds : ((registerLiterals ((first, .literal content) :: rest)).run builder).1 =
        (first, .literal literal) ::
          ((registerLiterals rest).run ((registerLiteral first content).run builder).2).1 := by
      rw [← isLiteral]
      rfl
    -- what comes later is new when the first row is already there
    have later : ∀ {other : String} {id : ValueId}, (other, .literal id) ∈
        ((registerLiterals rest).run ((registerLiteral first content).run builder).2).1 →
        literal ≠ id ∧ builder.context.values[id]? = none := by
      intro other id isBinding
      obtain ⟨unknown, -⟩ := registerLiterals_distinct rest _ consistent₁ isBinding
      have apart : literal ≠ id := by
        rintro rfl
        cases here.symm.trans unknown
      refine ⟨apart, ?_⟩
      rwa [values, Table.getElem?_insert_of_ne apart] at unknown
    simp only [unfolds, List.mem_cons] at isBinding ⊢
    rcases isBinding with same | isBinding
    · cases same
      refine ⟨new, fun isOther => ?_⟩
      rcases isOther with same | isOther
      · exact (Prod.ext_iff.1 same).1
      · exact absurd rfl (later isOther).1
    · refine ⟨(later isBinding).2, fun isOther => ?_⟩
      rcases isOther with same | isOther
      · cases same
        exact absurd rfl (later isBinding).1
      · exact (registerLiterals_distinct rest _ consistent₁ isBinding).2 isOther

/-! ### Functions -/

/-- The functions of a list of entries have been registered under these bindings. -/
structure Functions (entries : List (String × SpecEntry)) (bindings : List (String × Binding))
    (before after : Draft) : Prop where
  names : (bindings.map (·.1)).Sublist (entries.map (·.1))
  all : ∀ {name : String} {expr : FunctionExpr}, (name, .function expr) ∈ entries →
    ∃ id returns, (name, .function id returns) ∈ bindings
  only : ∀ {name : String} {binding : Binding}, (name, binding) ∈ bindings →
    ∃ id returns expr, binding = .function id returns ∧ (name, .function expr) ∈ entries ∧
      after.Issued id .function ∧ after.Issued returns .functionReturn ∧
      before.mint.record? id = none ∧ before.mint.record? returns = none
  distinct : ∀ {name name' : String} {id id' : FunctionId} {returns returns' : ValueId},
    (name, .function id returns) ∈ bindings → (name', .function id' returns') ∈ bindings →
      id = id' ∨ returns = returns' → name = name'

theorem safely_registerFunction (consistent : builder.Consistent) (name : String) :
    Safely (registerFunction name) builder fun binding after => after.context = builder.context ∧
      ∃ id returns, binding = .function id returns ∧ after.Issued id .function ∧
      after.Issued returns .functionReturn ∧ builder.mint.record? id = none ∧
      builder.mint.record? returns = none := by
  apply (safely_issue consistent .function name .function).bind
  rintro id δ₁ becomes₁ ⟨same₁, known, new⟩
  apply (safely_issue becomes₁.consistent .value name .functionReturn).bind
  rintro returns δ₂ becomes₂ ⟨same₂, known', new'⟩
  exact safely_pure becomes₂.consistent ⟨same₂.trans same₁, id, returns, rfl,
    Draft.Issued.grows ⟨_, _, known⟩ becomes₂.grows, ⟨_, _, known'⟩, new, becomes₁.grows.unknown new'⟩

/-- An entry that is no function makes no difference. -/
theorem Functions.skip (functions : Functions rest bindings before after) (value : Value) :
    Functions ((name, .literal value) :: rest) bindings before after where
  names := functions.names.cons _
  all isEntry := by
    rcases List.mem_cons.1 isEntry with same | isEntry
    · cases same
    · exact functions.all isEntry
  only isBinding := by
    obtain ⟨id, returns, expr, same, isEntry, others⟩ := functions.only isBinding
    exact ⟨id, returns, expr, same, List.mem_cons_of_mem _ isEntry, others⟩
  distinct := functions.distinct

/-- A function that was registered before the others. -/
theorem Functions.cons {middle : Draft} (functions : Functions rest bindings middle after)
    (grows : before.Grows middle) (grows' : middle.Grows after) {expr : FunctionExpr}
    {id : FunctionId} {returns : ValueId} (function : middle.Issued id .function)
    (output : middle.Issued returns .functionReturn) (new : before.mint.record? id = none)
    (new' : before.mint.record? returns = none) :
    Functions ((name, .function expr) :: rest) ((name, .function id returns) :: bindings) before
      after := by
  -- what was issued first is known when the others are issued
  have apart : ∀ {other : String} {id' : FunctionId} {returns' : ValueId},
      (other, Binding.function id' returns') ∈ bindings → ¬ (id = id' ∨ returns = returns') := by
    intro other id' returns' isBinding same
    obtain ⟨_, _, _, ⟨rfl, rfl⟩, -, -, -, unknown, unknown'⟩ := functions.only isBinding
    rcases same with rfl | rfl
    · obtain ⟨_, _, known⟩ := function
      exact absurd (unknown.symm.trans known) (by simp)
    · obtain ⟨_, _, known⟩ := output
      exact absurd (unknown'.symm.trans known) (by simp)
  refine ⟨functions.names.cons_cons _, ?_, ?_, ?_⟩
  · intro other expr' isEntry
    rcases List.mem_cons.1 isEntry with same | isEntry
    · cases same
      exact ⟨id, returns, List.mem_cons_self⟩
    · obtain ⟨id', returns', isBinding⟩ := functions.all isEntry
      exact ⟨id', returns', List.mem_cons_of_mem _ isBinding⟩
  · intro other binding isBinding
    rcases List.mem_cons.1 isBinding with same | isBinding
    · cases same
      exact ⟨id, returns, expr, rfl, List.mem_cons_self, function.grows grows', output.grows grows',
        new, new'⟩
    · obtain ⟨id', returns', expr', same, isEntry, f, r, unknown, unknown'⟩ :=
        functions.only isBinding
      exact ⟨id', returns', expr', same, List.mem_cons_of_mem _ isEntry, f, r,
        grows.unknown unknown, grows.unknown unknown'⟩
  · intro n n' i i' r r' first second same
    rcases List.mem_cons.1 first with h | first
    · rcases List.mem_cons.1 second with h' | second
      · cases h
        cases h'
        rfl
      · cases h
        exact absurd same (apart second)
    · rcases List.mem_cons.1 second with h' | second
      · cases h'
        exact absurd (same.imp Eq.symm Eq.symm) (apart first)
      · exact functions.distinct first second same

/-- Registering functions issues different identifiers for different names. -/
theorem safely_registerFunctions : ∀ (entries : List (String × SpecEntry)) (builder : Builder),
    builder.Consistent →
    Safely (registerFunctions entries) builder fun bindings after =>
      after.context = builder.context ∧ Functions entries bindings builder after
  | [], builder, consistent => by
    refine safely_pure consistent ⟨rfl, .slnil, ?_, ?_, ?_⟩
    · intro name expr isEntry
      cases isEntry
    · intro name binding isBinding
      cases isBinding
    · intro name name' id id' returns returns' isBinding
      cases isBinding
  | (name, .literal value) :: rest, builder, consistent => by
    apply (safely_registerFunctions rest builder consistent).mono
    rintro bindings after _ ⟨same, functions⟩
    exact ⟨same, functions.skip value⟩
  | (name, .function expr) :: rest, builder, consistent => by
    apply (safely_registerFunction consistent name).bind
    rintro _ δ₁ becomes₁ ⟨same₁, id, returns, rfl, function, output, new, new'⟩
    apply (safely_registerFunctions rest δ₁ becomes₁.consistent).bind
    rintro bindings δ₂ becomes₂ ⟨same₂, functions⟩
    exact safely_pure becomes₂.consistent ⟨same₂.trans same₁,
      functions.cons becomes₁.grows becomes₂.grows function output new new'⟩

/-! ### All entries -/

/-- What the names of a spec stand for in a draft: each entry has its name, and there are no other
names and no other rows. -/
structure Registered (entries : List (String × SpecEntry)) (names : Names) (draft : Draft) :
    Prop where
  literal : ∀ {name : String} {value : Value}, (name, .literal value) ∈ entries →
    ∃ id, names[name]? = some (Binding.literal id) ∧ draft.context.values[id]? = some value
  function : ∀ {name : String} {expr : FunctionExpr}, (name, .function expr) ∈ entries →
    ∃ id returns, names[name]? = some (Binding.function id returns)
  ofLiteral : ∀ {name : String} {id : ValueId}, names[name]? = some (.literal id) →
    ∃ value, (name, .literal value) ∈ entries ∧ draft.context.values[id]? = some value
  ofFunction : ∀ {name : String} {id : FunctionId} {returns : ValueId},
    names[name]? = some (.function id returns) → (∃ expr, (name, .function expr) ∈ entries) ∧
      draft.Issued id .function ∧ draft.Issued returns .functionReturn
  distinct : ∀ {name name' : String} {id id' : FunctionId} {returns returns' : ValueId},
    names[name]? = some (.function id returns) → names[name']? = some (.function id' returns') →
      id = id' ∨ returns = returns' → name = name'
  rows : ∀ {id : ValueId} {value : Value}, draft.context.values[id]? = some value →
    ∃ name, (name, .literal value) ∈ entries ∧ names[name]? = some (Binding.literal id)

/-- No name has two entries. -/
theorem entry_unique (distinct : (Bindings.names entries).Nodup) {entry other : SpecEntry}
    (isEntry : (name, entry) ∈ entries) (isOther : (name, other) ∈ entries) : entry = other :=
  (Prod.ext_iff.1 (List.inj_on_of_nodup_map distinct isEntry isOther rfl)).2

/-- No name is registered twice, as no name has two entries. -/
theorem nodup_append {literals functions : List (String × Binding)} {middle : Draft}
    (distinct : (Bindings.names entries).Nodup) (first : Literals entries literals before middle)
    (second : Functions entries functions middle after) :
    ((literals ++ functions).map (·.1)).Nodup := by
  rw [List.map_append, List.nodup_append]
  refine ⟨first.names.nodup distinct, second.names.nodup distinct, ?_⟩
  rintro name isLiteral _ isFunction rfl
  obtain ⟨⟨name₁, binding⟩, isBinding, same⟩ := List.mem_map.1 isLiteral
  obtain ⟨⟨name₂, binding'⟩, isBinding', same'⟩ := List.mem_map.1 isFunction
  obtain ⟨_, value, -, isEntry, -⟩ := first.only isBinding
  obtain ⟨_, _, expr, -, isEntry', -⟩ := second.only isBinding'
  rw [show name₂ = name₁ from same'.trans same.symm] at isEntry'
  cases entry_unique distinct isEntry isEntry'

/-- The table of the names that were registered. -/
theorem registered_of_rows {literals functions : List (String × Binding)} {middle : Draft}
    {names : Names} (distinct : (Bindings.names entries).Nodup)
    (first : Literals entries literals before middle)
    (second : Functions entries functions middle after)
    (empty : ∀ id : ValueId, before.context.values[id]? = none)
    (values : after.context.values = middle.context.values)
    (table : ∀ (name : String) (binding : Binding), names[name]? = some binding ↔
      (name, binding) ∈ literals ∨ (name, binding) ∈ functions) :
    Registered entries names after := by
  -- a literal is not among the functions, nor a function among the literals
  have isFunction : ∀ {name : String} {id : FunctionId} {returns : ValueId},
      names[name]? = some (.function id returns) → (name, .function id returns) ∈ functions := by
    intro name id returns found
    apply ((table _ _).1 found).resolve_left
    intro isLiteral
    obtain ⟨_, _, same, -⟩ := first.only isLiteral
    cases same
  have isLiteral : ∀ {name : String} {id : ValueId}, names[name]? = some (.literal id) →
      (name, .literal id) ∈ literals := by
    intro name id found
    apply ((table _ _).1 found).resolve_right
    intro isFunction
    obtain ⟨_, _, _, same, -⟩ := second.only isFunction
    cases same
  refine
    { literal := ?_
      function := ?_
      ofLiteral := ?_
      ofFunction := ?_
      distinct := ?_
      rows := ?_ }
  · intro name value isEntry
    obtain ⟨id, isBinding⟩ := first.all isEntry
    obtain ⟨id', value', same, isEntry', row⟩ := first.only isBinding
    cases same
    cases entry_unique distinct isEntry isEntry'
    exact ⟨id, (table _ _).2 (.inl isBinding), values ▸ row⟩
  · intro name expr isEntry
    obtain ⟨id, returns, isBinding⟩ := second.all isEntry
    exact ⟨id, returns, (table _ _).2 (.inr isBinding)⟩
  · intro name id found
    obtain ⟨id', value, same, isEntry, row⟩ := first.only (isLiteral found)
    cases same
    exact ⟨value, isEntry, values ▸ row⟩
  · intro name id returns found
    obtain ⟨_, _, expr, same, isEntry, function, output, -⟩ := second.only (isFunction found)
    cases same
    exact ⟨⟨expr, isEntry⟩, function, output⟩
  · intro name name' id id' returns returns' found found' same
    exact second.distinct (isFunction found) (isFunction found') same
  · intro id value row
    rw [values] at row
    rcases first.rows row with old | ⟨name, isEntry, isBinding⟩
    · rw [empty id] at old
      cases old
    · exact ⟨name, isEntry, (table _ _).2 (.inl isBinding)⟩

/-- Registering all entries, from nothing. -/
theorem register_spec (distinct : (Bindings.names entries).Nodup) (session : Nat) :
    let result := (register entries).run (.new session)
    result.2.Consistent ∧ result.2.mint.session = session ∧
      result.2.context = Context.empty.setValues result.2.context.values ∧
      Registered entries result.1 result.2 := by
  intro result
  let start : Builder := .new session
  let literals := ((registerLiterals entries).run start).1
  let middle := ((registerLiterals entries).run start).2
  let functions := ((registerFunctions entries).run middle).1
  obtain ⟨consistent, grows, onlyRows, first⟩ :=
    registerLiterals_spec entries start (Builder.consistent_new session)
  obtain ⟨becomes, same, second⟩ := safely_registerFunctions entries middle consistent
  have table : result.1 = (literals ++ functions).foldl (fun t row => t.insert row.1 row.2) ∅ := rfl
  have onlyRows : result.2.context = Context.empty.setValues result.2.context.values := by
    rw [show result.2.context = middle.context from same]
    exact onlyRows
  refine ⟨becomes.consistent, becomes.grows.session.trans grows.session, onlyRows, ?_⟩
  refine registered_of_rows distinct first second (fun id => ?_) becomes.values
    fun name binding => ?_
  · exact Std.ExtTreeMap.getElem?_empty
  · rw [table, Table.getElem?_filled_iff (nodup_append distinct first second), List.mem_append]

/-- No two names stand for one row. -/
theorem register_distinct {session : Nat} {other : String} {id : ValueId} :
    let names := ((register entries).run (.new session)).1
    names[name]? = some (.literal id) → names[other]? = some (.literal id) → other = name := by
  intro names found found'
  let start : Builder := .new session
  let middle := ((registerLiterals entries).run start).2
  have consistent : start.Consistent := Builder.consistent_new session
  obtain ⟨-, -, second⟩ :=
    safely_registerFunctions entries middle (registerLiterals_spec entries start consistent).1
  have isLiteral : ∀ {name : String}, names[name]? = some (.literal id) →
      (name, .literal id) ∈ ((registerLiterals entries).run start).1 := by
    intro name found
    rcases Table.mem_of_getElem?_foldl_insert _ found with isBinding | old
    · apply (List.mem_append.1 isBinding).resolve_right
      intro isFunction
      obtain ⟨_, _, _, same, -⟩ := second.only isFunction
      cases same
    · cases Std.ExtTreeMap.getElem?_empty.symm.trans old
  exact (registerLiterals_distinct entries start consistent (isLiteral found)).2 (isLiteral found')

/-- A draft that has grown, without new rows, still has what was registered. -/
theorem Registered.grows {names : Names} {later : Draft}
    (registered : Registered entries names draft) (grows : draft.Grows later)
    (values : later.context.values = draft.context.values) : Registered entries names later where
  literal isEntry := by
    rw [values]
    exact registered.literal isEntry
  function isEntry := registered.function isEntry
  ofLiteral found := by
    rw [values]
    exact registered.ofLiteral found
  ofFunction found := by
    obtain ⟨isEntry, function, returns⟩ := registered.ofFunction found
    exact ⟨isEntry, function.grows grows, returns.grows grows⟩
  distinct found found' same := registered.distinct found found' same
  rows row := by
    rw [values] at row
    exact registered.rows row

end TagFlow.Lowering
