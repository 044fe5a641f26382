import Mathlib.Logic.Relation
import TagFlow.Proofs.Table
import TagFlow.Proofs.Typing.Monotone
import TagFlow.Validation.References

/-!
# Which definitions are used

A definition *involves* those that its steps run, and what these involve in turn; a definition is
*used* if a function runs one that involves it. While a graph is being built, definitions come before
what uses them, so that the graph between two moments has some that are not used yet: `AddsOnly` says
of two moments that all definitions that have come in between are involved by the given ones, which
is kept by going on (`AddsOnly.trans`) and narrowed down once a pipe runs them (`AddsOnly.within`).
-/

namespace TagFlow.Context

/-- A step of the first definition, which is a pipe, runs the second. -/
def Runs (c : Context) (outer inner : DefinitionId) : Prop :=
  ∃ id d, outer = .pipe id ∧ c.pipes[id]? = some d ∧ inner ∈ stepDefinitions d

/-- The first definition runs the second through steps inside of steps, or they are the same. -/
def Involves (c : Context) : DefinitionId → DefinitionId → Prop := Relation.ReflTransGen c.Runs

/-- A function runs the definition, itself or through the steps of pipes. -/
def Used (c : Context) (definition : DefinitionId) : Prop :=
  ∃ (function : FunctionId) (entry : FunctionEntry), c.functions[function]? = some entry ∧
    c.Involves entry.definition definition

/-- There are no definitions but those that functions run. -/
def AllUsed (c : Context) : Prop := ∀ definition, c.hasDefinition definition = true → c.Used definition

/-- All definitions that the later graph has and the earlier has not are involved by these. -/
def AddsOnly (before after : Context) (roots : List DefinitionId) : Prop :=
  ∀ definition, after.hasDefinition definition = true →
    before.hasDefinition definition = true ∨ ∃ root ∈ roots, after.Involves root definition

variable {c c' c'' : Context} {roots roots' : List DefinitionId} {definition : DefinitionId}

theorem Runs.extends (more : c.Extends c') {outer inner : DefinitionId}
    (runs : c.Runs outer inner) : c'.Runs outer inner := by
  obtain ⟨id, d, same, known, isStep⟩ := runs
  exact ⟨id, d, same, more.pipes known, isStep⟩

theorem Involves.extends (more : c.Extends c') {outer inner : DefinitionId}
    (involves : c.Involves outer inner) : c'.Involves outer inner := by
  induction involves with
  | refl => exact .refl
  | tail _ runs ih => exact ih.tail (runs.extends more)

/-- Steps do not run conds, so a cond is involved by itself only. -/
theorem eq_of_involves_cond {id : CondId} (involves : c.Involves definition (.cond id)) :
    definition = .cond id := by
  cases involves with
  | refl => rfl
  | tail _ runs =>
    obtain ⟨_, d, -, -, isStep⟩ := runs
    obtain ⟨step, -, same⟩ := List.mem_map.1 isStep
    cases body : step.body with
    | combine _ => cases (congrArg StepBody.definition body).symm.trans same
    | pipe _ => cases (congrArg StepBody.definition body).symm.trans same

namespace AddsOnly

/-- Where there are no new definitions. -/
theorem of_eq (combines : c'.combines = c.combines) (pipes : c'.pipes = c.pipes)
    (conds : c'.conds = c.conds) : AddsOnly c c' roots := by
  intro definition here
  unfold hasDefinition at here ⊢
  rw [combines, pipes, conds] at here
  exact .inl here

theorem trans (first : AddsOnly c c' roots) (more : c'.Extends c'')
    (second : AddsOnly c' c'' roots') : AddsOnly c c'' (roots ++ roots') := by
  intro definition here
  rcases second definition here with before | ⟨root, isRoot, involves⟩
  · rcases first definition before with old | ⟨root, isRoot, involves⟩
    · exact .inl old
    · exact .inr ⟨root, List.mem_append_left _ isRoot, involves.extends more⟩
  · exact .inr ⟨root, List.mem_append_right _ isRoot, involves⟩

/-- What is involved by the roots is involved by what involves the roots. -/
theorem within (adds : AddsOnly c c' roots)
    (involved : ∀ root ∈ roots, ∃ outer ∈ roots', c'.Involves outer root) :
    AddsOnly c c' roots' := by
  intro definition here
  rcases adds definition here with old | ⟨root, isRoot, involves⟩
  · exact .inl old
  · obtain ⟨outer, isOuter, around⟩ := involved root isRoot
    exact .inr ⟨outer, isOuter, around.trans involves⟩

/-- Where one definition has come in. -/
theorem of_new {root : DefinitionId} (new : ∀ definition, c'.hasDefinition definition = true →
    root = definition ∨ c.hasDefinition definition = true) : AddsOnly c c' [root] := by
  intro definition here
  rcases new definition here with rfl | old
  · exact .inr ⟨_, List.mem_singleton_self _, .refl⟩
  · exact .inl old

theorem insertCombine (id : CombineId) (d : CombineDefinition) :
    AddsOnly c (c.insertCombine id d) [.combine id] := by
  apply of_new
  intro definition here
  cases definition with
  | combine other => exact (Table.contains_insert here).imp_left (congrArg _)
  | pipe other | cond other => exact .inr here

theorem insertPipe (id : PipeId) (d : PipeDefinition) :
    AddsOnly c (c.insertPipe id d) [.pipe id] := by
  apply of_new
  intro definition here
  cases definition with
  | pipe other => exact (Table.contains_insert here).imp_left (congrArg _)
  | combine other | cond other => exact .inr here

theorem insertCond (id : CondId) (d : CondDefinition) :
    AddsOnly c (c.insertCond id d) [.cond id] := by
  apply of_new
  intro definition here
  cases definition with
  | cond other => exact (Table.contains_insert here).imp_left (congrArg _)
  | combine other | pipe other => exact .inr here

end AddsOnly

/-! ### Graphs without unused definitions -/

theorem Used.extends (more : c.Extends c') (used : c.Used definition) : c'.Used definition := by
  obtain ⟨function, entry, known, involves⟩ := used
  exact ⟨function, entry, more.functions known, involves.extends more⟩

/-- A graph of rows alone has no definitions. -/
theorem allUsed_of_rows (values : ValueTable) : (empty.setValues values).AllUsed := by
  intro definition here
  cases definition with
  | combine id | pipe id | cond id =>
    obtain ⟨d, known⟩ := Table.contains_iff.1 here
    cases Std.ExtTreeMap.getElem?_empty.symm.trans known

/-- Definitions that come in with a function are used by it. -/
theorem AllUsed.adds (all : c.AllUsed) (more : c.Extends c') {function : FunctionId}
    {entry : FunctionEntry} (adds : AddsOnly c c' [entry.definition])
    (known : c'.functions[function]? = some entry) : c'.AllUsed := by
  intro definition here
  rcases adds definition here with old | ⟨root, isRoot, involves⟩
  · exact (all definition old).extends more
  · rw [List.mem_singleton.1 isRoot] at involves
    exact ⟨function, entry, known, involves⟩

end TagFlow.Context
