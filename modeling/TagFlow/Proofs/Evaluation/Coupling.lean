import TagFlow.Proofs.Evaluation.Agreement

/-!
# Two runs of one plan

Graphs that differ in their rows only have the same plans, and an evaluator reads the rows of its graph
only to start from them (`Evaluator.evaluate_onTable`). So an evaluation of the one graph and one of
the other are two runs of one plan, from different tables.

A `Coupling` says what is compared between such runs: how values are related, and whether a run that
stops is compared as well. Where operations keep values related, and conds read the same of their
conditions, the two runs go through the same functions and leave related rows behind
(`Evaluator.runTree_couples`, `Evaluator.evaluate_couples`). Rows of functions that have not run yet do
not matter: a function is run before its row is read.
-/

namespace TagFlow

/-- What is compared between two runs of one plan. -/
structure Coupling where
  /-- How a value of the first run is related to that of the second. -/
  values : Value → Value → Prop
  /-- Whether both runs have to stop, and for the same reason, if one does. -/
  strict : Prop

namespace Coupling

variable {k : Coupling} {α β γ δ : Type}

/-! ### Results -/

/-- Both runs give results, and these are related; or both stop for the same reason. Where runs that
stop are not compared, one such run is enough. -/
def Results (k : Coupling) (ok : α → β → Prop) : Except Halt α → Except Halt β → Prop
  | .ok a, .ok b => ok a b
  | .error halt, .error halt' => k.strict → halt = halt'
  | _, _ => ¬ k.strict

theorem results_error {ok : α → β → Prop} (halt : Halt) : k.Results ok (.error halt) (.error halt) :=
  fun _ => rfl

/-- Computations that go on from coupled ones are coupled. -/
theorem Results.bind_ran {ok : α → β → Prop} {after : γ → δ → Prop} {x : Except Halt α}
    {y : Except Halt β} {f : α → Except Halt γ} {g : β → Except Halt δ} (first : k.Results ok x y)
    (rest : ∀ a b, x = .ok a → y = .ok b → ok a b → k.Results after (f a) (g b)) :
    k.Results after (x >>= f) (y >>= g) := by
  match x, y with
  | .ok a, .ok b => exact rest a b rfl rfl first
  | .error halt, .error halt' => exact first
  | .ok a, .error halt =>
    show k.Results after (f a) (.error halt)
    cases f a with
    | ok c => exact first
    | error other => exact fun strict => absurd strict first
  | .error halt, .ok b =>
    show k.Results after (.error halt) (g b)
    cases g b with
    | ok c => exact first
    | error other => exact fun strict => absurd strict first

theorem Results.bind {ok : α → β → Prop} {after : γ → δ → Prop} {x : Except Halt α}
    {y : Except Halt β} {f : α → Except Halt γ} {g : β → Except Halt δ} (first : k.Results ok x y)
    (rest : ∀ a b, ok a b → k.Results after (f a) (g b)) : k.Results after (x >>= f) (y >>= g) :=
  first.bind_ran fun a b _ _ => rest a b

theorem Results.mono {ok weaker : α → β → Prop} {x : Except Halt α} {y : Except Halt β}
    (h : k.Results ok x y) (implies : ∀ a b, ok a b → weaker a b) : k.Results weaker x y := by
  match x, y with
  | .ok a, .ok b => exact implies a b h
  | .error _, .error _ | .ok _, .error _ | .error _, .ok _ => exact h

theorem results_mapM {f : γ → Except Halt α} {g : γ → Except Halt β} {ok : α → β → Prop} :
    ∀ {items : List γ}, (∀ item ∈ items, k.Results ok (f item) (g item)) →
      k.Results (List.Forall₂ ok) (items.mapM f) (items.mapM g)
  | [], _ => List.Forall₂.nil
  | item :: items, all => by
    rw [List.mapM_cons, List.mapM_cons]
    refine (all item List.mem_cons_self).bind fun a b here => ?_
    refine (results_mapM fun other isItem => all other (List.mem_cons_of_mem _ isItem)).bind
      fun as bs rest => ?_
    exact List.Forall₂.cons here rest

/-! ### Rows -/

/-- What two tables have in a row: related values, or nothing. -/
def Rows (k : Coupling) : Option Value → Option Value → Prop := Option.Rel k.values

/-- Two tables have related values in all rows. -/
def Tables (k : Coupling) (table table' : ValueTable) : Prop :=
  ∀ id : ValueId, k.Rows table[id]? table'[id]?

theorem Tables.insert {table table' : ValueTable} (tables : k.Tables table table') (id : ValueId)
    {value value' : Value} (here : k.values value value') :
    k.Tables (table.insert id value) (table'.insert id value') := by
  intro other
  rw [Table.getElem?_insert, Table.getElem?_insert]
  split
  · exact .some here
  · exact tables other

theorem results_readRow {table table' : ValueTable} {id : ValueId}
    (rows : k.Rows table[id]? table'[id]?) :
    k.Results k.values (Evaluator.readRow table id) (Evaluator.readRow table' id) := by
  unfold Evaluator.readRow
  generalize table[id]? = row at rows
  generalize table'[id]? = row' at rows
  cases rows with
  | some here => exact here
  | none => exact results_error _

/-- Reading related tables by an identifier that there may be. -/
theorem Tables.bind {table table' : ValueTable} (tables : k.Tables table table') :
    ∀ id? : Option ValueId, k.Rows (id?.bind fun id => table[id]?) (id?.bind fun id => table'[id]?)
  | none => .none
  | some id => tables id

/-! ### Named values -/

/-- Related values under one name. -/
def Named (k : Coupling) (binding binding' : String × Value) : Prop :=
  binding.1 = binding'.1 ∧ k.values binding.2 binding'.2

section named

variable {given given' : List (String × Value)}

theorem rel_find? (related : List.Forall₂ k.Named given given') (p : String → Bool) :
    Option.Rel k.Named (given.find? fun binding => p binding.1)
      (given'.find? fun binding => p binding.1) := by
  induction related with
  | nil => exact .none
  | @cons binding binding' _ _ here _ ih =>
    rw [List.find?_cons, List.find?_cons, here.1]
    cases p binding'.1 with
    | true => exact .some here
    | false => exact ih

theorem rows_lookup (related : List.Forall₂ k.Named given given') (name : String) :
    k.Rows (given.lookup name) (given'.lookup name) := by
  refine Result.rel_lookup (related.imp fun _ _ here => ?_) name
  exact ⟨here.1.symm, here.2⟩

theorem named_zip {names : List String} : ∀ {values values' : List Value},
    List.Forall₂ k.values values values' → List.Forall₂ k.Named (names.zip values) (names.zip values')
  | _, _, .nil => by
    rw [List.zip_nil_right]
    exact .nil
  | _, _, .cons here rest => by
    cases names with
    | nil => exact .nil
    | cons name names => exact .cons ⟨rfl, here⟩ (named_zip rest)

end named

/-! ### Runs that do the same -/

/-- The same values, or the same reason to stop. -/
def same : Coupling where
  values := Eq
  strict := True

theorem results_same : ∀ x : Except Halt α, same.Results Eq x x
  | .ok _ => rfl
  | .error halt => results_error halt

theorem eq_of_results_same {x y : Except Halt α} (results : same.Results Eq x y) : x = y := by
  match x, y with
  | .ok _, .ok _ => exact congrArg _ results
  | .error _, .error _ => exact congrArg _ (results trivial)
  | .ok _, .error _ | .error _, .ok _ => exact absurd trivial results

theorem rows_same {row row' : Option Value} : same.Rows row row' ↔ row = row' := by
  constructor
  · rintro (rfl | _) <;> rfl
  · rintro rfl
    cases row with
    | none => exact .none
    | some value => exact .some rfl

end Coupling

namespace Evaluator

open Coupling

variable {m : Evaluator} {k : Coupling} {function : FunctionId}

/-- An evaluator keeps values related: an operation of the graph gives related results for related
arguments. -/
def Respects (m : Evaluator) (k : Coupling) : Prop :=
  ∀ (function : FunctionId) (d : CombineDefinition) {left left' right right' : Value},
    k.values left left' → k.values right right' →
      k.Results k.values (m.combine function d left right) (m.combine function d left' right')

/-- An operation does the same with the same arguments. -/
theorem respects_same (m : Evaluator) : m.Respects .same := by
  rintro function d left _ right _ rfl rfl
  exact Coupling.results_same _

/-! ### Pipes -/

section pipes

variable {outer outer' : ValueTable} {d : PipeDefinition} {given given' : List (String × Value)}
  {scratch : Scratch} {s s' : PipeProgress}

/-- The tables around a pipe have related values in the rows that no function writes. -/
def Surrounds (k : Coupling) (c : Context) (outer outer' : ValueTable) : Prop :=
  ∀ id, (∀ function, ¬ c.Writes function id) → k.Rows outer[id]? outer'[id]?

/-- Related results of pipes, after equally many steps. -/
def Counted (k : Coupling) (result result' : Value × Nat) : Prop :=
  k.values result.1 result'.1 ∧ result.2 = result'.2

theorem results_foldlM_bindSlot (related : List.Forall₂ k.Named given given') :
    ∀ {inputs : List PipeInput} {scope scope' : ValueTable}, k.Tables scope scope' →
      k.Results k.Tables (inputs.foldlM (bindSlot function given) scope)
        (inputs.foldlM (bindSlot function given') scope')
  | [], _, _, tables => tables
  | input :: inputs, scope, scope', tables => by
    rw [List.foldlM_cons, List.foldlM_cons]
    have bound : k.Results k.Tables (bindSlot function given scope input)
        (bindSlot function given' scope' input) := by
      have rows := rows_lookup related input.name
      unfold bindSlot
      generalize given.lookup input.name = row at rows
      generalize given'.lookup input.name = row' at rows
      cases rows with
      | some here => exact tables.insert input.slot here
      | none => exact results_error _
    exact bound.bind fun _ _ tables => results_foldlM_bindSlot related tables

theorem results_inputScope (related : List.Forall₂ k.Named given given') :
    k.Results k.Tables (inputScope function d given) (inputScope function d given') := by
  have extra := rel_find? related fun name => (d.input? name).isNone
  unfold inputScope
  generalize (given.find? fun binding => (d.input? binding.1).isNone) = binding at extra
  generalize (given'.find? fun binding => (d.input? binding.1).isNone) = binding' at extra
  cases extra with
  | some here =>
    dsimp only
    rw [here.1]
    exact results_error _
  | none =>
    have nothing : k.Tables ∅ ∅ := by
      intro id
      rw [Std.ExtTreeMap.getElem?_empty]
      exact .none
    exact results_foldlM_bindSlot related nothing

/-- Two runs of a pipe have come equally far, and their scopes have related values in all rows. -/
structure Abreast (k : Coupling) (s s' : PipeProgress) : Prop where
  tables : k.Tables s.scope s'.scope
  outputs : s'.outputs = s.outputs
  count : s'.count = s.count

namespace Abreast

theorem advance (abreast : Abreast k s s') {value value' : Value} (here : k.values value value')
    (inside : Nat) : Abreast k (Evaluator.advance function scratch s value inside)
      (Evaluator.advance function scratch s' value' inside) := by
  unfold Evaluator.advance
  rw [abreast.outputs, abreast.count]
  exact ⟨abreast.tables.insert _ here, congrArg (· ++ [_]) abreast.outputs,
    congrArg (· + 1 + inside) abreast.count⟩

theorem output? (abreast : Abreast k s s') (index : Nat) :
    k.Rows (s.output? index) (s'.output? index) := by
  unfold PipeProgress.output?
  rw [abreast.outputs]
  exact abreast.tables.bind _

theorem last? (abreast : Abreast k s s') : k.Rows s.last? s'.last? := by
  rw [PipeProgress.last?_eq_output?, PipeProgress.last?_eq_output?, abreast.outputs]
  exact abreast.output? _

end Abreast

theorem results_readSource (abreast : Abreast k s s') {source : Source}
    (absolute : ∀ id, source = .value id → k.Rows outer[id]? outer'[id]?) :
    k.Results k.values (readSource function d outer s source)
      (readSource function d outer' s' source) := by
  cases source with
  | input name =>
    have rows : k.Rows ((d.input? name).bind fun input => s.scope[input.slot]?)
        ((d.input? name).bind fun input => s'.scope[input.slot]?) := by
      cases d.input? name with
      | none => exact .none
      | some input => exact abreast.tables input.slot
    unfold readSource
    dsimp only
    generalize ((d.input? name).bind fun input => s.scope[input.slot]?) = row at rows
    generalize ((d.input? name).bind fun input => s'.scope[input.slot]?) = row' at rows
    cases rows with
    | some here => exact here
    | none => exact results_error _
  | step index =>
    have rows := abreast.output? index
    unfold readSource
    dsimp only
    generalize s.output? index = row at rows
    generalize s'.output? index = row' at rows
    cases rows with
    | some here => exact here
    | none => exact results_error _
  | value id =>
    have rows := abreast.tables id
    unfold readSource
    dsimp only
    generalize s.scope[id]? = row at rows
    generalize s'.scope[id]? = row' at rows
    cases rows with
    | some here => exact here
    | none => exact results_readRow (absolute id rfl)

theorem results_readArguments (abreast : Abreast k s s') {step : PipeStep}
    (absolute : ∀ name id, (name, Source.value id) ∈ step.args → k.Rows outer[id]? outer'[id]?) :
    k.Results (List.Forall₂ k.Named) (readArguments function d outer s step)
      (readArguments function d outer' s' step) := by
  apply results_mapM
  rintro ⟨name, source⟩ isArg
  refine (results_readSource abreast ?_).bind fun _ _ here => ⟨rfl, here⟩
  rintro id rfl
  exact absolute name id isArg

theorem results_runStep (respects : m.Respects k) {nested nested' : Nested}
    (abreast : Abreast k s s') {step : PipeStep}
    (absolute : ∀ name id, (name, Source.value id) ∈ step.args → k.Rows outer[id]? outer'[id]?)
    (inner : ∀ scratch id {args args'}, List.Forall₂ k.Named args args' →
      k.Results (Counted k) (nested scratch id args) (nested' scratch id args')) :
    k.Results (Counted k) (m.runStep function nested d outer scratch s step)
      (m.runStep function nested' d outer' scratch s' step) := by
  unfold runStep
  refine (results_readArguments abreast absolute).bind fun args args' related => ?_
  cases step.body with
  | pipe id =>
    dsimp only
    rw [abreast.count]
    exact inner _ id related
  | combine id =>
    dsimp only
    cases m.context.combines[id]? with
    | none => exact results_error _
    | some definition =>
      dsimp only
      rw [abreast.outputs, related.length_eq]
      cases related with
      | nil => exact results_error _
      | cons left rest =>
        cases rest with
        | nil => exact results_error _
        | cons right rest =>
          cases rest with
          | nil =>
            refine (respects function definition left.2 right.2).bind fun _ _ here => ?_
            exact ⟨here, rfl⟩
          | cons => exact results_error _

theorem results_runSteps (respects : m.Respects k) {nested nested' : Nested}
    (inner : ∀ scratch id {args args'}, List.Forall₂ k.Named args args' →
      k.Results (Counted k) (nested scratch id args) (nested' scratch id args')) :
    ∀ {steps : List PipeStep} {s s' : PipeProgress},
      (∀ step ∈ steps, ∀ name id, (name, Source.value id) ∈ step.args →
        k.Rows outer[id]? outer'[id]?) →
      Abreast k s s' →
      k.Results (Abreast k) (m.runSteps function nested d outer scratch s steps)
        (m.runSteps function nested' d outer' scratch s' steps)
  | [], _, _, _, abreast => abreast
  | step :: rest, s, s', absolute, abreast => by
    rw [runSteps, runSteps]
    refine (results_runStep respects abreast (absolute step List.mem_cons_self) inner).bind ?_
    rintro ⟨value, inside⟩ ⟨value', inside'⟩ ⟨here, rfl⟩
    exact results_runSteps respects inner
      (fun other isStep => absolute other (List.mem_cons_of_mem _ isStep))
      (abreast.advance here inside)

/-- A pipe that is given related inputs gives related results, after equally many steps. -/
theorem results_runPipe (respects : m.Respects k) (apart : m.context.AbsoluteApart)
    (surrounds : Surrounds k m.context outer outer') : ∀ {levels : Nat} (scratch : Scratch)
      (id : PipeId) {given given' : List (String × Value)}, List.Forall₂ k.Named given given' →
      k.Results (Counted k) (m.runPipe function outer levels scratch id given)
        (m.runPipe function outer' levels scratch id given')
  | 0, _, _, _, _, _ => results_error _
  | levels + 1, scratch, id, given, given', related => by
    rw [runPipe, runPipe]
    cases known : m.context.pipes[id]? with
    | none => exact results_error _
    | some d =>
      dsimp only
      split
      · exact results_error _
      · refine (results_inputScope related).bind fun scope scope' tables => ?_
        have absolute : ∀ step ∈ d.steps, ∀ name value, (name, Source.value value) ∈ step.args →
            k.Rows outer[value]? outer'[value]? :=
          fun step isStep name value isArg =>
            surrounds value (apart id d known step isStep name value isArg).1
        have inner : ∀ scratch id {args args'}, List.Forall₂ k.Named args args' →
            k.Results (Counted k) (m.runPipe function outer levels scratch id args)
              (m.runPipe function outer' levels scratch id args') :=
          fun scratch id _ _ related => results_runPipe respects apart surrounds scratch id related
        have start : Abreast k (.start scope) (.start scope') := ⟨tables, rfl, rfl⟩
        refine (results_runSteps respects inner absolute start).bind ?_
        intro s s' abreast
        have last := abreast.last?
        rw [abreast.count]
        generalize s.last? = value at last
        generalize s'.last? = value' at last
        cases last with
        | some here => exact ⟨here, rfl⟩
        | none => exact results_error _

end pipes

/-! ### Another table -/

/-- The evaluator of the graph with other rows. -/
def onTable (m : Evaluator) (values : ValueTable) : Evaluator :=
  { m with context := m.context.setValues values }

section onTable

variable (values : ValueTable)

theorem runSteps_onTable {nested : Nested} {d : PipeDefinition} {outer : ValueTable}
    {scratch : Scratch} : ∀ (steps : List PipeStep) (s : PipeProgress),
      (m.onTable values).runSteps function nested d outer scratch s steps =
        m.runSteps function nested d outer scratch s steps
  | [], _ => rfl
  | step :: rest, _ => by
    rw [runSteps, runSteps]
    simp only [runSteps_onTable rest]
    rfl

theorem runPipe_onTable {outer : ValueTable} : ∀ levels : Nat,
    (m.onTable values).runPipe function outer levels = m.runPipe function outer levels
  | 0 => by
    funext scratch id given
    rfl
  | levels + 1 => by
    funext scratch id given
    rw [runPipe, runPipe]
    simp only [runPipe_onTable levels, runSteps_onTable]
    rfl

theorem runFunction_onTable (entry : FunctionEntry) (p : Progress) :
    (m.onTable values).runFunction function entry p = m.runFunction function entry p := by
  cases entry with
  | combine definition args returns => rfl
  | pipe definition args returns =>
    unfold runFunction
    simp only [runPipe_onTable]
    rfl
  | cond definition returns => rfl

mutual

theorem runTree_onTable : ∀ (tree : Tree) (p : Progress),
    (m.onTable values).runTree tree p = m.runTree tree p
  | .value id, p => by
    rw [runTree, runTree]
  | .function id entry children, p => by
    rw [runTree, runTree]
    simp only [runTrees_onTable children, runFunction_onTable]
  | .cond id returns condition thenBranch elseBranch, p => by
    rw [runTree, runTree]
    simp only [runTree_onTable condition, runTree_onTable thenBranch, runTree_onTable elseBranch]

theorem runTrees_onTable : ∀ (trees : List Tree) (p : Progress),
    (m.onTable values).runTrees trees p = m.runTrees trees p
  | [], p => by
    rw [runTrees, runTrees]
  | tree :: rest, p => by
    rw [runTrees, runTrees]
    simp only [runTree_onTable tree, runTrees_onTable rest]

end

end onTable

theorem layOut_setValues {c : Context} (values : ValueTable) :
    ∀ (levels : Nat) (opened : Plan.Opened) (node : Node),
      Plan.layOut (c.setValues values) levels opened node = Plan.layOut c levels opened node
  | 0, _, _ => rfl
  | levels + 1, opened, node => by
    have below : Plan.layOut (c.setValues values) levels (opened.enter node) =
        Plan.layOut c levels (opened.enter node) :=
      funext fun next => layOut_setValues values levels (opened.enter node) next
    unfold Plan.layOut
    rw [below]
    rfl

/-- Rows play no part in planning. -/
theorem build_setValues {c : Context} (values : ValueTable) (root : Node) :
    Plan.build (c.setValues values) root = Plan.build c root := by
  unfold Plan.build
  rw [layOut_setValues]
  rfl

/-- The rows of the graph are where an evaluation starts from, and nothing else. -/
theorem evaluate_onTable (values : ValueTable) (root : Node) (session : Nat) :
    (m.onTable values).evaluate root session =
      match Plan.build m.context root with
      | .ok plan => do
        let p ← m.runTree plan.tree (.start session values)
        let value ← readRow p.table plan.tree.output
        return ⟨value, p.table, p.stats⟩
      | .error e => fail e := by
  have planned : Plan.build (m.onTable values).context root = Plan.build m.context root :=
    build_setValues values root
  unfold evaluate evaluateTree
  rw [planned]
  simp only [runTree_onTable]
  rfl

/-! ### What conds read -/

mutual

/-- The values that conds read of their conditions while a tree is run from a progress, in order. -/
def conditions (m : Evaluator) : Tree → Progress → List Value
  | .value _, _ => []
  | .function id _ children, p => if p.completed.contains id then [] else conditionsAll m children p
  | .cond id _ condition thenBranch elseBranch, p =>
    if p.completed.contains id then []
    else
      conditions m condition p ++
      match m.runTree condition p with
      | .error _ => []
      | .ok p =>
        match p.table[condition.output]? with
        | none => []
        | some flag =>
          flag ::
          match flag.asBool? with
          | none => []
          | some true => conditions m thenBranch p
          | some false => conditions m elseBranch p

/-- The values that conds read while trees are run one after the other. -/
def conditionsAll (m : Evaluator) : List Tree → Progress → List Value
  | [], _ => []
  | tree :: rest, p =>
    conditions m tree p ++
    match m.runTree tree p with
    | .error _ => []
    | .ok p => conditionsAll m rest p

end

/-! ### Trees -/

section trees

variable {c : Context} {p p' q q' : Progress} {tree : Tree} {id : FunctionId} {entry : FunctionEntry}

/-- No function writes the row, or one that has run does. -/
def RowSettled (c : Context) (p : Progress) (id : ValueId) : Prop :=
  (∀ function, ¬ c.Writes function id) ∨ ∃ function ∈ p.completed, c.Writes function id

/-- Two runs have come equally far, and their tables have related values in all settled rows. -/
structure Alike (k : Coupling) (c : Context) (p p' : Progress) : Prop where
  session : p'.session = p.session
  completed : p'.completed = p.completed
  stats : p'.stats = p.stats
  rows : ∀ {id}, RowSettled c p id → k.Rows p.table[id]? p'.table[id]?

theorem Alike.scratch (alike : Alike k c p p') : p'.scratch = p.scratch := by
  unfold Progress.scratch
  rw [alike.session, alike.stats]

theorem Alike.surrounds (alike : Alike k c p p') : Surrounds k c p.table p'.table :=
  fun _ unwritten => alike.rows (.inl unwritten)

theorem Alike.countSteps (alike : Alike k c p p') (steps : Nat) :
    Alike k c (p.countSteps steps) (p'.countSteps steps) where
  session := alike.session
  completed := alike.completed
  stats := by
    unfold Progress.countSteps
    rw [alike.stats]
  rows := alike.rows

theorem Alike.complete (alike : Alike k c p p') (known : c.functions[id]? = some entry)
    {value value' : Value} (here : k.values value value') :
    Alike k c (p.complete id entry.returns value) (p'.complete id entry.returns value') where
  session := alike.session
  completed := by
    unfold Progress.complete
    rw [alike.completed]
  stats := by
    unfold Progress.complete
    rw [alike.stats]
  rows {row} settled := by
    show k.Rows (p.table.insert entry.returns value)[row]? (p'.table.insert entry.returns value')[row]?
    rw [Table.getElem?_insert, Table.getElem?_insert]
    split
    · exact .some here
    · next different =>
      -- the row is not that of the function that has just run, so it was settled before
      apply alike.rows
      refine settled.imp_right ?_
      rintro ⟨function, done, writes⟩
      refine ⟨function, (mem_completed_complete.1 done).resolve_left ?_, writes⟩
      rintro rfl
      obtain ⟨entry', known', same⟩ := writes
      cases known.symm.trans known'
      exact different same

/-- From one progress, the runs have come to another one, where the function of the tree has run. -/
structure Settles (k : Coupling) (c : Context) (p : Progress) (trees : List Tree)
    (q q' : Progress) : Prop where
  alike : Alike k c q q'
  more : ∀ f ∈ p.completed, f ∈ q.completed
  settled : ∀ tree ∈ trees, ∀ f, tree.node = .function f → f ∈ q.completed

/-- Where its function has run, the row of a tree is settled. -/
theorem rowSettled_output (exact : c.IndexExact) (unfolds : tree.Unfolds c)
    (settled : ∀ f, tree.node = .function f → f ∈ p.completed) : RowSettled c p tree.output := by
  cases unfolds with
  | value unproduced => exact .inl fun _ => exact.not_writes unproduced
  | function known => exact .inr ⟨_, settled _ rfl, Context.writes_of_getElem? known⟩
  | cond known => exact .inr ⟨_, settled _ rfl, Context.writes_of_getElem? known⟩

/-- Running a combine or pipe on settled arguments. -/
theorem results_runFunction (respects : m.Respects k) (apart : m.context.AbsoluteApart)
    (known : m.context.functions[id]? = some entry) (alike : Alike k m.context p p')
    (settled : ∀ value ∈ entry.args.values, RowSettled m.context p value) :
    k.Results (fun q q' => Alike k m.context q q' ∧ ∀ f, f ∈ q.completed ↔ f = id ∨ f ∈ p.completed)
      (m.runFunction id entry p) (m.runFunction id entry p') := by
  have read : k.Results (List.Forall₂ k.values) (readRows p.table entry.args.values)
      (readRows p'.table entry.args.values) :=
    results_mapM fun value isArg => results_readRow (alike.rows (settled value isArg))
  cases entry with
  | cond definition returns => exact results_error _
  | combine definition args returns =>
    unfold runFunction
    dsimp only
    cases m.context.combines[definition]? with
    | none => exact results_error _
    | some d =>
      refine read.bind fun values values' related => ?_
      rw [related.length_eq]
      cases related with
      | nil => exact results_error _
      | cons left rest =>
        cases rest with
        | nil => exact results_error _
        | cons right rest =>
          cases rest with
          | cons => exact results_error _
          | nil =>
            refine (respects id d left right).bind fun value value' here => ?_
            exact ⟨alike.complete known here, fun _ => mem_completed_complete⟩
  | pipe definition args returns =>
    unfold runFunction
    refine read.bind fun values values' related => ?_
    rw [alike.scratch]
    refine (results_runPipe respects apart alike.surrounds _ _ (named_zip related)).bind ?_
    rintro ⟨value, steps⟩ ⟨value', steps'⟩ ⟨here, rfl⟩
    exact ⟨(alike.countSteps steps).complete known here, fun _ => mem_completed_complete⟩

theorem Alike.settles_nil (alike : Alike k c p p') : Settles k c p [] p p' where
  alike := alike
  more _ done := done
  settled _ isTree := by cases isTree

/-- Running trees one after the other, once for each of them the runs are known to be coupled. -/
theorem results_runTrees : ∀ {trees : List Tree} {p p' : Progress},
    (∀ tree ∈ trees, ∀ {p p'}, Alike k c p p' →
      (∀ flag ∈ m.conditions tree p, ∀ flag', k.values flag flag' → flag = flag') →
      k.Results (Settles k c p [tree]) (m.runTree tree p) (m.runTree tree p')) →
    Alike k c p p' →
    (∀ flag ∈ m.conditionsAll trees p, ∀ flag', k.values flag flag' → flag = flag') →
    k.Results (Settles k c p trees) (m.runTrees trees p) (m.runTrees trees p')
  | [], _, _, _, alike, _ => alike.settles_nil
  | tree :: rest, p, p', runs, alike, flags => by
    rw [conditionsAll] at flags
    rw [runTrees, runTrees]
    refine (runs tree List.mem_cons_self alike fun flag isFlag =>
      flags flag (List.mem_append_left _ isFlag)).bind_ran fun q q' ran _ first => ?_
    rw [ran] at flags
    refine (results_runTrees (fun other isTree => runs other (List.mem_cons_of_mem _ isTree))
      first.alike fun flag isFlag => flags flag (List.mem_append_right _ isFlag)).mono ?_
    intro r r' second
    refine ⟨second.alike, fun f done => second.more f (first.more f done), ?_⟩
    intro other isTree f isNode
    rcases List.mem_cons.1 isTree with rfl | isTree
    · exact second.more f (first.settled other (List.mem_singleton_self _) f isNode)
    · exact second.settled other isTree f isNode

/-- A function of the plan that has run before. -/
theorem Alike.settles_done (alike : Alike k c p p') (isNode : tree.node = .function id)
    (done : id ∈ p.completed) : Settles k c p [tree] p p' where
  alike := alike
  more _ done := done
  settled other isTree f isNode' := by
    rw [List.mem_singleton.1 isTree, isNode] at isNode'
    cases isNode'
    exact done

/-- A function of the plan that has just run. -/
theorem Settles.complete {trees : List Tree} {r r' : Progress} (before : Settles k c p trees q q')
    (isNode : tree.node = .function id) (alike : Alike k c r r')
    (completed : ∀ f, f ∈ r.completed ↔ f = id ∨ f ∈ q.completed) : Settles k c p [tree] r r' where
  alike := alike
  more f done := (completed f).2 (.inr (before.more f done))
  settled other isTree f isNode' := by
    rw [List.mem_singleton.1 isTree, isNode] at isNode'
    cases isNode'
    exact (completed id).2 (.inl rfl)

/-- Running the branch that a cond takes, and handing on its value. -/
theorem results_runChosen (exact : c.IndexExact) {definition : CondId} {returns : ValueId}
    {branch condition thenBranch elseBranch : Tree}
    (known : c.functions[id]? = some (.cond definition returns)) (unfolds : branch.Unfolds c)
    (before : Settles k c p [condition] q q')
    (runs : k.Results (Settles k c q [branch]) (m.runTree branch q) (m.runTree branch q')) :
    k.Results (Settles k c p [.cond id returns condition thenBranch elseBranch])
      (m.runChosen id returns branch q) (m.runChosen id returns branch q') := by
  refine runs.bind fun r r' ran => ?_
  have settled := rowSettled_output exact unfolds (ran.settled branch (List.mem_singleton_self _))
  refine (results_readRow (ran.alike.rows settled)).bind fun value value' here => ?_
  have through : Settles k c p [condition] r r' :=
    ⟨ran.alike, fun f done => ran.more f (before.more f done), fun tree isTree f isNode =>
      ran.more f (before.settled tree isTree f isNode)⟩
  exact through.complete rfl (ran.alike.complete known here) fun _ => mem_completed_complete

/-- Two runs of a tree that have come equally far stay together, if conds read the same of their
conditions. -/
theorem runTree_couples (respects : m.Respects k) (exact : m.context.IndexExact)
    (apart : m.context.AbsoluteApart) (unfolds : tree.Unfolds m.context) : ∀ {p p' : Progress},
      Alike k m.context p p' →
      (∀ flag ∈ m.conditions tree p, ∀ flag', k.values flag flag' → flag = flag') →
      k.Results (Settles k m.context p [tree]) (m.runTree tree p) (m.runTree tree p') := by
  induction unfolds with
  | @value id unproduced =>
    intro p p' alike _
    have rows := alike.rows (.inl fun _ => exact.not_writes unproduced)
    rw [runTree, runTree, Std.ExtTreeMap.contains_eq_isSome_getElem?,
      Std.ExtTreeMap.contains_eq_isSome_getElem?]
    generalize p.table[id]? = row at rows
    generalize p'.table[id]? = row' at rows
    cases rows with
    | none => exact results_error _
    | some here =>
      refine ⟨⟨alike.session, alike.completed, ?_, alike.rows⟩, fun _ done => done, ?_⟩
      · unfold Progress.readValue
        rw [alike.stats]
      · intro tree isTree f isNode
        rw [List.mem_singleton.1 isTree] at isNode
        cases isNode
  | @function id entry children known isArgs nodes below ih =>
    intro p p' alike flags
    rw [conditions] at flags
    rw [runTree, runTree, alike.completed]
    split
    · next done => exact alike.settles_done rfl done
    · next new =>
      rw [if_neg new] at flags
      refine (results_runTrees ih alike flags).bind fun q q' ran => ?_
      have settled : ∀ value ∈ entry.args.values, RowSettled m.context q value := by
        intro value isArg
        obtain ⟨child, isChild, supplies⟩ := Tree.exists_child_of_value nodes isArg
        rw [← (below child isChild).output_eq exact supplies]
        exact rowSettled_output exact (below child isChild) (ran.settled child isChild)
      refine (results_runFunction respects apart known ran.alike settled).mono ?_
      rintro r r' ⟨alike, completed⟩
      exact ran.complete rfl alike completed
  | @cond id definition returns d condition thenBranch elseBranch known found _ _ _ unfolds
      thenUnfolds elseUnfolds ihCondition ihThen ihElse =>
    intro p p' alike flags
    rw [conditions] at flags
    rw [runTree, runTree, alike.completed]
    split
    · next done => exact alike.settles_done rfl done
    · next new =>
      rw [if_neg new] at flags
      refine (ihCondition alike fun flag isFlag =>
        flags flag (List.mem_append_left _ isFlag)).bind_ran fun q q' ran _ first => ?_
      have settled := rowSettled_output exact unfolds
        (first.settled condition (List.mem_singleton_self _))
      rw [ran] at flags
      refine (results_readRow (first.alike.rows settled)).bind_ran fun flag flag' read _ here => ?_
      -- both runs have read the same, so they take the same branch
      simp only [getElem?_of_readRow read] at flags
      obtain rfl := flags flag (List.mem_append_right _ List.mem_cons_self) flag' here
      cases choice : flag.asBool? with
      | none => exact results_error _
      | some b =>
        cases b with
        | true =>
          exact results_runChosen exact known thenUnfolds first (ihThen first.alike fun flag isFlag =>
            flags flag (List.mem_append_right _ (List.mem_cons_of_mem _ (by simpa [choice] using isFlag))))
        | false =>
          exact results_runChosen exact known elseUnfolds first (ihElse first.alike fun flag isFlag =>
            flags flag (List.mem_append_right _ (List.mem_cons_of_mem _ (by simpa [choice] using isFlag))))

end trees

/-! ### Evaluations -/

section evaluations

variable {root : Node} {session : Nat} {evaluation : Evaluation} {p : Progress}

/-- The values that conds read of their conditions in the evaluation of a node, in order. -/
def conditionsRead (m : Evaluator) (root : Node) (session : Nat) : List Value :=
  match Plan.build m.context root with
  | .ok plan => m.conditions plan.tree (.start session m.context.values)
  | .error _ => []

/-- An evaluation has ended at this progress. -/
structure Ends (m : Evaluator) (root : Node) (session : Nat) (evaluation : Evaluation)
    (p : Progress) : Prop where
  ran : ∃ plan, Plan.build m.context root = .ok plan ∧
    m.runTree plan.tree (.start session m.context.values) = .ok p
  values : evaluation.values = p.table
  stats : evaluation.stats = p.stats

/-- An evaluation that succeeds has ended somewhere. -/
theorem exists_ends (ran : m.evaluate root session = .ok evaluation) :
    ∃ p, m.Ends root session evaluation p := by
  obtain ⟨plan, planned⟩ := exists_plan ran
  unfold evaluate at ran
  rw [planned] at ran
  obtain ⟨p, ranTree, ran⟩ := Result.bind_eq_ok.1 ran
  obtain ⟨value, -, ran⟩ := Result.bind_eq_ok.1 ran
  cases ran
  exact ⟨p, ⟨plan, planned, ranTree⟩, rfl, rfl⟩

/-- At the end of an evaluation, functions that have run have what they mean in their rows. -/
theorem Ends.tracks (ends : m.Ends root session evaluation p) (orderly : m.context.Orderly)
    (fresh : m.context.FreshIn session) : Tracks m p := by
  obtain ⟨plan, planned, ran⟩ := ends.ran
  have built := Plan.build_spec m.context root
  rw [planned] at built
  have agrees := runTree_spec orderly built.1 (.start session m.context.values) (.start fresh)
  rw [ran] at agrees
  exact agrees.1

/-- An evaluation of a node and one on another table, with related values in the rows that no function
writes: both end at progresses that are alike, if conds read the same of their conditions. -/
theorem evaluate_couples (respects : m.Respects k) (exact : m.context.IndexExact)
    (apart : m.context.AbsoluteApart) {values : ValueTable}
    (rows : Surrounds k m.context m.context.values values)
    (flags : ∀ flag ∈ m.conditionsRead root session, ∀ flag', k.values flag flag' → flag = flag') :
    k.Results (fun e e' => k.values e.value e'.value ∧ ∃ p p', m.Ends root session e p ∧
        (m.onTable values).Ends root session e' p' ∧ Alike k m.context p p')
      (m.evaluate root session) ((m.onTable values).evaluate root session) := by
  have built := Plan.build_spec m.context root
  unfold conditionsRead at flags
  rw [evaluate_onTable]
  unfold evaluate evaluateTree
  cases planned : Plan.build m.context root with
  | error e => exact results_error _
  | ok plan =>
    rw [planned] at built flags
    have start : Alike k m.context (.start session m.context.values) (.start session values) := by
      refine ⟨rfl, rfl, rfl, fun {id} settled => rows id (settled.resolve_right ?_)⟩
      rintro ⟨function, done, -⟩
      exact absurd done Std.ExtTreeSet.not_mem_empty
    refine (runTree_couples respects exact apart built.1 start flags).bind_ran
      fun p p' ran ran' settles => ?_
    have settled := rowSettled_output exact built.1
      (settles.settled plan.tree (List.mem_singleton_self _))
    refine (results_readRow (settles.alike.rows settled)).bind fun value value' here => ?_
    have planned' : Plan.build (m.onTable values).context root = .ok plan :=
      (build_setValues values root).trans planned
    have ran'' : (m.onTable values).runTree plan.tree (.start session values) = .ok p' :=
      (runTree_onTable values plan.tree _).trans ran'
    exact ⟨here, p, p', ⟨⟨plan, planned, ran⟩, rfl, rfl⟩, ⟨⟨plan, planned', ran''⟩, rfl, rfl⟩,
      settles.alike⟩

end evaluations

end Evaluator

end TagFlow
