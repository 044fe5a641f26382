import Mathlib.Algebra.BigOperators.Ring.Finset
import TagFlow.Proofs.Evaluation.Agreement
import TagFlow.Proofs.Evaluation.Cycles

/-!
# What an evaluation runs

An evaluation runs the functions that the root *demands* (`Context.Demanded`): the one behind the
root, the producers of the arguments of a demanded function, and for a demanded cond what is behind
its condition and the branch that the condition selects. It runs each of them once, writes their
rows and no others, and counts what they read and the steps of their pipes (`evaluate_demand`).

Which branch is selected is known only as the run goes on, so demand is stated for a table, and
statements about a run hold for every table that keeps the rows the run has settled (`Keeps`). `Ran` is
the difference that a part of a run has made, and `Serves` says that it was made for the sake of some
nodes; parts that follow each other are put together by `Ran.trans` and `Serves.append`. That a function
does not run again while what it reads is run is where the graph has to be free of cycles.
-/

namespace TagFlow

namespace Context

/-! ### Demand -/

/-- The row that holds the value of a node once it has run. -/
def rowOf? (c : Context) : Node → Option ValueId
  | .value id => some id
  | .function id => c.functions[id]?.map (·.returns)

/-- The branch that a cond takes, as the value of its condition stands in a table. -/
def selected? (c : Context) (table : ValueTable) (d : CondDefinition) : Option FunctionId := do
  let row ← c.rowOf? d.condition
  let flag ← table[row]?
  let choice ← flag.asBool?
  return if choice then d.thenBranch else d.elseBranch

/-- A cond takes the branch that the value of its condition selects. -/
theorem selected?_eq_some {c : Context} {table : ValueTable} {d : CondDefinition} {row : ValueId}
    {flag : Value} {choice : Bool} (rowOf : c.rowOf? d.condition = some row)
    (here : table[row]? = some flag) (choose : flag.asBool? = some choice) :
    c.selected? table d = some (if choice then d.thenBranch else d.elseBranch) := by
  unfold selected?
  rw [rowOf, Option.bind_eq_bind, Option.bind_some, here, Option.bind_eq_bind, Option.bind_some,
    choose]
  rfl

/-- A function reads a node: an argument, or for a cond its condition and the branch it takes. -/
inductive Reads (c : Context) (table : ValueTable) : FunctionId → Node → Prop
  | argument {function entry value} : c.functions[function]? = some entry →
      value ∈ entry.args.values → c.Reads table function (.value value)
  | condition {function definition returns d} :
      c.functions[function]? = some (.cond definition returns) → c.conds[definition]? = some d →
      c.Reads table function d.condition
  | branch {function definition returns d branch} :
      c.functions[function]? = some (.cond definition returns) → c.conds[definition]? = some d →
      c.selected? table d = some branch → c.Reads table function (.function branch)

/-- The functions that the value of a node takes: what supplies the node, and what supplies the nodes
that such a function reads. -/
inductive Demanded (c : Context) (table : ValueTable) (root : Node) : FunctionId → Prop
  | root {function} : c.supplier root = .function function → c.Demanded table root function
  | reads {function node supplier} : c.Demanded table root function →
      c.Reads table function node → c.supplier node = .function supplier →
      c.Demanded table root supplier

/-! ### Counts -/

/-- One for a value that no function writes. -/
def leaves (c : Context) (node : Node) : Nat :=
  match c.supplier node with
  | .value _ => 1
  | .function _ => 0

/-- How many of its arguments, or of the condition of a cond, no function writes. -/
def entryLeaves (c : Context) : FunctionEntry → Nat
  | .combine _ args _ => (args.values.map fun value => c.leaves (.value value)).sum
  | .pipe _ args _ => (args.values.map fun value => c.leaves (.value value)).sum
  | .cond definition _ =>
    match c.conds[definition]? with
    | some d => c.leaves d.condition
    | none => 0

/-- How many leaves a function of the table reads. -/
def functionLeaves (c : Context) (function : FunctionId) : Nat :=
  match c.functions[function]? with
  | some entry => c.entryLeaves entry
  | none => 0

/-- One for the step itself, and the steps inside of the pipe that it runs. -/
def countStep (inside : PipeId → Nat) (step : PipeStep) : Nat :=
  match step.body with
  | .combine _ => 1
  | .pipe inner => 1 + inside inner

/-- The steps of a pipe and of the pipes that these run, going so many levels deep. -/
def pipeSteps (c : Context) : (levels : Nat) → PipeId → Nat
  | 0, _ => 0
  | levels + 1, id =>
    match c.pipes[id]? with
    | none => 0
    | some d => (d.steps.map (countStep (c.pipeSteps levels))).sum

/-- How many steps a function of the table runs, going so many levels deep. -/
def functionSteps (c : Context) (levels : Nat) (function : FunctionId) : Nat :=
  match c.functions[function]? with
  | some (.pipe definition _ _) => c.pipeSteps levels definition
  | _ => 0

variable {c : Context} {table : ValueTable} {function : FunctionId} {node root : Node}

theorem leaves_of_value {id : ValueId} (supplies : c.supplier node = .value id) :
    c.leaves node = 1 := by
  unfold leaves
  rw [supplies]

theorem leaves_of_function (supplies : c.supplier node = .function function) :
    c.leaves node = 0 := by
  unfold leaves
  rw [supplies]

/-! ### Demand and dependency -/

theorem Reads.dependsOn (reads : c.Reads table function node) :
    c.DependsOn (.function function) node := by
  cases reads with
  | argument known isArg => exact .argument known isArg
  | condition known found => exact .condition known found
  | branch known found selected =>
    unfold selected? at selected
    simp only [Option.bind_eq_bind, Option.bind_eq_some_iff, Option.pure_def,
      Option.some.injEq] at selected
    obtain ⟨_, -, _, -, choice, -, rfl⟩ := selected
    cases choice with
    | true => exact .thenBranch known found
    | false => exact .elseBranch known found

theorem reaches_supplier (supplies : c.supplier node = .function function) :
    c.Reaches node (.function function) := by
  cases node with
  | function id =>
    cases supplies
    exact .refl
  | value id =>
    cases produced : c.producerOf? id with
    | none =>
      rw [supplier_of_unproduced produced] at supplies
      cases supplies
    | some producer =>
      rw [supplier_of_producerOf? produced] at supplies
      cases supplies
      exact .single (.producer produced)

theorem Demanded.reaches (demanded : c.Demanded table root function) :
    c.Reaches root (.function function) := by
  induction demanded with
  | root supplies => exact reaches_supplier supplies
  | reads _ reads supplies ih => exact (ih.tail reads.dependsOn).trans (reaches_supplier supplies)

/-- What is demanded by a node that a function reads is demanded by the function. -/
theorem Demanded.of_reads {reader : FunctionId} (reads : c.Reads table reader node)
    (isRoot : c.supplier root = .function reader) (demanded : c.Demanded table node function) :
    c.Demanded table root function := by
  induction demanded with
  | root supplies => exact .reads (.root isRoot) reads supplies
  | reads _ reads supplies ih => exact .reads ih reads supplies

/-- A combine or pipe reads its arguments. -/
theorem reads_iff_of_args {entry : FunctionEntry} (known : c.functions[function]? = some entry)
    (isArgs : entry.kind ≠ .cond) :
    c.Reads table function node ↔ node ∈ entry.args.values.map Node.value := by
  rw [List.mem_map]
  constructor
  · intro reads
    cases reads with
    | argument known' isArg =>
      cases known.symm.trans known'
      exact ⟨_, isArg, rfl⟩
    | condition known' | branch known' =>
      cases known.symm.trans known'
      exact absurd rfl isArgs
  · rintro ⟨value, isArg, rfl⟩
    exact .argument known isArg

/-- A cond reads its condition and the branch it takes. -/
theorem reads_iff_of_cond {definition : CondId} {returns : ValueId} {d : CondDefinition}
    {branch : FunctionId} (known : c.functions[function]? = some (.cond definition returns))
    (found : c.conds[definition]? = some d) (selected : c.selected? table d = some branch) :
    c.Reads table function node ↔ node ∈ [d.condition, .function branch] := by
  rw [List.mem_pair]
  constructor
  · intro reads
    cases reads with
    | argument known' isArg =>
      cases known.symm.trans known'
      cases isArg
    | condition known' found' =>
      cases known.symm.trans known'
      cases found.symm.trans found'
      exact .inl rfl
    | branch known' found' selected' =>
      cases known.symm.trans known'
      cases found.symm.trans found'
      cases selected.symm.trans selected'
      exact .inr rfl
  · rintro (rfl | rfl)
    · exact .condition known found
    · exact .branch known found selected

end Context

namespace Evaluator

variable {m : Evaluator} {c : Context} {p p₁ p' : Progress} {table : ValueTable}
  {batch batch' : Finset FunctionId} {id : FunctionId} {entry : FunctionEntry} {value : Value}
  {node : Node} {nodes nodes' : List Node} {steps : Nat}

/-! ### What a part of a run has made -/

/-- The table keeps the rows that are settled: those of completed functions, and those that no
function writes. -/
def Keeps (c : Context) (p : Progress) (table : ValueTable) : Prop :=
  ∀ id, (c.producerOf? id = none ∨ ∃ function ∈ p.completed, c.Writes function id) →
    table[id]? = p.table[id]?

/-- Between two moments these functions have run, each once, and have written their rows. -/
structure Ran (c : Context) (p p' : Progress) (batch : Finset FunctionId) : Prop where
  completed : ∀ {function}, function ∈ p'.completed ↔ function ∈ p.completed ∨ function ∈ batch
  fresh : ∀ {function}, function ∈ batch → function ∉ p.completed
  others : ∀ {id}, (∀ function ∈ batch, ¬ c.Writes function id) → p'.table[id]? = p.table[id]?
  rows : ∀ {function}, function ∈ batch → ∃ entry value, c.functions[function]? = some entry ∧
    p'.table[entry.returns]? = some value
  functions : p'.stats.functionsEvaluated = p.stats.functionsEvaluated + batch.card
  steps : ∀ {levels}, pipeLevels c ≤ levels → p'.stats.pipeSteps =
    p.stats.pipeSteps + ∑ function ∈ batch, c.functionSteps levels function

theorem Keeps.refl : Keeps c p p.table := fun _ _ => rfl

/-- What has run since has left the settled rows alone. -/
theorem Keeps.before (keeps : Keeps c p' table) (ran : Ran c p p' batch) (exact : c.IndexExact)
    (distinct : c.DistinctReturns) : Keeps c p table := by
  intro id settled
  have settled' : c.producerOf? id = none ∨ ∃ function ∈ p'.completed, c.Writes function id := by
    refine settled.imp_right ?_
    rintro ⟨function, done, writes⟩
    exact ⟨function, ran.completed.2 (.inl done), writes⟩
  rw [keeps id settled']
  apply ran.others
  intro function isRan writes
  rcases settled with unproduced | ⟨other, done, writes'⟩
  · exact exact.not_writes unproduced writes
  · exact ran.fresh isRan (distinct writes writes' ▸ done)

namespace Ran

theorem refl (stats : p'.stats.functionsEvaluated = p.stats.functionsEvaluated ∧
      p'.stats.pipeSteps = p.stats.pipeSteps) (completed : p'.completed = p.completed)
    (table : p'.table = p.table) : Ran c p p' ∅ where
  completed := by simp [completed]
  fresh isRan := absurd isRan (Finset.notMem_empty _)
  others _ := by rw [table]
  rows isRan := absurd isRan (Finset.notMem_empty _)
  functions := by simp [stats.1]
  steps _ := by simp [stats.2]

/-- What has run in the second part had not run in the first. -/
theorem disjoint (first : Ran c p p₁ batch) (second : Ran c p₁ p' batch') :
    Disjoint batch batch' := by
  rw [Finset.disjoint_left]
  intro function isRan isRan'
  exact second.fresh isRan' (first.completed.2 (.inr isRan))

theorem trans (first : Ran c p p₁ batch) (second : Ran c p₁ p' batch')
    (distinct : c.DistinctReturns) : Ran c p p' (batch ∪ batch') := by
  have apart := first.disjoint second
  refine
    { completed := ?_
      fresh := ?_
      others := ?_
      rows := ?_
      functions := ?_
      steps := ?_ }
  · intro function
    rw [second.completed, first.completed, Finset.mem_union, or_assoc]
  · intro function isRan done
    rcases Finset.mem_union.1 isRan with isRan | isRan
    · exact first.fresh isRan done
    · exact second.fresh isRan (first.completed.2 (.inl done))
  · intro id unwritten
    rw [second.others fun function isRan => unwritten function (Finset.mem_union_right _ isRan),
      first.others fun function isRan => unwritten function (Finset.mem_union_left _ isRan)]
  · intro function isRan
    rcases Finset.mem_union.1 isRan with isRan | isRan
    · obtain ⟨entry, value, known, row⟩ := first.rows isRan
      refine ⟨entry, value, known, (second.others ?_).trans row⟩
      intro other isRan' writes
      have same := distinct writes (Context.writes_of_getElem? known)
      exact Finset.disjoint_left.1 apart isRan (same ▸ isRan')
    · exact second.rows isRan
  · rw [second.functions, first.functions, Finset.card_union_of_disjoint apart, Nat.add_assoc]
  · intro levels enough
    rw [second.steps enough, first.steps enough, Finset.sum_union apart, Nat.add_assoc]

/-- One function has run. -/
theorem complete (known : c.functions[id]? = some entry) (fresh : id ∉ p.completed)
    (counted : ∀ {levels}, pipeLevels c ≤ levels → c.functionSteps levels id = steps) :
    Ran c p ((p.countSteps steps).complete id entry.returns value) {id} where
  completed := by
    intro function
    rw [mem_completed_complete, Finset.mem_singleton, or_comm]
    rfl
  fresh isRan := by
    rw [Finset.mem_singleton.1 isRan]
    exact fresh
  others unwritten := by
    apply Table.getElem?_insert_of_ne
    rintro rfl
    exact unwritten id (Finset.mem_singleton_self id) (Context.writes_of_getElem? known)
  rows isRan := by
    rw [Finset.mem_singleton.1 isRan]
    exact ⟨entry, value, known, Table.getElem?_insert_self⟩
  functions := by
    rw [Finset.card_singleton]
    rfl
  steps enough := by
    rw [Finset.sum_singleton, counted enough]
    rfl

end Ran

/-! ### Why it has run -/

/-- All that completed functions read has been completed as well. -/
def Closed (c : Context) (p : Progress) : Prop :=
  ∀ {table : ValueTable}, Keeps c p table → ∀ {function : FunctionId} {node : Node}
    {supplier : FunctionId}, function ∈ p.completed → c.Reads table function node →
    c.supplier node = .function supplier → supplier ∈ p.completed

/-- The functions have run for the sake of these nodes, and the nodes have their values. -/
structure Serves (c : Context) (nodes : List Node) (p p' : Progress) (batch : Finset FunctionId) :
    Prop where
  ran : Ran c p p' batch
  closed : Closed c p'
  settled : ∀ {node function}, node ∈ nodes → c.supplier node = .function function →
    function ∈ p'.completed
  demanded : ∀ {table}, Keeps c p' table → ∀ {function}, function ∈ batch →
    ∃ node ∈ nodes, c.Demanded table node function
  values : p'.stats.valuesRead = p.stats.valuesRead + ∑ function ∈ batch, c.functionLeaves function +
    (nodes.map c.leaves).sum

namespace Serves

theorem nil (closed : Closed c p) : Serves c [] p p ∅ where
  ran := .refl ⟨rfl, rfl⟩ rfl rfl
  closed := closed
  settled isNode := by cases isNode
  demanded _ _ isRan := absurd isRan (Finset.notMem_empty _)
  values := rfl

/-- A leaf has been read. -/
theorem leaf {id : ValueId} (closed : Closed c p) (supplies : c.supplier node = .value id) :
    Serves c [node] p p.readValue ∅ where
  ran := .refl ⟨rfl, rfl⟩ rfl rfl
  closed := closed
  settled isNode supplies' := by
    rw [List.mem_singleton.1 isNode, supplies] at supplies'
    cases supplies'
  demanded _ _ isRan := absurd isRan (Finset.notMem_empty _)
  values := by
    rw [Finset.sum_empty, List.map_singleton, List.sum_singleton, Context.leaves_of_value supplies]
    rfl

/-- A function has run before. -/
theorem done (closed : Closed c p) (supplies : c.supplier node = .function id)
    (done : id ∈ p.completed) : Serves c [node] p p ∅ where
  ran := .refl ⟨rfl, rfl⟩ rfl rfl
  closed := closed
  settled isNode supplies' := by
    rw [List.mem_singleton.1 isNode, supplies] at supplies'
    cases supplies'
    exact done
  demanded _ _ isRan := absurd isRan (Finset.notMem_empty _)
  values := by
    rw [Finset.sum_empty, List.map_singleton, List.sum_singleton,
      Context.leaves_of_function supplies]
    rfl

theorem append (exact : c.IndexExact) (distinct : c.DistinctReturns)
    (first : Serves c nodes p p₁ batch) (second : Serves c nodes' p₁ p' batch') :
    Serves c (nodes ++ nodes') p p' (batch ∪ batch') where
  ran := first.ran.trans second.ran distinct
  closed := second.closed
  settled isNode supplies := by
    rcases List.mem_append.1 isNode with isNode | isNode
    · exact second.ran.completed.2 (.inl (first.settled isNode supplies))
    · exact second.settled isNode supplies
  demanded keeps function isRan := by
    rcases Finset.mem_union.1 isRan with isRan | isRan
    · obtain ⟨node, isNode, demanded⟩ :=
        first.demanded (keeps.before second.ran exact distinct) isRan
      exact ⟨node, List.mem_append_left _ isNode, demanded⟩
    · obtain ⟨node, isNode, demanded⟩ := second.demanded keeps isRan
      exact ⟨node, List.mem_append_right _ isNode, demanded⟩
  values := by
    rw [second.values, first.values, Finset.sum_union (first.ran.disjoint second.ran),
      List.map_append, List.sum_append]
    omega

/-- A function that does not depend on itself is not run by what it reads. -/
theorem notMem_completed (serves : Serves c nodes p p₁ batch) (new : id ∉ p.completed)
    (acyclic : ¬ Relation.TransGen c.DependsOn (.function id) (.function id))
    (reads : ∀ node ∈ nodes, c.Reads p₁.table id node) : id ∉ p₁.completed := by
  intro done
  rcases serves.ran.completed.1 done with old | isRan
  · exact new old
  · obtain ⟨node, isNode, demanded⟩ := serves.demanded .refl isRan
    exact acyclic (.head' (reads node isNode).dependsOn demanded.reaches)

/-- A function runs once the nodes that it reads have their values. -/
theorem complete (exact : c.IndexExact) (distinct : c.DistinctReturns)
    (serves : Serves c nodes p p₁ batch) (known : c.functions[id]? = some entry)
    (new : id ∉ p.completed)
    (acyclic : ¬ Relation.TransGen c.DependsOn (.function id) (.function id))
    (reads : ∀ {table}, Keeps c p₁ table → ∀ {node}, c.Reads table id node ↔ node ∈ nodes)
    (leaves : (nodes.map c.leaves).sum = c.entryLeaves entry)
    (counted : ∀ {levels}, pipeLevels c ≤ levels → c.functionSteps levels id = steps)
    (value : Value) (supplies : c.supplier node = .function id) :
    Serves c [node] p ((p₁.countSteps steps).complete id entry.returns value) (batch ∪ {id}) := by
  have fresh : id ∉ p₁.completed :=
    serves.notMem_completed new acyclic fun node isNode => (reads .refl).2 isNode
  have own : Ran c p₁ ((p₁.countSteps steps).complete id entry.returns value) {id} :=
    .complete known fresh counted
  refine
    { ran := serves.ran.trans own distinct
      closed := ?_
      settled := ?_
      demanded := ?_
      values := ?_ }
  · intro table keeps function next supplier done isRead supplies
    have keeps₁ := keeps.before own exact distinct
    refine own.completed.2 (.inl ?_)
    rcases own.completed.1 done with done | itself
    · exact serves.closed keeps₁ done isRead supplies
    · rw [Finset.mem_singleton.1 itself] at isRead
      exact serves.settled ((reads keeps₁).1 isRead) supplies
  · intro other function isNode supplies'
    rw [List.mem_singleton.1 isNode, supplies] at supplies'
    cases supplies'
    exact own.completed.2 (.inr (Finset.mem_singleton_self id))
  · intro table keeps function isRan
    have keeps₁ := keeps.before own exact distinct
    refine ⟨node, List.mem_singleton_self node, ?_⟩
    rcases Finset.mem_union.1 isRan with isRan | itself
    · obtain ⟨next, isNode, demanded⟩ := serves.demanded keeps₁ isRan
      exact demanded.of_reads ((reads keeps₁).2 isNode) supplies
    · rw [Finset.mem_singleton.1 itself]
      exact .root supplies
  · have read : c.functionLeaves id = c.entryLeaves entry := by
      unfold Context.functionLeaves
      rw [known]
    rw [Finset.sum_union (serves.ran.disjoint own), Finset.sum_singleton, read, ← leaves,
      List.map_singleton, List.sum_singleton, Context.leaves_of_function supplies, Nat.add_zero,
      ← Nat.add_assoc]
    exact serves.values

end Serves

/-! ### Steps of pipes -/

section steps

variable {outer : ValueTable} {d : PipeDefinition} {scratch : Scratch} {nested : Nested}
  {inside : PipeId → Nat}

theorem count_of_runStep {s : PipeProgress} {step : PipeStep} {result : Value × Nat}
    (counts : ∀ scratch inner given result, nested scratch inner given = .ok result →
      result.2 = inside inner)
    (ran : m.runStep id nested d outer scratch s step = .ok result) :
    1 + result.2 = Context.countStep inside step := by
  unfold runStep at ran
  obtain ⟨args, -, ran⟩ := Result.bind_eq_ok.1 ran
  unfold Context.countStep
  cases body : step.body with
  | combine definition =>
    rw [body] at ran
    dsimp only at ran
    split at ran
    · cases ran
    · split at ran
      · obtain ⟨value, -, ran⟩ := Result.bind_eq_ok.1 ran
        cases ran
        rfl
      · cases ran
  | pipe inner =>
    rw [body] at ran
    exact congrArg (1 + ·) (counts _ _ _ _ ran)

theorem count_of_runSteps
    (counts : ∀ scratch inner given result, nested scratch inner given = .ok result →
      result.2 = inside inner) :
    ∀ {steps : List PipeStep} {s s' : PipeProgress},
      m.runSteps id nested d outer scratch s steps = .ok s' →
      s'.count = s.count + (steps.map (Context.countStep inside)).sum
  | [], s, s', ran => by
    cases ran
    rfl
  | step :: rest, s, s', ran => by
    rw [runSteps] at ran
    obtain ⟨⟨value, within⟩, here, ran⟩ := Result.bind_eq_ok.1 ran
    have one := count_of_runStep counts here
    have advanced : (advance id scratch s value within).count = s.count + 1 + within := rfl
    rw [count_of_runSteps counts ran, List.map_cons, List.sum_cons, ← one, advanced]
    omega

/-- A pipe that has run has counted all steps: going deeper than the run did finds no more. -/
theorem count_of_runPipe : ∀ {levels deeper : Nat} {scratch : Scratch} {definition : PipeId}
    {given : List (String × Value)} {result : Value × Nat}, levels ≤ deeper →
      m.runPipe id outer levels scratch definition given = .ok result →
      result.2 = m.context.pipeSteps deeper definition
  | 0, deeper, scratch, definition, given, result, _, ran => by cases ran
  | levels + 1, 0, scratch, definition, given, result, deep, _ =>
    absurd deep (Nat.not_succ_le_zero levels)
  | levels + 1, deeper + 1, scratch, definition, given, result, deep, ran => by
    rw [runPipe] at ran
    cases found : m.context.pipes[definition]? with
    | none =>
      rw [found] at ran
      cases ran
    | some d =>
      rw [found] at ran
      dsimp only at ran
      split at ran
      · cases ran
      · obtain ⟨scope, -, ran⟩ := Result.bind_eq_ok.1 ran
        obtain ⟨s, steps, ran⟩ := Result.bind_eq_ok.1 ran
        have inside : ∀ scratch inner given result,
            m.runPipe id outer levels scratch inner given = .ok result →
            result.2 = m.context.pipeSteps deeper inner :=
          fun _ _ _ _ => count_of_runPipe (Nat.le_of_succ_le_succ deep)
        have counted := (count_of_runSteps inside steps).trans (Nat.zero_add _)
        rw [Context.pipeSteps, found]
        split at ran
        · cases ran
          exact counted
        · cases ran

end steps

/-- A function that runs completes with a value in its row and with the steps of its pipe counted. -/
theorem runFunction_eq_complete (known : m.context.functions[id]? = some entry)
    (ran : m.runFunction id entry p = .ok p') :
    ∃ value steps, p' = (p.countSteps steps).complete id entry.returns value ∧
      ∀ {levels}, pipeLevels m.context ≤ levels → m.context.functionSteps levels id = steps := by
  unfold Context.functionSteps
  rw [known]
  cases entry with
  | combine definition args returns =>
    unfold runFunction at ran
    dsimp only at ran
    split at ran
    · cases ran
    · obtain ⟨values, -, ran⟩ := Result.bind_eq_ok.1 ran
      split at ran
      · obtain ⟨value, -, ran⟩ := Result.bind_eq_ok.1 ran
        cases ran
        exact ⟨value, 0, rfl, fun _ => rfl⟩
      · cases ran
  | pipe definition args returns =>
    obtain ⟨values, -, ran⟩ := Result.bind_eq_ok.1 ran
    obtain ⟨⟨value, steps⟩, pipe, ran⟩ := Result.bind_eq_ok.1 ran
    cases ran
    exact ⟨value, steps, rfl, fun enough => (count_of_runPipe enough pipe).symm⟩
  | cond definition returns => cases ran

/-! ### Running trees -/

section trees

variable {tree : Tree}

/-- A node that has its value has it in the row of its tree, and the row is kept. -/
theorem Keeps.row (keeps : Keeps c p table) (exact : c.IndexExact) (unfolds : tree.Unfolds c)
    (here : tree.node = c.supplier node)
    (settled : ∀ {function}, c.supplier node = .function function → function ∈ p.completed) :
    c.rowOf? node = some tree.output ∧ table[tree.output]? = p.table[tree.output]? := by
  cases node with
  | value id =>
    rw [unfolds.output_eq exact here]
    refine ⟨rfl, keeps id ?_⟩
    cases produced : c.producerOf? id with
    | none => exact .inl rfl
    | some producer =>
      exact .inr ⟨producer, settled (Context.supplier_of_producerOf? produced),
        exact.writes produced⟩
  | function id =>
    have writes : ∃ entry, c.functions[id]? = some entry ∧ entry.returns = tree.output := by
      cases unfolds with
      | value => cases here
      | function known =>
        cases here
        exact ⟨_, known, rfl⟩
      | cond known =>
        cases here
        exact ⟨_, known, rfl⟩
    have ⟨entry, known, same⟩ := writes
    refine ⟨?_, keeps _ (.inr ⟨id, settled rfl, writes⟩)⟩
    show c.functions[id]?.map (·.returns) = some tree.output
    rw [known, ← same]
    rfl

/-- Running the trees of some values, one after the other. -/
theorem exists_serves_values (exact : m.context.IndexExact) (distinct : m.context.DistinctReturns) :
    ∀ {values : List ValueId} {children : List Tree} {p p' : Progress},
      children.map Tree.node = values.map (fun value => m.context.supplier (.value value)) →
      (∀ child ∈ children, ∀ {node p p'}, child.node = m.context.supplier node →
        Closed m.context p → m.runTree child p = .ok p' →
        ∃ batch, Serves m.context [node] p p' batch) →
      Closed m.context p → m.runTrees children p = .ok p' →
      ∃ batch, Serves m.context (values.map Node.value) p p' batch
  | [], children, p, p', nodes, _, closed, ran => by
    cases List.map_eq_nil_iff.1 nodes
    cases ran
    exact ⟨∅, .nil closed⟩
  | value :: values, [], p, p', nodes, _, _, _ => by cases nodes
  | value :: values, child :: children, p, p', nodes, runs, closed, ran => by
    rw [List.map_cons, List.map_cons, List.cons.injEq] at nodes
    rw [runTrees] at ran
    obtain ⟨p₁, here, later⟩ := Result.bind_eq_ok.1 ran
    obtain ⟨batch, first⟩ := runs child List.mem_cons_self nodes.1 closed here
    obtain ⟨batch', rest⟩ := exists_serves_values exact distinct nodes.2
      (fun other isChild => runs other (List.mem_cons_of_mem _ isChild)) first.closed later
    exact ⟨_, first.append exact distinct rest⟩

/-- A cond runs once its condition and then the branch that it selects have their values. -/
theorem exists_serves_cond (exact : c.IndexExact) (distinct : c.DistinctReturns)
    {definition : CondId} {returns : ValueId} {d : CondDefinition} {condition : Tree} {flag : Value}
    {choice : Bool} (known : c.functions[id]? = some (.cond definition returns))
    (found : c.conds[definition]? = some d) (new : id ∉ p.completed)
    (acyclic : ¬ Relation.TransGen c.DependsOn (.function id) (.function id))
    (unfolds : condition.Unfolds c) (conditionNode : condition.node = c.supplier d.condition)
    (first : Serves c [d.condition] p p₁ batch)
    (read : readRow p₁.table condition.output = .ok flag) (choose : flag.asBool? = some choice)
    (second : Serves c [.function (if choice then d.thenBranch else d.elseBranch)] p₁ p' batch')
    (value : Value) (supplies : c.supplier node = .function id) :
    ∃ batch, Serves c [node] p (p'.complete id returns value) batch := by
  -- the row of the condition is settled, so it still selects the branch that has run
  have selected : ∀ {table}, Keeps c p' table →
      c.selected? table d = some (if choice then d.thenBranch else d.elseBranch) := by
    intro table keeps
    obtain ⟨rowOf, row⟩ := (keeps.before second.ran exact distinct).row exact unfolds conditionNode
      (first.settled (List.mem_singleton_self _))
    exact Context.selected?_eq_some rowOf (row.trans (getElem?_of_readRow read)) choose
  have leaves : ([d.condition, .function (if choice then d.thenBranch else d.elseBranch)].map
      c.leaves).sum = c.entryLeaves (.cond definition returns) := by
    show _ = match c.conds[definition]? with
      | some d => c.leaves d.condition
      | none => 0
    rw [found]
    exact Nat.add_zero _
  have noSteps : ∀ {levels}, pipeLevels c ≤ levels → c.functionSteps levels id = 0 := by
    intro levels _
    unfold Context.functionSteps
    rw [known]
  exact ⟨_, (first.append exact distinct second).complete exact distinct known new acyclic
    (fun keeps => Context.reads_iff_of_cond known found (selected keeps)) leaves noSteps value
    supplies⟩

/-- Running the tree of a node serves the node. -/
theorem exists_serves (exact : m.context.IndexExact) (distinct : m.context.DistinctReturns)
    (unfolds : tree.Unfolds m.context) : ∀ {node : Node} {p p' : Progress},
      tree.node = m.context.supplier node → Closed m.context p → m.runTree tree p = .ok p' →
      ∃ batch, Serves m.context [node] p p' batch := by
  induction unfolds with
  | @value id unproduced =>
    intro node p p' here closed ran
    rw [runTree] at ran
    split at ran
    · cases ran
      exact ⟨∅, .leaf closed here.symm⟩
    · cases ran
  | @function id entry children known isArgs nodes below ih =>
    intro node p p' here closed ran
    have acyclic := Context.not_transGen_of_acc
      ((Tree.Unfolds.function known isArgs nodes below).acc (.function id) rfl)
    rw [runTree] at ran
    split at ran
    · next done =>
      cases ran
      exact ⟨∅, .done closed here.symm done⟩
    · next new =>
      obtain ⟨p₁, ranChildren, ran⟩ := Result.bind_eq_ok.1 ran
      obtain ⟨batch, serves⟩ := exists_serves_values exact distinct nodes ih closed ranChildren
      obtain ⟨value, steps, rfl, counted⟩ := runFunction_eq_complete known ran
      refine ⟨_, serves.complete exact distinct known new acyclic
        (fun _ => Context.reads_iff_of_args known isArgs) ?_ counted value here.symm⟩
      rw [List.map_map]
      cases entry with
      | combine => rfl
      | pipe => rfl
      | cond => exact absurd rfl isArgs
  | @cond id definition returns d condition thenBranch elseBranch known found conditionNode thenNode
      elseNode unfolds thenUnfolds elseUnfolds ihCondition ihThen ihElse =>
    intro node p p' here closed ran
    have acyclic := Context.not_transGen_of_acc
      ((Tree.Unfolds.cond known found conditionNode thenNode elseNode unfolds thenUnfolds
        elseUnfolds).acc (.function id) rfl)
    rw [runTree] at ran
    split at ran
    · next done =>
      cases ran
      exact ⟨∅, .done closed here.symm done⟩
    · next new =>
      obtain ⟨p₁, ranCondition, ran⟩ := Result.bind_eq_ok.1 ran
      obtain ⟨flag, read, ran⟩ := Result.bind_eq_ok.1 ran
      obtain ⟨batch, first⟩ := ihCondition conditionNode closed ranCondition
      split at ran
      · cases ran
      · next choose =>
        obtain ⟨p₂, ranBranch, ran⟩ := Result.bind_eq_ok.1 ran
        obtain ⟨value, -, ran⟩ := Result.bind_eq_ok.1 ran
        cases ran
        have taken : thenBranch.node = m.context.supplier (.function d.thenBranch) := thenNode
        obtain ⟨batch', second⟩ := ihThen taken first.closed ranBranch
        exact exists_serves_cond exact distinct known found new acyclic unfolds conditionNode first
          read choose second value here.symm
      · next choose =>
        obtain ⟨p₂, ranBranch, ran⟩ := Result.bind_eq_ok.1 ran
        obtain ⟨value, -, ran⟩ := Result.bind_eq_ok.1 ran
        cases ran
        have taken : elseBranch.node = m.context.supplier (.function d.elseBranch) := elseNode
        obtain ⟨batch', second⟩ := ihElse taken first.closed ranBranch
        exact exists_serves_cond exact distinct known found new acyclic unfolds conditionNode first
          read choose second value here.symm

end trees

/-! ### Whole evaluations -/

theorem closed_start (session : Nat) (values : ValueTable) : Closed c (.start session values) :=
  fun _ _ _ _ done => absurd done Std.ExtTreeSet.not_mem_empty

/-- What has been completed is demanded by the nodes that it was run for, and the other way round. -/
theorem Serves.mem_iff {session : Nat} (serves : Serves c [node] (.start session table) p batch)
    {function : FunctionId} :
    function ∈ batch ↔ c.Demanded p.table node function := by
  have all : ∀ {function}, function ∈ p.completed → function ∈ batch := by
    intro function done
    apply (serves.ran.completed.1 done).resolve_left
    exact Std.ExtTreeSet.not_mem_empty
  constructor
  · intro isRan
    obtain ⟨other, isNode, demanded⟩ := serves.demanded .refl isRan
    rw [List.mem_singleton.1 isNode] at demanded
    exact demanded
  · intro demanded
    induction demanded with
    | root supplies => exact all (serves.settled (List.mem_singleton_self node) supplies)
    | reads _ reads supplies ih =>
      exact all (serves.closed .refl (serves.ran.completed.2 (.inr ih)) reads supplies)

/-- A plan that has been run to its end has run for the sake of its root. -/
theorem exists_serves_of_plan (exact : m.context.IndexExact) (distinct : m.context.DistinctReturns)
    {root : Node} {plan : Plan} (planned : Plan.build m.context root = .ok plan) {session : Nat}
    (ran : m.runTree plan.tree (.start session m.context.values) = .ok p) :
    ∃ batch, Serves m.context [root] (.start session m.context.values) p batch := by
  have built := Plan.build_spec m.context root
  rw [planned] at built
  exact exists_serves exact distinct built.1 built.2 (closed_start _ _) ran

/-- An evaluation that succeeds has run for the sake of its root. -/
theorem exists_serves_of_evaluate (exact : m.context.IndexExact)
    (distinct : m.context.DistinctReturns) {root : Node} {session : Nat} {evaluation : Evaluation}
    (ran : m.evaluate root session = .ok evaluation) :
    ∃ p batch, Serves m.context [root] (.start session m.context.values) p batch ∧
      evaluation.values = p.table ∧ evaluation.stats = p.stats := by
  obtain ⟨plan, planned⟩ := exists_plan ran
  unfold evaluate at ran
  rw [planned] at ran
  obtain ⟨p, ranTree, ran⟩ := Result.bind_eq_ok.1 ran
  obtain ⟨value, -, ran⟩ := Result.bind_eq_ok.1 ran
  cases ran
  obtain ⟨batch, serves⟩ := exists_serves_of_plan exact distinct planned ranTree
  exact ⟨p, batch, serves, rfl, rfl⟩

end Evaluator

namespace Context

/-- An evaluation that succeeds runs what the root demands: each demanded function once, with a row
for each and no other row changed. It counts the functions, the leaves that they read and the steps of
their pipes. -/
theorem evaluate_demand {c : Context} (reached : c.Reachable) (distinct : c.DistinctReturns)
    {registry : Registry} {root : Node} {session : Nat} {evaluation : Evaluation}
    (ran : c.evaluate registry root session = .ok evaluation) :
    ∃ demanded : Finset FunctionId,
      (∀ function, function ∈ demanded ↔ c.Demanded evaluation.values root function) ∧
      (∀ id, (∃ value, evaluation.values[id]? = some value) ↔
        (∃ value, c.values[id]? = some value) ∨ ∃ function ∈ demanded, c.Writes function id) ∧
      (∀ id, (∀ function ∈ demanded, ¬ c.Writes function id) →
        evaluation.values[id]? = c.values[id]?) ∧
      evaluation.stats.functionsEvaluated = demanded.card ∧
      evaluation.stats.valuesRead =
        ∑ function ∈ demanded, c.functionLeaves function + c.leaves root ∧
      ∀ levels, Evaluator.pipeLevels c ≤ levels →
        evaluation.stats.pipeSteps = ∑ function ∈ demanded, c.functionSteps levels function := by
  obtain ⟨p, demanded, serves, values, stats⟩ :=
    Evaluator.exists_serves_of_evaluate (m := ⟨c, registry, false⟩) reached.indexExact distinct ran
  rw [values, stats]
  have others : ∀ id, (∀ function ∈ demanded, ¬ c.Writes function id) →
      p.table[id]? = c.values[id]? := fun id unwritten => serves.ran.others unwritten
  refine ⟨demanded, fun function => serves.mem_iff, ?_, others, ?_, ?_, ?_⟩
  · intro id
    by_cases written : ∃ function ∈ demanded, c.Writes function id
    · refine iff_of_true ?_ (.inr written)
      obtain ⟨function, isRan, entry, known, rfl⟩ := written
      obtain ⟨entry', value, known', row⟩ := serves.ran.rows isRan
      cases known.symm.trans known'
      exact ⟨value, row⟩
    · rw [or_iff_left written, others id fun function isRan writes => written ⟨function, isRan, writes⟩]
  · exact serves.ran.functions.trans (Nat.zero_add _)
  · rw [serves.values, List.map_singleton, List.sum_singleton]
    show 0 + _ + _ = _
    rw [Nat.zero_add]
  · exact fun levels enough => (serves.ran.steps enough).trans (Nat.zero_add _)

open Diamond in
theorem evaluate_demand_diamond :
    (diamond.Reachable ∧ diamond.DistinctReturns) ∧
    ∃ evaluation, diamond.evaluate .standard (.function choose) 3 = .ok evaluation ∧
      ∃ demanded : Finset FunctionId,
        (∀ function, function ∈ demanded ↔
          diamond.Demanded evaluation.values (.function choose) function) ∧
        demanded.card = 3 ∧ ∑ function ∈ demanded, diamond.functionSteps 3 function = 3 := by
  have holds : ((diamond.evaluate .standard (.function choose) 3).toOption.any fun evaluation =>
      evaluation.stats.functionsEvaluated == 3 && evaluation.stats.pipeSteps == 3) = true := by
    decide +kernel
  obtain ⟨evaluation, evaluated, holds⟩ := (Option.any_eq_true _ _).1 holds
  rw [Bool.and_eq_true, beq_iff_eq, beq_iff_eq] at holds
  have ran := Result.eq_ok_of_toOption evaluated
  obtain ⟨demanded, isDemanded, -, -, counted, -, countedSteps⟩ :=
    evaluate_demand reachable distinctReturns ran
  exact ⟨⟨reachable, distinctReturns⟩, evaluation, ran, demanded, isDemanded,
    counted.symm.trans holds.1, (countedSteps 3 (by decide +kernel)).symm.trans holds.2⟩

end Context

end TagFlow
