import TagFlow.Proofs.Evaluation.Agreement
import TagFlow.Proofs.Operation.Results

/-!
# What operations preserve, evaluations preserve

A property of values that operations and adapters preserve (`Registry.Preserves`) is a property of all
rows of the table that an evaluation gives, if it is one of all rows of the graph
(`Evaluator.evaluate_preserves`). Nothing is asked of the graph, not even that scratch identifiers are
fresh: what runs at all only moves values around, from the rows of tables and scopes to the operations
and back.

The property of interest is that element types are what the items say: they stay honest, whatever is
made of the arrays (`Context.evaluate_wellDeclared`).
-/

namespace TagFlow

namespace Evaluator

open Result

variable {m : Evaluator} {ok : Value → Prop} {function : FunctionId}

/-! ### Tables -/

/-- All rows of a table have the property. -/
def AllRows (ok : Value → Prop) (table : ValueTable) : Prop :=
  ∀ (id : ValueId) (value : Value), table[id]? = some value → ok value

theorem allRows_empty : AllRows ok ∅ := by
  intro id value row
  rw [Std.ExtTreeMap.getElem?_empty] at row
  cases row

theorem AllRows.insert {table : ValueTable} (rows : AllRows ok table) (id : ValueId) {value : Value}
    (here : ok value) : AllRows ok (table.insert id value) := by
  intro other content row
  rw [Table.getElem?_insert] at row
  split at row
  · cases row
    exact here
  · exact rows other content row

theorem AllRows.readRow {table : ValueTable} (rows : AllRows ok table) {id : ValueId} {value : Value}
    (run : readRow table id = .ok value) : ok value :=
  rows id value (getElem?_of_readRow run)

/-! ### Pipes -/

section pipes

variable {d : PipeDefinition} {scope outer : ValueTable} {inputs : List (String × Value)}
  {scratch : Scratch} {s : PipeProgress} {value : Value} {count : Nat}

theorem combine_preserves (preserves : m.registry.Preserves ok) {definition : CombineDefinition}
    {left right : Value} (isLeft : ok left) (isRight : ok right)
    (run : m.combine function definition left right = .ok value) : ok value := by
  obtain ⟨first, second, adapted, adapted', applied⟩ := combine_eq_ok run
  exact preserves.binary applied (preserves.adapter adapted isLeft) (preserves.adapter adapted' isRight)

theorem foldlM_bindSlot_preserves (given : ∀ binding ∈ inputs, ok binding.2) :
    ∀ {slots : List PipeInput} {scope bound : ValueTable}, AllRows ok scope →
      slots.foldlM (bindSlot function inputs) scope = .ok bound → AllRows ok bound
  | [], _, _, rows, run => by
    cases run
    exact rows
  | input :: slots, scope, bound, rows, run => by
    rw [List.foldlM_cons] at run
    obtain ⟨next, here, run⟩ := bind_eq_ok.1 run
    refine foldlM_bindSlot_preserves given ?_ run
    unfold bindSlot at here
    split at here
    · next value found =>
      cases here
      exact rows.insert input.slot (given (input.name, value) (Bindings.mem_of_lookup found))
    · cases here

/-- The scope of a pipe has what the pipe was given. -/
theorem inputScope_preserves (given : ∀ binding ∈ inputs, ok binding.2)
    (run : inputScope function d inputs = .ok scope) : AllRows ok scope := by
  unfold inputScope at run
  split at run
  · cases run
  · exact foldlM_bindSlot_preserves given allRows_empty run

theorem readSource_preserves (inside : AllRows ok s.scope) (around : AllRows ok outer)
    {source : Source} (run : readSource function d outer s source = .ok value) : ok value := by
  cases source with
  | input name =>
    simp only [readSource] at run
    split at run
    · next content found =>
      cases run
      obtain ⟨input, -, row⟩ := Option.bind_eq_some_iff.1 found
      exact inside input.slot value row
    · cases run
  | step index =>
    simp only [readSource] at run
    split at run
    · next content found =>
      cases run
      obtain ⟨id, -, row⟩ := Option.bind_eq_some_iff.1 found
      exact inside id value row
    · cases run
  | value id =>
    simp only [readSource] at run
    split at run
    · next content row =>
      cases run
      exact inside id value row
    · exact around.readRow run

theorem readArguments_preserves (inside : AllRows ok s.scope) (around : AllRows ok outer)
    {step : PipeStep} {args : List (String × Value)}
    (run : readArguments function d outer s step = .ok args) : ∀ arg ∈ args, ok arg.2 := by
  intro arg isArg
  obtain ⟨_, -, here⟩ := exists_of_mem_right (forall₂_of_mapM run) isArg
  obtain ⟨value, read, named⟩ := bind_eq_ok.1 here
  cases named
  exact readSource_preserves inside around read

/-- A nested pipe that preserves the property. -/
def NestedPreserves (ok : Value → Prop) (nested : Nested) : Prop :=
  ∀ {scratch : Scratch} {id : PipeId} {inputs : List (String × Value)} {value : Value} {count : Nat},
    (∀ binding ∈ inputs, ok binding.2) → nested scratch id inputs = .ok (value, count) → ok value

variable {nested : Nested}

theorem runStep_preserves (preserves : m.registry.Preserves ok) (inner : NestedPreserves ok nested)
    (inside : AllRows ok s.scope) (around : AllRows ok outer) {step : PipeStep}
    (run : m.runStep function nested d outer scratch s step = .ok (value, count)) : ok value := by
  unfold runStep at run
  obtain ⟨args, read, run⟩ := bind_eq_ok.1 run
  have given := readArguments_preserves inside around read
  cases body : step.body with
  | pipe id =>
    rw [body] at run
    exact inner given run
  | combine id =>
    rw [body] at run
    dsimp only at run
    split at run
    · cases run
    · split at run
      · next left right =>
        obtain ⟨result, ran, same⟩ := bind_eq_ok.1 run
        cases same
        exact combine_preserves preserves (given left (by simp)) (given right (by simp)) ran
      · cases run

theorem runSteps_preserves (preserves : m.registry.Preserves ok) (inner : NestedPreserves ok nested)
    (around : AllRows ok outer) :
    ∀ {steps : List PipeStep} {s s' : PipeProgress}, AllRows ok s.scope →
      m.runSteps function nested d outer scratch s steps = .ok s' → AllRows ok s'.scope
  | [], _, _, inside, run => by
    cases run
    exact inside
  | step :: rest, s, s', inside, run => by
    rw [runSteps] at run
    obtain ⟨⟨value, steps⟩, ran, run⟩ := bind_eq_ok.1 run
    have here := runStep_preserves preserves inner inside around ran
    exact runSteps_preserves preserves inner around (inside.insert _ here) run

/-- The induction is on how deep the definitions may be nested. -/
theorem runPipe_preserves (preserves : m.registry.Preserves ok) (around : AllRows ok outer) :
    ∀ levels : Nat, NestedPreserves ok (m.runPipe function outer levels)
  | 0, _, _, _, _, _, _, run => by cases run
  | levels + 1, scratch, id, inputs, value, count, given, run => by
    rw [runPipe] at run
    split at run
    · cases run
    · next d known =>
      split at run
      · cases run
      · obtain ⟨scope, bound, run⟩ := bind_eq_ok.1 run
        obtain ⟨s, ran, run⟩ := bind_eq_ok.1 run
        have all : AllRows ok s.scope :=
          runSteps_preserves preserves (runPipe_preserves preserves around levels) around
            (inputScope_preserves given bound) ran
        split at run
        · next last isLast =>
          cases run
          obtain ⟨id, -, row⟩ := Option.bind_eq_some_iff.1 isLast
          exact all id value row
        · cases run

end pipes

/-! ### Nodes -/

section nodes

variable {p q : Progress}

theorem readRows_preserves {table : ValueTable} (rows : AllRows ok table) {ids : List ValueId}
    {values : List Value} (run : readRows table ids = .ok values) : ∀ value ∈ values, ok value := by
  intro value isValue
  obtain ⟨id, -, read⟩ := exists_of_mem_right (forall₂_of_mapM run) isValue
  exact rows.readRow read

theorem runFunction_preserves (preserves : m.registry.Preserves ok) {id : FunctionId}
    {entry : FunctionEntry} (rows : AllRows ok p.table) (run : m.runFunction id entry p = .ok q) :
    AllRows ok q.table := by
  cases entry with
  | cond definition returns => cases run
  | combine definition args returns =>
    unfold runFunction at run
    dsimp only at run
    split at run
    · cases run
    · obtain ⟨values, read, run⟩ := bind_eq_ok.1 run
      have given := readRows_preserves rows read
      split at run
      · next left right =>
        obtain ⟨value, ran, same⟩ := bind_eq_ok.1 run
        cases same
        exact rows.insert returns
          (combine_preserves preserves (given left (by simp)) (given right (by simp)) ran)
      · cases run
  | pipe definition args returns =>
    unfold runFunction at run
    obtain ⟨values, read, run⟩ := bind_eq_ok.1 run
    obtain ⟨⟨value, steps⟩, ran, same⟩ := bind_eq_ok.1 run
    cases same
    have given := readRows_preserves rows read
    refine rows.insert returns (runPipe_preserves preserves rows _ (fun binding isInput => ?_) ran)
    exact given binding.2 (List.of_mem_zip isInput).2

theorem runChosen_preserves {id : FunctionId} {returns : ValueId} {branch : Tree}
    (runs : ∀ {r}, m.runTree branch p = .ok r → AllRows ok r.table)
    (run : m.runChosen id returns branch p = .ok q) : AllRows ok q.table := by
  obtain ⟨r, ran, run⟩ := bind_eq_ok.1 run
  obtain ⟨value, read, same⟩ := bind_eq_ok.1 run
  cases same
  exact (runs ran).insert returns ((runs ran).readRow read)

mutual

theorem runTree_preserves (preserves : m.registry.Preserves ok) : ∀ {tree : Tree} {p q : Progress},
    AllRows ok p.table → m.runTree tree p = .ok q → AllRows ok q.table
  | .value id, p, q, rows, run => by
    rw [runTree] at run
    split at run
    · cases run
      exact rows
    · cases run
  | .function id entry children, p, q, rows, run => by
    rw [runTree] at run
    split at run
    · cases run
      exact rows
    · obtain ⟨r, ran, run⟩ := bind_eq_ok.1 run
      exact runFunction_preserves preserves (runTrees_preserves preserves rows ran) run
  | .cond id returns condition thenBranch elseBranch, p, q, rows, run => by
    rw [runTree] at run
    split at run
    · cases run
      exact rows
    · obtain ⟨r, ran, run⟩ := bind_eq_ok.1 run
      obtain ⟨flag, -, run⟩ := bind_eq_ok.1 run
      have before := runTree_preserves preserves rows ran
      split at run
      · cases run
      · exact runChosen_preserves (fun ran => runTree_preserves preserves before ran) run
      · exact runChosen_preserves (fun ran => runTree_preserves preserves before ran) run

theorem runTrees_preserves (preserves : m.registry.Preserves ok) :
    ∀ {trees : List Tree} {p q : Progress},
      AllRows ok p.table → m.runTrees trees p = .ok q → AllRows ok q.table
  | [], p, q, rows, run => by
    rw [runTrees] at run
    cases run
    exact rows
  | tree :: rest, p, q, rows, run => by
    rw [runTrees] at run
    obtain ⟨r, ran, run⟩ := bind_eq_ok.1 run
    exact runTrees_preserves preserves (runTree_preserves preserves rows ran) run

end

/-- If all rows of a graph have the property, so do all rows of the table that an evaluation gives. -/
theorem evaluate_preserves (preserves : m.registry.Preserves ok) (rows : AllRows ok m.context.values)
    {root : Node} {session : Nat} {evaluation : Evaluation}
    (run : m.evaluate root session = .ok evaluation) :
    ok evaluation.value ∧ AllRows ok evaluation.values := by
  unfold evaluate at run
  split at run
  · next plan planned =>
    obtain ⟨p, ran, run⟩ := bind_eq_ok.1 run
    obtain ⟨value, read, same⟩ := bind_eq_ok.1 run
    cases same
    have after : AllRows ok p.table := runTree_preserves preserves rows ran
    exact ⟨after.readRow read, after⟩
  · cases run

end nodes

end Evaluator

/-! ### Element types -/

namespace Context

/-- If all rows of a graph are well declared, so are all rows of the table that an evaluation gives,
whatever the graph makes of its arrays. -/
theorem evaluate_wellDeclared {c : Context}
    (declared : ∀ (id : ValueId) (value : Value), c.values[id]? = some value → value.WellDeclared)
    {root : Node} {session : Nat} {evaluation : Evaluation}
    (run : c.evaluate .standard root session = .ok evaluation) :
    evaluation.value.WellDeclared ∧
      ∀ (id : ValueId) (value : Value), evaluation.values[id]? = some value → value.WellDeclared :=
  Evaluator.evaluate_preserves (m := ⟨c, .standard, false⟩) Registry.preserves_wellDeclared declared run

namespace Notepad

def words : ValueId := ⟨"v:words", by decide⟩
def blank : ValueId := ⟨"v:blank", by decide⟩
def mark : ValueId := ⟨"v:mark", by decide⟩
def joined : ValueId := ⟨"v:joined", by decide⟩
def marked : ValueId := ⟨"v:marked", by decide⟩
def former : ValueId := ⟨"v:former", by decide⟩
def latter : ValueId := ⟨"v:latter", by decide⟩
def concat : CombineId := ⟨"cd:concat", by decide⟩
def append : CombineId := ⟨"cd:append", by decide⟩
def join : FunctionId := ⟨"f:join", by decide⟩
def put : FunctionId := ⟨"f:put", by decide⟩

end Notepad

open Notepad in
/-- Texts, an array of numbers without a number in it, and a truth value that is put at their end. -/
def notepad : Context :=
  empty.insertCombine concat ⟨"array::concat", ⟨former, "array::pass"⟩, ⟨latter, "array::pass"⟩⟩
    |>.insertCombine append ⟨"array::append", ⟨former, "array::pass"⟩, ⟨latter, "generic::pass"⟩⟩
    |>.insertFunction join (.combine concat (.ofList [("a", words), ("b", blank)]) joined)
    |>.insertFunction put (.combine append (.ofList [("a", joined), ("b", mark)]) marked)
    |>.insertValue words (.array [.string "x", .string "y"])
    |>.insertValue blank (.arrayOf .number [])
    |>.insertValue mark (.boolean true)

open Notepad in
/-- The texts keep their element type behind the empty array, and lose it before a truth value. -/
theorem evaluate_wellDeclared_notepad :
    (∀ (id : ValueId) (value : Value), notepad.values[id]? = some value → value.WellDeclared) ∧
    ∃ evaluation, notepad.evaluate .standard (.function put) 3 = .ok evaluation ∧
      evaluation.values[joined]?.map (·.element) = some (some .string) ∧
      evaluation.value.element = none ∧
      ∀ (id : ValueId) (value : Value), evaluation.values[id]? = some value → value.WellDeclared := by
  have noItems : (Value.arrayOf .number []).WellDeclared := Or.inl rfl
  have declared : Evaluator.AllRows Value.WellDeclared notepad.values :=
    ((Evaluator.allRows_empty.insert words (Value.wellDeclared_array _)).insert blank noItems).insert
      mark (Value.wellDeclared_ofRaw _)
  have holds : ((notepad.evaluate .standard (.function put) 3).toOption.any fun evaluation =>
      evaluation.values[joined]?.map (·.element) == some (some .string) &&
        evaluation.value.element == none) = true := by
    decide +kernel
  obtain ⟨evaluation, evaluated, holds⟩ := (Option.any_eq_true _ _).1 holds
  rw [Bool.and_eq_true, beq_iff_eq, beq_iff_eq] at holds
  have run := Result.eq_ok_of_toOption evaluated
  exact ⟨declared, evaluation, run, holds.1, holds.2, (evaluate_wellDeclared declared run).2⟩

end Context

end TagFlow
