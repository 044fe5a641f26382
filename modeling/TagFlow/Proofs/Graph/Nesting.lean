import Mathlib.Logic.Relation
import TagFlow.Evaluation.Run
import TagFlow.Proofs.Table

/-!
# Nesting of pipe definitions

One pipe definition nests another if a step of it runs the other. Where no definition nests itself,
directly or through others, the levels that running a pipe is given are enough
(`NestingAcyclic.nestedWithin`): definitions on a chain of nesting are all different, and there are
no more of them than rows in the table.
-/

namespace TagFlow.Context

/-- A step of the one pipe definition runs the other. -/
def Nests (c : Context) (outer inner : PipeId) : Prop :=
  ∃ d, c.pipes[outer]? = some d ∧ ∃ step ∈ d.steps, step.body = .pipe inner

/-- The one pipe definition runs the other, directly or through others, or they are the same. -/
def Encloses (c : Context) : PipeId → PipeId → Prop := Relation.ReflTransGen c.Nests

/-- No pipe definition runs itself, directly or through others. -/
def NestingAcyclic (c : Context) : Prop := ∀ id, ¬ Relation.TransGen c.Nests id id

/-- Running the pipe goes through fewer than so many definitions inside each other. -/
def NestedWithin (c : Context) : (levels : Nat) → PipeId → Prop
  | 0, _ => False
  | levels + 1, id => ∀ inner, c.Nests id inner → c.NestedWithin levels inner

variable {c : Context}

/-- `outers` are the definitions around the given one. -/
theorem NestingAcyclic.nestedWithin_of_outers (acyclic : c.NestingAcyclic) :
    ∀ (levels : Nat) (outers : List PipeId) (id : PipeId), outers.Nodup →
      (∀ outer ∈ outers, ∃ d, c.pipes[outer]? = some d) →
      (∀ outer ∈ outers, Relation.TransGen c.Nests outer id) →
      outers.length + levels = c.pipes.size + 1 → c.NestedWithin levels id
  | 0, outers, id, distinct, present, _, count => by
    -- the outer definitions are all different, and more than the graph has
    have bound := Table.length_le_size distinct present
    omega
  | levels + 1, outers, id, distinct, present, around, count => by
    intro inner nests
    have ⟨d, known, _⟩ := nests
    have fresh : id ∉ outers := fun m => acyclic id (around id m)
    refine acyclic.nestedWithin_of_outers levels (id :: outers) inner
      (List.nodup_cons.2 ⟨fresh, distinct⟩) ?_ ?_ ?_
    · rintro outer m
      rcases List.mem_cons.1 m with rfl | m
      · exact ⟨d, known⟩
      · exact present outer m
    · rintro outer m
      rcases List.mem_cons.1 m with rfl | m
      · exact .single nests
      · exact (around outer m).tail nests
    · simp only [List.length_cons]
      omega

/-- The levels that running a pipe is given are enough. -/
theorem NestingAcyclic.nestedWithin (acyclic : c.NestingAcyclic) (id : PipeId) :
    c.NestedWithin (Evaluator.pipeLevels c) id := by
  refine acyclic.nestedWithin_of_outers (Evaluator.pipeLevels c) [] id List.nodup_nil ?_ ?_ ?_
  · intro outer m
    cases m
  · intro outer m
    cases m
  · simp [Evaluator.pipeLevels]

/-- Nesting is acyclic if along it some number goes down. -/
theorem nestingAcyclic_of_rank (rank : PipeId → Nat)
    (down : ∀ {outer inner}, c.Nests outer inner → rank inner < rank outer) : c.NestingAcyclic := by
  have below : ∀ {outer inner}, Relation.TransGen c.Nests outer inner → rank inner < rank outer := by
    intro outer inner path
    induction path with
    | single nests => exact down nests
    | tail _ nests ih => exact Nat.lt_trans (down nests) ih
  exact fun id path => Nat.lt_irrefl _ (below path)

/-- The same for a graph that is given, as a check of each definition of the table. -/
theorem nestingAcyclic_of_listed (rank : PipeId → Nat)
    (listed : (c.pipes.toList.all fun row => row.2.steps.all fun step =>
      match step.body with
      | .combine _ => true
      | .pipe inner => rank inner < rank row.1) = true) : c.NestingAcyclic := by
  apply nestingAcyclic_of_rank rank
  rintro outer inner ⟨d, known, step, isStep, body⟩
  have steps := List.all_eq_true.1 listed (outer, d) (Table.mem_toList_iff.2 known)
  have below := List.all_eq_true.1 steps step isStep
  rw [body] at below
  exact of_decide_eq_true below

theorem nests_insertPipe {id outer inner : PipeId} {d : PipeDefinition}
    (nests : (c.insertPipe id d).Nests outer inner) :
    c.Nests outer inner ∨ outer = id ∧ ∃ step ∈ d.steps, step.body = .pipe inner := by
  obtain ⟨e, known, runs⟩ := nests
  have known : (c.pipes.insert id d)[outer]? = some e := known
  rw [Table.getElem?_insert] at known
  split at known
  · next same =>
    cases known
    exact .inr ⟨same.symm, runs⟩
  · exact .inl ⟨e, known, runs⟩

/-- A pipe definition that comes after those that it nests makes no circle. -/
theorem NestingAcyclic.insertPipe (acyclic : c.NestingAcyclic) {id : PipeId} {d : PipeDefinition}
    (new : c.pipes[id]? = none)
    (closed : ∀ {outer inner}, c.Nests outer inner → ∃ e, c.pipes[inner]? = some e)
    (nested : ∀ step ∈ d.steps, ∀ inner, step.body = .pipe inner →
      ∃ e, c.pipes[inner]? = some e) : (c.insertPipe id d).NestingAcyclic := by
  have target : ∀ {outer inner}, (c.insertPipe id d).Nests outer inner → inner ≠ id := by
    rintro outer inner nests rfl
    have ⟨e, known⟩ : ∃ e, c.pipes[inner]? = some e := by
      rcases nests_insertPipe nests with old | ⟨-, step, isStep, body⟩
      · exact closed old
      · exact nested step isStep inner body
    rw [new] at known
    cases known
  -- nothing nests the new definition, so a path can only start from it
  have path : ∀ {outer inner}, Relation.TransGen (c.insertPipe id d).Nests outer inner →
      inner ≠ id ∧ (outer = id ∨ Relation.TransGen c.Nests outer inner) := by
    intro outer inner path
    induction path with
    | single nests =>
      rcases nests_insertPipe nests with old | ⟨new, -⟩
      · exact ⟨target nests, .inr (.single old)⟩
      · exact ⟨target nests, .inl new⟩
    | tail _ nests ih =>
      obtain ⟨different, before⟩ := ih
      rcases nests_insertPipe nests with old | ⟨new, -⟩
      · exact ⟨target nests, before.imp_right (·.tail old)⟩
      · exact absurd new different
  intro start circle
  obtain ⟨different, same | old⟩ := path circle
  · exact different same
  · exact acyclic start old

/-! ### An instance

A row, a pipe that nests another, a combine that reads the pipe twice, and a cond on the combine. -/

namespace Diamond

def flag : ValueId := ⟨"v:flag", by decide⟩
def checked : ValueId := ⟨"v:checked", by decide⟩
def both : ValueId := ⟨"v:both", by decide⟩
def chosen : ValueId := ⟨"v:chosen", by decide⟩
def left : ValueId := ⟨"v:left", by decide⟩
def right : ValueId := ⟨"v:right", by decide⟩
def innerSlot : ValueId := ⟨"v:x", by decide⟩
def outerSlot : ValueId := ⟨"v:y", by decide⟩
def output : ValueId := ⟨"v:step", by decide⟩
def check : FunctionId := ⟨"f:check", by decide⟩
def pair : FunctionId := ⟨"f:pair", by decide⟩
def choose : FunctionId := ⟨"f:choose", by decide⟩
def same : CombineId := ⟨"cd:same", by decide⟩
def inner : PipeId := ⟨"pd:inner", by decide⟩
def outer : PipeId := ⟨"pd:outer", by decide⟩
def choice : CondId := ⟨"kd:choice", by decide⟩

def innerPipe : PipeDefinition :=
  ⟨[⟨"x", innerSlot⟩], [⟨.combine same, [("a", .input "x"), ("b", .value flag)], output⟩]⟩

def outerPipe : PipeDefinition :=
  ⟨[⟨"y", outerSlot⟩],
    [⟨.pipe inner, [("x", .input "y")], output⟩,
      ⟨.combine same, [("a", .step 0), ("b", .input "y")], output⟩]⟩

end Diamond

open Diamond in
def diamond : Context :=
  empty.insertValue flag (.boolean true)
    |>.insertCombine same ⟨"generic::equals", ⟨left, "generic::pass"⟩, ⟨right, "boolean::pass"⟩⟩
    |>.insertPipe inner innerPipe
    |>.insertPipe outer outerPipe
    |>.insertCond choice ⟨.value both, check, pair⟩
    |>.insertFunction check (.pipe outer (.ofList [("y", flag)]) checked)
    |>.insertFunction pair (.combine same (.ofList [("a", checked), ("b", checked)]) both)
    |>.insertFunction choose (.cond choice chosen)

namespace Diamond

theorem pipes_cases {id : PipeId} {d : PipeDefinition} (known : diamond.pipes[id]? = some d) :
    id = inner ∧ d = innerPipe ∨ id = outer ∧ d = outerPipe := by
  have listed : diamond.pipes.toList = [(inner, innerPipe), (outer, outerPipe)] := by decide +kernel
  have member := Table.mem_toList_iff.2 known
  rw [listed] at member
  simpa using member

theorem nestingAcyclic : diamond.NestingAcyclic :=
  nestingAcyclic_of_listed (fun id => if id = outer then 1 else 0) (by decide +kernel)

end Diamond

end TagFlow.Context
