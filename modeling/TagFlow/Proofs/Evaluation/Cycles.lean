import Mathlib.Data.List.Chain
import Mathlib.Data.List.TakeWhile
import TagFlow.Proofs.Evaluation.Unfolding

/-!
# Cycles are found exactly

A plan exists just where the dependencies below the root end: no node that is reachable from the root
depends on itself, and nothing reachable is missing (`Plan.build_exact`). A cycle that is reported is
one, without detours, and can be reached from the root.

One direction rests on trees: where a node has a tree, the dependencies below it are well founded
(`Tree.Unfolds.acc`). The other follows the search: the open nodes are a path from the root
(`Plan.Trail`), so a node that is met again closes a circle; and they are all different nodes that
depend on something, of which there are fewer than the levels that the search is given.
-/

namespace TagFlow

namespace Context

/-- No node below the root depends on itself, directly or through others. -/
def AcyclicBelow (c : Context) (root : Node) : Prop :=
  ∀ node, c.Reaches root node → ¬ Relation.TransGen c.DependsOn node node

/-- Functions below the root are in the table, and conds among them have their definitions. -/
structure CompleteBelow (c : Context) (root : Node) : Prop where
  entry : ∀ {function : FunctionId}, c.Reaches root (.function function) →
    ∃ entry, c.functions[function]? = some entry
  definition : ∀ {function : FunctionId} {definition : CondId} {returns : ValueId},
    c.Reaches root (.function function) →
    c.functions[function]? = some (.cond definition returns) → ∃ d, c.conds[definition]? = some d

/-- A circle of dependencies below the root: it ends where it starts, and passes every other node
once. -/
structure Circle (c : Context) (root : Node) (path : List Node) : Prop where
  closed : path.head? = path.getLast?
  long : 2 ≤ path.length
  distinct : path.dropLast.Nodup
  linked : path.IsChain c.DependsOn
  reached : ∀ node ∈ path, c.Reaches root node

variable {c : Context}

/-! ### Dependencies that end -/

/-- If the dependencies of what supplies a node end, so do those of the node. -/
theorem acc_of_supplier {node : Node}
    (ends : Acc (fun next node => c.DependsOn node next) (c.supplier node)) :
    Acc (fun next node => c.DependsOn node next) node := by
  cases node with
  | function id => exact ends
  | value id =>
    apply Acc.intro
    intro next edge
    cases edge with
    | producer produced => rwa [supplier_of_producerOf? produced] at ends

/-- What depends on itself has dependencies without end. -/
theorem not_transGen_of_acc {node : Node}
    (ends : Acc (fun next node => c.DependsOn node next) node) :
    ¬ Relation.TransGen c.DependsOn node node := by
  induction ends with
  | intro node _ ih =>
    intro circle
    -- turn the circle so that it starts at the next node
    obtain ⟨next, edge, back⟩ := Relation.TransGen.head'_iff.1 circle
    exact ih next edge (Relation.TransGen.tail' back edge)

theorem acyclicBelow_of_acc {root : Node}
    (ends : Acc (fun next node => c.DependsOn node next) root) : c.AcyclicBelow root := by
  intro node reaches
  apply not_transGen_of_acc
  induction reaches with
  | refl => exact ends
  | tail _ edge ih => exact ih.inv edge

end Context

/-! ### Trees -/

namespace Tree

/-- The trees right below the root. -/
def children : Tree → List Tree
  | value _ => []
  | function _ _ children => children
  | cond _ _ condition thenBranch elseBranch => [condition, thenBranch, elseBranch]

namespace Unfolds

variable {c : Context} {tree : Tree} {node next : Node}

theorem child (unfolds : tree.Unfolds c) : ∀ child ∈ tree.children, child.Unfolds c := by
  intro child isChild
  cases unfolds with
  | value => cases isChild
  | function _ _ _ below => exact below child isChild
  | cond _ _ _ _ _ condition thenBranch elseBranch =>
    simp only [children, List.mem_cons, List.not_mem_nil, or_false] at isChild
    rcases isChild with rfl | rfl | rfl
    · exact condition
    · exact thenBranch
    · exact elseBranch

/-- Whatever a function depends on has its tree right below that of the function. -/
theorem exists_child {id : FunctionId} (unfolds : tree.Unfolds c)
    (here : tree.node = .function id) (edge : c.DependsOn (.function id) next) :
    ∃ child ∈ tree.children, child.node = c.supplier next := by
  cases unfolds with
  | value => cases here
  | @function _ entry _ known isArgs nodes =>
    cases here
    have noCond : ∀ {definition returns}, c.functions[id]? ≠ some (.cond definition returns) := by
      intro definition returns isCond
      cases known.symm.trans isCond
      exact isArgs rfl
    cases edge with
    | argument known' isArg =>
      cases known.symm.trans known'
      exact exists_child_of_value nodes isArg
    | condition known' => exact absurd known' noCond
    | thenBranch known' => exact absurd known' noCond
    | elseBranch known' => exact absurd known' noCond
  | cond known found conditionNode thenNode elseNode =>
    cases here
    cases edge with
    | argument known' isArg =>
      cases known.symm.trans known'
      cases isArg
    | condition known' found' =>
      cases known.symm.trans known'
      cases found.symm.trans found'
      exact ⟨_, by simp [children], conditionNode⟩
    | thenBranch known' found' =>
      cases known.symm.trans known'
      cases found.symm.trans found'
      exact ⟨_, by simp [children], thenNode⟩
    | elseBranch known' found' =>
      cases known.symm.trans known'
      cases found.symm.trans found'
      exact ⟨_, by simp [children], elseNode⟩

/-- The dependencies of a function end if those of all that stands right below its tree do. -/
theorem acc_function {id : FunctionId} (unfolds : tree.Unfolds c) (here : tree.node = .function id)
    (below : ∀ child ∈ tree.children, ∀ next, child.node = c.supplier next →
      Acc (fun next node => c.DependsOn node next) next) :
    Acc (fun next node => c.DependsOn node next) (.function id) := by
  apply Acc.intro
  intro next edge
  obtain ⟨child, isChild, same⟩ := unfolds.exists_child here edge
  exact below child isChild next same

/-- Where a node has a tree, its dependencies end. -/
theorem acc (unfolds : tree.Unfolds c) : ∀ node, tree.node = c.supplier node →
    Acc (fun next node => c.DependsOn node next) node := by
  induction unfolds with
  | @value id unproduced =>
    intro node here
    apply Context.acc_of_supplier
    rw [← here]
    apply Acc.intro
    intro next edge
    cases edge with
    | producer produced =>
      rw [unproduced] at produced
      cases produced
  | @function id entry children known isArgs nodes below ih =>
    intro node here
    apply Context.acc_of_supplier
    rw [← here]
    exact acc_function (.function known isArgs nodes below) rfl ih
  | cond known found conditionNode thenNode elseNode condition thenBranch elseBranch ihCondition
      ihThen ihElse =>
    intro node here
    apply Context.acc_of_supplier
    rw [← here]
    apply acc_function (.cond known found conditionNode thenNode elseNode condition thenBranch
      elseBranch) rfl
    intro child isChild
    simp only [children, List.mem_cons, List.not_mem_nil, or_false] at isChild
    rcases isChild with rfl | rfl | rfl
    · exact ihCondition
    · exact ihThen
    · exact ihElse

/-- Where a node has a tree, so has every node that it depends on. -/
theorem dependsOn (unfolds : tree.Unfolds c) (here : tree.node = c.supplier node)
    (edge : c.DependsOn node next) : ∃ other : Tree, other.Unfolds c ∧
      other.node = c.supplier next := by
  cases node with
  | value id =>
    cases edge with
    | producer produced =>
      exact ⟨tree, unfolds, here.trans (Context.supplier_of_producerOf? produced)⟩
  | function id =>
    obtain ⟨child, isChild, same⟩ := unfolds.exists_child here edge
    exact ⟨child, unfolds.child child isChild, same⟩

theorem reaches (unfolds : tree.Unfolds c) (here : tree.node = c.supplier node)
    (path : c.Reaches node next) : ∃ other : Tree, other.Unfolds c ∧
      other.node = c.supplier next := by
  induction path with
  | refl => exact ⟨tree, unfolds, here⟩
  | tail _ edge ih =>
    obtain ⟨other, unfolds, here⟩ := ih
    exact unfolds.dependsOn here edge

/-- Where a node has a tree, nothing below it is missing. -/
theorem completeBelow (unfolds : tree.Unfolds c) (here : tree.node = c.supplier node) :
    c.CompleteBelow node where
  entry path := by
    obtain ⟨other, unfolds, same⟩ := unfolds.reaches here path
    cases unfolds with
    | value => cases same
    | function known =>
      cases same
      exact ⟨_, known⟩
    | cond known =>
      cases same
      exact ⟨_, known⟩
  definition path known := by
    obtain ⟨other, unfolds, same⟩ := unfolds.reaches here path
    cases unfolds with
    | value => cases same
    | function known' isArgs =>
      cases same
      cases known.symm.trans known'
      exact absurd rfl isArgs
    | cond known' found =>
      cases same
      cases known.symm.trans known'
      exact ⟨_, found⟩

end Unfolds

end Tree

namespace Plan

variable {c : Context} {root node : Node} {opened path : List Node} {layout : Layout}

/-! ### The open nodes -/

/-- The open nodes, the innermost first, are a path without repetition from the root to a node. -/
inductive Trail (c : Context) (root : Node) : List Node → Node → Prop
  | start : Trail c root [] root
  | step {opened node next} : Trail c root opened node → node ∉ opened → c.DependsOn node next →
      Trail c root (node :: opened) next

namespace Trail

theorem nodup (trail : Trail c root opened node) : opened.Nodup := by
  induction trail with
  | start => exact List.nodup_nil
  | step _ new _ ih => exact List.nodup_cons.2 ⟨new, ih⟩

theorem linked (trail : Trail c root opened node) :
    (node :: opened).IsChain fun next node => c.DependsOn node next := by
  induction trail with
  | start => exact .singleton _
  | step _ _ edge ih => exact .cons_cons edge ih

theorem reached (trail : Trail c root opened node) :
    ∀ other ∈ node :: opened, c.Reaches root other := by
  induction trail with
  | start =>
    intro other isOpen
    rw [List.mem_singleton.1 isOpen]
    exact .refl
  | step _ _ edge ih =>
    intro other isOpen
    rcases List.mem_cons.1 isOpen with rfl | isOpen
    · exact (ih _ List.mem_cons_self).tail edge
    · exact ih other isOpen

theorem exists_dependsOn (trail : Trail c root opened node) :
    ∀ other ∈ opened, ∃ next, c.DependsOn other next := by
  induction trail with
  | start =>
    intro other isOpen
    cases isOpen
  | step _ _ edge ih =>
    intro other isOpen
    rcases List.mem_cons.1 isOpen with rfl | isOpen
    · exact ⟨_, edge⟩
    · exact ih other isOpen

/-- An open node is a function of the table or a value with a producer, so no more can be open than
there are of those. -/
theorem length_lt (trail : Trail c root opened node) : opened.length < depthBound c := by
  have split : ∀ nodes : List Node, nodes.length =
      (nodes.filterMap Node.asFunction?).length + (nodes.filterMap Node.asValue?).length := by
    intro nodes
    induction nodes with
    | nil => rfl
    | cons node nodes ih =>
      cases node <;> simp only [List.filterMap_cons, Node.asFunction?, Node.asValue?,
        List.length_cons, ih] <;> omega
  have functions : (opened.filterMap Node.asFunction?).length ≤ c.functions.size := by
    apply Table.length_le_size
    · apply trail.nodup.filterMap
      rintro (_ | id) (_ | id') function ⟨⟩ ⟨⟩
      rfl
    · intro function isOpen
      obtain ⟨other, isOpen, same⟩ := List.mem_filterMap.1 isOpen
      obtain ⟨next, edge⟩ := trail.exists_dependsOn other isOpen
      cases other with
      | value id => cases same
      | function id =>
        cases same
        cases edge with
        | argument known | condition known | thenBranch known | elseBranch known =>
          exact ⟨_, known⟩
  have values : (opened.filterMap Node.asValue?).length ≤ c.producers.size := by
    apply Table.length_le_size
    · apply trail.nodup.filterMap
      rintro (id | _) (id' | _) value ⟨⟩ ⟨⟩
      rfl
    · intro value isOpen
      obtain ⟨other, isOpen, same⟩ := List.mem_filterMap.1 isOpen
      obtain ⟨next, edge⟩ := trail.exists_dependsOn other isOpen
      cases other with
      | function id => cases same
      | value id =>
        cases same
        cases edge with
        | producer produced => exact ⟨_, produced⟩
  have := split opened
  unfold depthBound
  omega

/-- An open node that is met again closes a circle. -/
theorem circle (trail : Trail c root opened node) (again : node ∈ opened) :
    c.Circle root (cycleThrough node opened) := by
  -- the nodes that were opened since the node was open
  let since := opened.takeWhile (· != node)
  obtain ⟨before, split⟩ : ∃ before, opened = since ++ node :: before := by
    have rest : opened.dropWhile (· != node) ≠ [] := by
      intro all
      have := List.dropWhile_eq_nil_iff.1 all node again
      simp at this
    obtain ⟨first, before, same⟩ := List.exists_cons_of_ne_nil rest
    have stops := List.head_dropWhile_not (· != node) rest
    simp only [same, List.head_cons, bne_eq_false_iff_eq] at stops
    refine ⟨before, ?_⟩
    rw [← stops, ← same, List.takeWhile_append_dropWhile]
  have path : cycleThrough node opened = node :: since.reverse ++ [node] := rfl
  have nodup := trail.nodup
  rw [split] at nodup
  have apart : node ∉ since := fun isSince =>
    (List.nodup_append.1 nodup).2.2 node isSince node List.mem_cons_self rfl
  rw [path]
  refine ⟨?_, ?_, ?_, ?_, ?_⟩
  · simp [List.getLast?_cons]
  · simp
  · rw [List.dropLast_concat, List.nodup_cons, List.mem_reverse, List.nodup_reverse]
    exact ⟨apart, (List.nodup_append.1 nodup).1⟩
  · have chain := trail.linked
    rw [split, show node :: (since ++ node :: before) = (node :: since ++ [node]) ++ before by simp]
      at chain
    have reversed : node :: since.reverse ++ [node] = (node :: since ++ [node]).reverse := by simp
    rw [reversed, List.isChain_reverse]
    exact chain.left_of_append
  · intro other isPath
    apply trail.reached other
    rw [split]
    simp only [List.mem_append, List.mem_cons, List.mem_reverse, List.not_mem_nil, or_false] at isPath
    rcases isPath with (rfl | isSince) | rfl
    · exact List.mem_cons_self
    · exact List.mem_cons_of_mem _ (List.mem_append_left _ isSince)
    · exact List.mem_cons_self

end Trail

/-! ### Where a cycle is reported -/

section planner

variable {α β : Type} {e e' : ExecError}

/-- From this layout the planner fails with the error. -/
def Fails (planner : Planner α) (layout : Layout) (e : ExecError) : Prop :=
  planner layout = .error e

theorem not_fails_pure {a : α} : ¬ Fails (pure a) layout e := fun fails => nomatch fails

theorem eq_of_fails_throw (fails : Fails (throw e' : Planner α) layout e) : e = e' := by
  cases fails
  rfl

theorem fails_bind {planner : Planner α} {next : α → Planner β}
    (fails : Fails (planner >>= next) layout e) :
    Fails planner layout e ∨ ∃ a layout', Fails (next a) layout' e := by
  have fails : Except.bind (planner layout) (fun result => next result.1 result.2) = .error e :=
    fails
  unfold Fails
  cases ran : planner layout with
  | error other =>
    rw [ran] at fails
    cases fails
    exact .inl rfl
  | ok result =>
    rw [ran] at fails
    exact .inr ⟨result.1, result.2, fails⟩

theorem fails_mapM {f : α → Planner β} : ∀ {items : List α} {layout : Layout},
    Fails (items.mapM f) layout e → ∃ item ∈ items, ∃ layout', Fails (f item) layout' e
  | [], layout, fails => by
    rw [List.mapM_nil] at fails
    exact absurd fails not_fails_pure
  | item :: items, layout, fails => by
    rw [List.mapM_cons] at fails
    rcases fails_bind fails with here | ⟨result, layout', fails⟩
    · exact ⟨item, List.mem_cons_self, layout, here⟩
    · rcases fails_bind fails with later | ⟨results, layout'', fails⟩
      · obtain ⟨other, isItem, there⟩ := fails_mapM later
        exact ⟨other, List.mem_cons_of_mem _ isItem, there⟩
      · exact absurd fails not_fails_pure

theorem not_fails_make {tree : Tree} : ¬ Fails (make tree) layout e := fun fails => nomatch fails

end planner

/-- A cycle is not found at the node that is laid out, but by a node that it depends on. -/
theorem exists_of_fails_expand {below : Node → Planner Tree}
    (fails : Fails (expand c below node) layout (.cycle path)) :
    ∃ next layout', c.DependsOn node next ∧ Fails (below next) layout' (.cycle path) := by
  unfold expand at fails
  split at fails
  · next value =>
    split at fails
    · next producer produced => exact ⟨_, _, .producer produced, fails⟩
    · exact absurd fails not_fails_make
  · next function =>
    split at fails
    · cases eq_of_fails_throw fails
    · next definition returns known =>
      split at fails
      · cases eq_of_fails_throw fails
      · next d found =>
        rcases fails_bind fails with fails | ⟨_, _, fails⟩
        · exact ⟨_, _, .condition known found, fails⟩
        rcases fails_bind fails with fails | ⟨_, _, fails⟩
        · exact ⟨_, _, .thenBranch known found, fails⟩
        rcases fails_bind fails with fails | ⟨_, _, fails⟩
        · exact ⟨_, _, .elseBranch known found, fails⟩
        · exact absurd fails not_fails_make
    · next entry isArgs known =>
      rcases fails_bind fails with fails | ⟨_, _, fails⟩
      · obtain ⟨value, isArg, layout', fails⟩ := fails_mapM fails
        exact ⟨_, layout', .argument known isArg, fails⟩
      · exact absurd fails not_fails_make

/-- A cycle that is reported while the nodes of a trail are open is a circle below the root. -/
theorem circle_of_layOut : ∀ (levels : Nat) {opened : Opened} {node : Node} {layout : Layout},
    Trail c root opened.path node → opened.path.length + levels = depthBound c →
    Fails (layOut c levels opened node) layout (.cycle path) → c.Circle root path
  | 0, opened, node, layout, trail, count, _ => by
    -- the levels do not run out before the nodes do
    have := trail.length_lt
    omega
  | levels + 1, opened, node, layout, trail, count, fails => by
    unfold layOut at fails
    rcases fails_bind fails with fails | ⟨current, layout₁, fails⟩
    · cases fails
    split at fails
    · exact absurd fails not_fails_pure
    · split at fails
      · next again =>
        cases eq_of_fails_throw fails
        exact trail.circle ((opened.inStep node).1 again)
      · next new =>
        rcases fails_bind fails with fails | ⟨tree, layout₂, fails⟩
        · obtain ⟨next, layout₃, edge, fails⟩ := exists_of_fails_expand fails
          have count' : (opened.enter node).path.length + levels = depthBound c := by
            show (node :: opened.path).length + levels = _
            rw [List.length_cons]
            omega
          have trail' : Trail c root (opened.enter node).path next :=
            trail.step (fun isOpen => new ((opened.inStep node).2 isOpen)) edge
          exact circle_of_layOut levels trail' count' fails
        · rcases fails_bind fails with fails | ⟨_, _, fails⟩
          · cases fails
          · exact absurd fails not_fails_pure

theorem circle_of_build (fails : build c root = .error (.cycle path)) : c.Circle root path := by
  have failed : Fails (layOut c (depthBound c) .none root) ⟨∅, 0⟩ (.cycle path) := by
    unfold Fails
    unfold build at fails
    cases ran : layOut c (depthBound c) .none root ⟨∅, 0⟩ with
    | ok result =>
      simp only [StateT.run, ran] at fails
      cases fails
    | error e =>
      simp only [StateT.run, ran] at fails
      cases fails
      rfl
  exact circle_of_layOut (depthBound c) .start (Nat.zero_add _) failed

/-! ### Plans -/

/-- A circle below the root passes a node that depends on itself. -/
theorem not_acyclicBelow_of_circle (circle : c.Circle root path) : ¬ c.AcyclicBelow root := by
  intro acyclic
  have linked := circle.linked
  match path, circle.long with
  | first :: next :: rest, _ =>
    have last : (next :: rest).getLast (List.cons_ne_nil _ _) = first := by
      have closed := circle.closed
      rw [List.getLast?_cons_cons, List.getLast?_eq_some_getLast (List.cons_ne_nil _ _)] at closed
      exact (Option.some.inj closed).symm
    obtain ⟨edge, linked⟩ := List.isChain_cons_cons.1 linked
    have back : c.Reaches next first :=
      List.relationReflTransGen_of_exists_isChain_cons rest linked last
    exact acyclic first (circle.reached first List.mem_cons_self) (Relation.TransGen.head' edge back)

/-- Where no cycle and no gap is below the root, there is a plan. -/
theorem exists_build (acyclic : c.AcyclicBelow root) (complete : c.CompleteBelow root) :
    ∃ plan, build c root = .ok plan := by
  have spec := build_spec c root
  cases result : build c root with
  | ok plan => exact ⟨plan, rfl⟩
  | error e =>
    rw [result] at spec
    cases spec with
    | cycle => exact absurd acyclic (not_acyclicBelow_of_circle (circle_of_build result))
    | entry reaches missing =>
      obtain ⟨entry, known⟩ := complete.entry reaches
      cases missing.symm.trans known
    | definition reaches known missing =>
      obtain ⟨d, found⟩ := complete.definition reaches known
      cases missing.symm.trans found

/-- A plan is built just where no cycle and no gap is below the root. Otherwise the error shows one: a
circle of dependencies below the root, or a function there without an entry or without its
definition. -/
theorem build_exact (c : Context) (root : Node) :
    ((∃ plan, build c root = .ok plan) ↔ c.AcyclicBelow root ∧ c.CompleteBelow root) ∧
    ∀ e, build c root = .error e →
      (∃ path, e = .cycle path ∧ c.Circle root path) ∨
      (∃ function, e = .missingDependency (.function function) ∧
        c.Reaches root (.function function) ∧ c.functions[function]? = none) ∨
      ∃ function definition returns, e = .missingDefinition function (.cond definition) ∧
        c.Reaches root (.function function) ∧
        c.functions[function]? = some (.cond definition returns) ∧ c.conds[definition]? = none := by
  have spec := build_spec c root
  have errors : ∀ e, build c root = .error e →
      (∃ path, e = .cycle path ∧ c.Circle root path) ∨
      (∃ function, e = .missingDependency (.function function) ∧
        c.Reaches root (.function function) ∧ c.functions[function]? = none) ∨
      ∃ function definition returns, e = .missingDefinition function (.cond definition) ∧
        c.Reaches root (.function function) ∧
        c.functions[function]? = some (.cond definition returns) ∧ c.conds[definition]? = none := by
    intro e failed
    rw [failed] at spec
    cases spec with
    | cycle => exact .inl ⟨_, rfl, circle_of_build failed⟩
    | entry reaches missing => exact .inr (.inl ⟨_, rfl, reaches, missing⟩)
    | definition reaches known missing => exact .inr (.inr ⟨_, _, _, rfl, reaches, known, missing⟩)
  refine ⟨⟨?_, ?_⟩, errors⟩
  · rintro ⟨plan, built⟩
    rw [built] at spec
    obtain ⟨unfolds, here⟩ := spec
    exact ⟨Context.acyclicBelow_of_acc (unfolds.acc root here), unfolds.completeBelow here⟩
  · rintro ⟨acyclic, complete⟩
    exact exists_build acyclic complete

end Plan

end TagFlow
