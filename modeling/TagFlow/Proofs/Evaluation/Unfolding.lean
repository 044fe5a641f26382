import Mathlib.Logic.Relation
import TagFlow.Evaluation.Plan
import TagFlow.Proofs.Graph.Producers

/-!
# Plans are unfoldings

A tree *unfolds* a graph if below each of its nodes stands what the graph says the node depends on:
a value that a function writes is that function, a combine or pipe has the suppliers of its
arguments below it, a cond its condition and both branches. `Plan.build_spec` says that a plan that
is built unfolds the graph below the root, and that building fails only on a cycle or at a node that
is reachable and lacks its entry or its definition.
-/

namespace TagFlow

namespace Context

/-- One node depends on another directly. -/
inductive DependsOn (c : Context) : Node → Node → Prop
  | producer {value function} : c.producerOf? value = some function →
      c.DependsOn (.value value) (.function function)
  | argument {function entry value} : c.functions[function]? = some entry →
      value ∈ entry.args.values → c.DependsOn (.function function) (.value value)
  | condition {function definition returns d} :
      c.functions[function]? = some (.cond definition returns) → c.conds[definition]? = some d →
      c.DependsOn (.function function) d.condition
  | thenBranch {function definition returns d} :
      c.functions[function]? = some (.cond definition returns) → c.conds[definition]? = some d →
      c.DependsOn (.function function) (.function d.thenBranch)
  | elseBranch {function definition returns d} :
      c.functions[function]? = some (.cond definition returns) → c.conds[definition]? = some d →
      c.DependsOn (.function function) (.function d.elseBranch)

/-- One node depends on another directly or through others, or is the other. -/
def Reaches (c : Context) : Node → Node → Prop := Relation.ReflTransGen c.DependsOn

/-- The node that supplies the value of a node: the function that writes it, or else the node
itself. -/
def supplier (c : Context) : Node → Node
  | .value value =>
    match c.producerOf? value with
    | some function => .function function
    | none => .value value
  | .function function => .function function

variable {c : Context}

@[simp] theorem supplier_function (function : FunctionId) :
    c.supplier (.function function) = .function function := rfl

theorem supplier_of_producerOf? {value : ValueId} {function : FunctionId}
    (produced : c.producerOf? value = some function) :
    c.supplier (.value value) = .function function := by
  simp only [supplier, produced]

theorem supplier_of_unproduced {value : ValueId} (unproduced : c.producerOf? value = none) :
    c.supplier (.value value) = .value value := by
  simp only [supplier, unproduced]

end Context

/-- Below each node of the tree stands what the node depends on in the graph. -/
inductive Tree.Unfolds (c : Context) : Tree → Prop
  | value {id} : c.producerOf? id = none → Unfolds c (.value id)
  | function {id entry children} : c.functions[id]? = some entry → entry.kind ≠ .cond →
      children.map Tree.node = entry.args.values.map (fun value => c.supplier (.value value)) →
      (∀ child ∈ children, Unfolds c child) → Unfolds c (.function id entry children)
  | cond {id definition returns d condition thenBranch elseBranch} :
      c.functions[id]? = some (.cond definition returns) → c.conds[definition]? = some d →
      condition.node = c.supplier d.condition → thenBranch.node = .function d.thenBranch →
      elseBranch.node = .function d.elseBranch → Unfolds c condition → Unfolds c thenBranch →
      Unfolds c elseBranch → Unfolds c (.cond id returns condition thenBranch elseBranch)

namespace Tree.Unfolds

variable {c : Context} {tree : Tree} {value : ValueId}

/-- The tree of a value puts its result in the row of that value. -/
theorem output_eq (unfolds : tree.Unfolds c) (exact : c.IndexExact)
    (supplies : tree.node = c.supplier (.value value)) : tree.output = value := by
  cases produced : c.producerOf? value with
  | none =>
    rw [Context.supplier_of_unproduced produced] at supplies
    cases unfolds with
    | value => exact Node.value.inj supplies
    | function => cases supplies
    | cond => cases supplies
  | some function =>
    rw [Context.supplier_of_producerOf? produced] at supplies
    obtain ⟨entry, known, writes⟩ := exact.writes produced
    cases unfolds with
    | value => cases supplies
    | function known' =>
      cases supplies
      rw [known] at known'
      cases known'
      exact writes
    | cond known' =>
      cases supplies
      rw [known] at known'
      cases known'
      exact writes

end Tree.Unfolds

namespace Tree

variable {c : Context} {children : List Tree} {values : List ValueId}

/-- Each argument has a child that supplies it. -/
theorem exists_child_of_value
    (nodes : children.map Tree.node = values.map (fun value => c.supplier (.value value)))
    {value : ValueId} (isArg : value ∈ values) :
    ∃ child ∈ children, child.node = c.supplier (.value value) := by
  have isNode := List.mem_map_of_mem (f := fun value => c.supplier (.value value)) isArg
  rw [← nodes] at isNode
  exact List.mem_map.1 isNode

/-- Each child supplies an argument. -/
theorem exists_value_of_child
    (nodes : children.map Tree.node = values.map (fun value => c.supplier (.value value)))
    {child : Tree} (isChild : child ∈ children) :
    ∃ value ∈ values, child.node = c.supplier (.value value) := by
  have isNode := List.mem_map_of_mem (f := Tree.node) isChild
  rw [nodes] at isNode
  obtain ⟨value, isArg, same⟩ := List.mem_map.1 isNode
  exact ⟨value, isArg, same.symm⟩

end Tree

namespace Plan

variable {α β : Type} {c : Context}

/-! ### What a planner may do -/

/-- From this layout the planner either succeeds with a result and a layout as `ok` says, or fails
with an error as `bad` says. -/
def Meets (planner : Planner α) (layout : Layout) (ok : α → Layout → Prop)
    (bad : ExecError → Prop) : Prop :=
  match planner layout with
  | .ok (a, layout) => ok a layout
  | .error e => bad e

theorem meets_pure {a : α} {layout : Layout} {ok : α → Layout → Prop} {bad : ExecError → Prop}
    (h : ok a layout) : Meets (pure a) layout ok bad := h

theorem meets_throw {e : ExecError} {layout : Layout} {ok : α → Layout → Prop}
    {bad : ExecError → Prop} (h : bad e) : Meets (throw e) layout ok bad := h

theorem meets_bind {planner : Planner α} {next : α → Planner β} {layout : Layout}
    {mid : α → Layout → Prop} {ok : β → Layout → Prop} {bad : ExecError → Prop}
    (first : Meets planner layout mid bad)
    (rest : ∀ a layout, mid a layout → Meets (next a) layout ok bad) :
    Meets (planner >>= next) layout ok bad := by
  unfold Meets at first
  cases h : planner layout with
  | ok result =>
    obtain ⟨a, middle⟩ := result
    rw [h] at first
    have runs : (planner >>= next) layout = next a middle := by
      show Except.bind (planner layout) _ = _
      rw [h]
      rfl
    unfold Meets
    rw [runs]
    exact rest a middle first
  | error e =>
    rw [h] at first
    have fails : (planner >>= next) layout = .error e := by
      show Except.bind (planner layout) _ = _
      rw [h]
      rfl
    unfold Meets
    rw [fails]
    exact first

theorem Meets.mono {planner : Planner α} {layout : Layout} {ok ok' : α → Layout → Prop}
    {bad bad' : ExecError → Prop} (h : Meets planner layout ok bad)
    (good : ∀ a layout, ok a layout → ok' a layout) (fails : ∀ e, bad e → bad' e) :
    Meets planner layout ok' bad' := by
  unfold Meets at h ⊢
  split at h
  · exact good _ _ h
  · exact fails _ h

/-! ### Layouts of a graph -/

/-- All that has been laid out unfolds the graph. -/
def Layout.Unfolds (c : Context) (layout : Layout) : Prop :=
  ∀ node tree, layout.done[node]? = some tree → tree.Unfolds c ∧ tree.node = c.supplier node

/-- Why planning below a node may fail. -/
inductive Failure (c : Context) (root : Node) : ExecError → Prop
  | cycle {path} : Failure c root (.cycle path)
  | entry {function} : c.Reaches root (.function function) → c.functions[function]? = none →
      Failure c root (.missingDependency (.function function))
  | definition {function definition returns} : c.Reaches root (.function function) →
      c.functions[function]? = some (.cond definition returns) → c.conds[definition]? = none →
      Failure c root (.missingDefinition function (.cond definition))

theorem Failure.below {root node : Node} {e : ExecError} (edge : c.DependsOn root node)
    (h : Failure c node e) : Failure c root e := by
  cases h with
  | cycle => exact .cycle
  | entry reaches missing => exact .entry (.head edge reaches) missing
  | definition reaches known missing => exact .definition (.head edge reaches) known missing

/-- A planner lays out a node: it gives a tree that unfolds the graph there. -/
def LaysOut (c : Context) (node : Node) (planner : Planner Tree) : Prop :=
  ∀ layout, layout.Unfolds c →
    Meets planner layout
      (fun tree layout => tree.Unfolds c ∧ tree.node = c.supplier node ∧ layout.Unfolds c)
      (Failure c node)

theorem meets_make {tree : Tree} {layout : Layout} {bad : ExecError → Prop}
    (unfolds : layout.Unfolds c) :
    Meets (make tree) layout (fun made layout => made = tree ∧ layout.Unfolds c) bad :=
  ⟨rfl, unfolds⟩

theorem meets_keep {node : Node} {tree : Tree} {layout : Layout} {bad : ExecError → Prop}
    (unfolds : layout.Unfolds c) (here : tree.Unfolds c ∧ tree.node = c.supplier node) :
    Meets (keep node tree) layout (fun _ layout => layout.Unfolds c) bad := by
  intro other kept h
  have h : (layout.done.insert node tree)[other]? = some kept := h
  rw [Table.getElem?_insert] at h
  split at h
  · next same =>
    cases h
    exact same ▸ here
  · exact unfolds other kept h

/-- Laying out the arguments of a function, one after the other. -/
theorem meets_children {root : Node} {below : Node → Planner Tree} :
    ∀ (values : List ValueId) (layout : Layout), layout.Unfolds c →
      (∀ value ∈ values, c.DependsOn root (.value value)) →
      (∀ value ∈ values, LaysOut c (.value value) (below (.value value))) →
      Meets (values.mapM fun value => below (.value value)) layout
        (fun children layout =>
          children.map Tree.node = values.map (fun value => c.supplier (.value value)) ∧
            (∀ child ∈ children, child.Unfolds c) ∧ layout.Unfolds c)
        (Failure c root)
  | [], layout, unfolds, _, _ => by
    rw [List.mapM_nil]
    exact meets_pure ⟨rfl, by simp, unfolds⟩
  | value :: rest, layout, unfolds, edges, lays => by
    rw [List.mapM_cons]
    refine meets_bind ((lays value List.mem_cons_self layout unfolds).mono (fun _ _ h => h)
      fun e => Failure.below (edges value List.mem_cons_self)) ?_
    rintro tree layout ⟨treeUnfolds, treeNode, unfolds⟩
    refine meets_bind (meets_children rest layout unfolds
      (fun v m => edges v (List.mem_cons_of_mem _ m))
      (fun v m => lays v (List.mem_cons_of_mem _ m))) ?_
    rintro children layout ⟨nodes, childrenUnfold, unfolds⟩
    refine meets_pure ⟨?_, ?_, unfolds⟩
    · rw [List.map_cons, List.map_cons, treeNode, nodes]
    · intro child m
      rcases List.mem_cons.1 m with rfl | m
      · exact treeUnfolds
      · exact childrenUnfold child m

/-! ### The plan of a node -/

/-- If the nodes right below are laid out, so is the node. -/
theorem laysOut_expand {below : Node → Planner Tree} (node : Node)
    (lays : ∀ next, c.DependsOn node next → LaysOut c next (below next)) :
    LaysOut c node (expand c below node) := by
  intro layout unfolds
  unfold expand
  split
  · next value =>
    split
    · next producer produced =>
      -- a value that is produced gets the tree of its producer, under its own name
      have edge := Context.DependsOn.producer produced
      refine (lays _ edge layout unfolds).mono ?_ fun e => Failure.below edge
      rintro tree layout ⟨treeUnfolds, treeNode, unfolds⟩
      exact ⟨treeUnfolds, treeNode.trans (Context.supplier_of_producerOf? produced).symm, unfolds⟩
    · next unproduced =>
      refine (meets_make unfolds).mono ?_ fun _ h => h
      rintro tree layout ⟨rfl, unfolds⟩
      exact ⟨.value unproduced, (Context.supplier_of_unproduced unproduced).symm, unfolds⟩
  · next function =>
    split
    · next missing => exact meets_throw (.entry .refl missing)
    · next definition returns known =>
      split
      · next missing => exact meets_throw (.definition .refl known missing)
      · next d found =>
        have conditionEdge := Context.DependsOn.condition known found
        have thenEdge := Context.DependsOn.thenBranch known found
        have elseEdge := Context.DependsOn.elseBranch known found
        refine meets_bind ((lays _ conditionEdge layout unfolds).mono (fun _ _ h => h)
          fun e => Failure.below conditionEdge) ?_
        rintro condition layout ⟨conditionUnfolds, conditionNode, unfolds⟩
        refine meets_bind ((lays _ thenEdge layout unfolds).mono (fun _ _ h => h)
          fun e => Failure.below thenEdge) ?_
        rintro thenBranch layout ⟨thenUnfolds, thenNode, unfolds⟩
        refine meets_bind ((lays _ elseEdge layout unfolds).mono (fun _ _ h => h)
          fun e => Failure.below elseEdge) ?_
        rintro elseBranch layout ⟨elseUnfolds, elseNode, unfolds⟩
        refine (meets_make unfolds).mono ?_ fun _ h => h
        rintro tree layout ⟨rfl, unfolds⟩
        exact ⟨.cond known found conditionNode thenNode elseNode conditionUnfolds thenUnfolds
          elseUnfolds, rfl, unfolds⟩
    · next entry isArgs known =>
      have edges : ∀ value ∈ entry.args.values,
          c.DependsOn (.function function) (.value value) :=
        fun value m => .argument known m
      refine meets_bind (meets_children entry.args.values layout unfolds edges
        fun value m => lays _ (edges value m)) ?_
      rintro children layout ⟨nodes, childrenUnfold, unfolds⟩
      refine (meets_make unfolds).mono ?_ fun _ h => h
      rintro tree layout ⟨rfl, unfolds⟩
      refine ⟨.function known ?_ nodes childrenUnfold, rfl, unfolds⟩
      cases entry with
      | combine => simp [FunctionEntry.kind]
      | pipe => simp [FunctionEntry.kind]
      | cond definition returns => exact absurd rfl (isArgs definition returns)

theorem laysOut_layOut :
    ∀ (levels : Nat) (opened : Opened) (node : Node), LaysOut c node (layOut c levels opened node)
  | 0, opened, node => fun _ _ => meets_throw .cycle
  | levels + 1, opened, node => by
    intro layout unfolds
    unfold layOut
    have current : Meets (get : Planner Layout) layout (fun l l' => l = layout ∧ l' = layout)
        (Failure c node) := ⟨rfl, rfl⟩
    apply meets_bind current
    rintro _ _ ⟨rfl, rfl⟩
    split
    · next tree done =>
      -- laid out before, so the layout already says that it unfolds the graph
      exact meets_pure ⟨(unfolds node tree done).1, (unfolds node tree done).2, unfolds⟩
    · split
      · exact meets_throw .cycle
      · refine meets_bind (laysOut_expand node
          (fun next _ => laysOut_layOut levels (opened.enter node) next) _ unfolds) ?_
        rintro tree layout ⟨treeUnfolds, treeNode, unfolds⟩
        apply meets_bind (meets_keep unfolds ⟨treeUnfolds, treeNode⟩)
        intro _ layout unfolds
        exact meets_pure ⟨treeUnfolds, treeNode, unfolds⟩

/-- A plan that is built unfolds the graph below the root; otherwise there is a cycle, or a node that
is reachable from the root lacks its entry or its definition. -/
theorem build_spec (c : Context) (root : Node) :
    match build c root with
    | .ok plan => plan.tree.Unfolds c ∧ plan.tree.node = c.supplier root
    | .error e => Failure c root e := by
  have nothing : Layout.Unfolds c ⟨∅, 0⟩ := fun node tree h =>
    absurd (Std.ExtTreeMap.getElem?_empty.symm.trans h) (by simp)
  have meets := laysOut_layOut (c := c) (depthBound c) .none root ⟨∅, 0⟩ nothing
  unfold Meets at meets
  unfold build
  cases h : layOut c (depthBound c) .none root ⟨∅, 0⟩ with
  | ok result =>
    rw [h] at meets
    simp only [StateT.run, h]
    exact ⟨meets.1, meets.2.1⟩
  | error e =>
    rw [h] at meets
    simp only [StateT.run, h]
    exact meets

end Plan

end TagFlow
