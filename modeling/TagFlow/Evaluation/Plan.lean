import TagFlow.Evaluation.Error
import TagFlow.Graph.Context

/-!
# Plans

Before anything is run, the graph below the root is laid out as a tree: a value that a function
writes becomes that function, and every function has what it reads below it. A node that is needed
in several places is laid out once and shared, so a plan counts its *distinct* nodes; a tree that
was written down by hand shares nothing.

A node is *open* while the nodes below it are laid out. Meeting an open node again is a cycle, and
the error carries the nodes of the cycle in order. Since open nodes are distinct, and each of them
is a function of the table or a value with a producer, no more can be open than there are of those;
that bounds the depth of the recursion.
-/

namespace TagFlow

/-- A node of a plan with all that it depends on. -/
inductive Tree where
  /-- A value that is read from the table. -/
  | value (id : ValueId)
  /-- A combine or pipe, with one child for each argument, in order. -/
  | function (id : FunctionId) (entry : FunctionEntry) (children : List Tree)
  /-- A cond. All three children are laid out; two of them are run. -/
  | cond (id : FunctionId) (returns : ValueId) (condition thenBranch elseBranch : Tree)

namespace Tree

/-- The node at the root. -/
def node : Tree → Node
  | value id => .value id
  | function id _ _ => .function id
  | cond id _ _ _ _ => .function id

/-- The function at the root, if it is one. -/
def function? (tree : Tree) : Option FunctionId := tree.node.asFunction?

/-- The row in which the result of the root is found. -/
def output : Tree → ValueId
  | value id => id
  | function _ entry _ => entry.returns
  | cond _ returns _ _ _ => returns

mutual

/-- The number of nodes, each counted as often as it stands in the tree. -/
def size : Tree → Nat
  | value _ => 1
  | function _ _ children => sizes children + 1
  | cond _ _ condition thenBranch elseBranch =>
    size condition + size thenBranch + size elseBranch + 1

def sizes : List Tree → Nat
  | [] => 0
  | tree :: rest => size tree + sizes rest

end

/-! ### Text

One line for each node, two blanks of indentation for each level, and the name under which a node
is an argument in front of it. -/

/-- One line of the text of a tree. -/
def line (depth : Nat) (label content : String) : String :=
  String.ofList (List.replicate (2 * depth) ' ') ++ label ++ content ++ "\n"

/-- The label of an argument. -/
def label (name : String) : String := name ++ ": "

mutual

/-- The lines of a tree at a level. -/
def lines (depth : Nat) (name : String) : Tree → List String
  | value id => [line depth name ("value " ++ id.text)]
  | function id entry children =>
    line depth name (entry.kind.name ++ " " ++ id.text ++ " -> " ++ entry.returns.text) ::
      childLines (depth + 1) entry.args.names children
  | cond id returns condition thenBranch elseBranch =>
    line depth name ("cond " ++ id.text ++ " -> " ++ returns.text) ::
      (lines (depth + 1) (label "if") condition ++
        lines (depth + 1) (label "then") thenBranch ++
        lines (depth + 1) (label "else") elseBranch)

/-- The lines of the children, as far as there are names for them. -/
def childLines (depth : Nat) : List String → List Tree → List String
  | name :: names, tree :: rest => lines depth (label name) tree ++ childLines depth names rest
  | _, _ => []

end

def text (tree : Tree) : String := String.join (lines 0 "" tree)

end Tree

/-- A tree, and how many distinct nodes it has. -/
structure Plan where
  tree : Tree
  distinct : Nat

namespace Plan

/-- A tree as it stands, without shared nodes. -/
def ofTree (tree : Tree) : Plan := ⟨tree, tree.size⟩

/-! ### Laying out a graph -/

/-- What has been laid out so far. -/
structure Layout where
  done : Std.ExtTreeMap Node Tree
  /-- The number of nodes made. -/
  made : Nat

/-- A computation that lays out nodes and may fail. -/
abbrev Planner := StateT Layout (Except ExecError)

/-- Make a node of the plan. -/
def make (tree : Tree) : Planner Tree :=
  modifyGet fun layout => (tree, { layout with made := layout.made + 1 })

/-- Keep what has been laid out for a node. -/
def keep (node : Node) (tree : Tree) : Planner Unit :=
  modify fun layout => { layout with done := layout.done.insert node tree }

/-- The nodes that are open: as a set, to meet them again, and in order, to report a cycle. -/
structure Opened where
  visiting : Std.ExtTreeSet Node
  /-- From the innermost to the outermost. -/
  path : List Node
  inStep : ∀ node, node ∈ visiting ↔ node ∈ path

namespace Opened

def none : Opened := ⟨∅, [], fun node => by simp [Std.ExtTreeSet.not_mem_empty]⟩

/-- Open one more node. -/
def enter (opened : Opened) (node : Node) : Opened where
  visiting := opened.visiting.insert node
  path := node :: opened.path
  inStep other := by
    rw [Std.ExtTreeSet.mem_insert, opened.inStep, List.mem_cons, Std.LawfulEqCmp.compare_eq_iff_eq,
      eq_comm]

end Opened

/-- The cycle that closes when a node is met again while the given nodes are open, the innermost
first. -/
def cycleThrough (node : Node) (path : List Node) : List Node :=
  node :: (path.takeWhile (· != node)).reverse ++ [node]

/-- Lay out a node, given how to lay out the nodes right below it. -/
def expand (c : Context) (below : Node → Planner Tree) : Node → Planner Tree
  | .value id =>
    match c.producerOf? id with
    | some producer => below (.function producer)
    | none => make (.value id)
  | .function id =>
    match c.functions[id]? with
    | none => throw (.missingDependency (.function id))
    | some (.cond definition returns) =>
      match c.conds[definition]? with
      | none => throw (.missingDefinition id (.cond definition))
      | some d => do
        let condition ← below d.condition
        let thenBranch ← below (.function d.thenBranch)
        let elseBranch ← below (.function d.elseBranch)
        make (.cond id returns condition thenBranch elseBranch)
    | some entry => do
      let children ← entry.args.values.mapM fun value => below (.value value)
      make (.function id entry children)

/-- Lay out a node below the open ones, at most so many levels deep. -/
def layOut (c : Context) : (levels : Nat) → Opened → Node → Planner Tree
  | 0, opened, node => throw (.cycle (cycleThrough node opened.path))
  | levels + 1, opened, node => do
    match (← get).done[node]? with
    | some tree => return tree
    | none =>
      if node ∈ opened.visiting then throw (.cycle (cycleThrough node opened.path))
      else
        let tree ← expand c (layOut c levels (opened.enter node)) node
        keep node tree
        return tree

/-- More nodes than this cannot be open at once. -/
def depthBound (c : Context) : Nat := c.functions.size + c.producers.size + 1

/-- The plan for a node of a graph. -/
def build (c : Context) (root : Node) : Except ExecError Plan := do
  let (tree, layout) ← (layOut c (depthBound c) .none root).run ⟨∅, 0⟩
  return ⟨tree, layout.made⟩

end Plan

end TagFlow
