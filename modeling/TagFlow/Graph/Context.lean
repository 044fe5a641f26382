import TagFlow.Graph.Definition
import TagFlow.Graph.Entry
import TagFlow.Value.Table

/-!
# Contexts

A context is a whole graph: the value table, the function table, the three definition tables, and
an index from each value to the function that writes it, its *producer*. The index is redundant and
is kept by the operations below: inserting a function makes it the producer of its output; when a
producer is removed or changes its output, the value goes to another function that writes it, if
there is one.

`producerOf?_insertFunction_self` and `producerOf?_insertFunction_new` describe the index after an
insertion.
-/

namespace TagFlow

/-- A graph. -/
structure Context where
  values : ValueTable
  functions : Std.ExtTreeMap FunctionId FunctionEntry
  combines : Std.ExtTreeMap CombineId CombineDefinition
  pipes : Std.ExtTreeMap PipeId PipeDefinition
  conds : Std.ExtTreeMap CondId CondDefinition
  producers : Std.ExtTreeMap ValueId FunctionId

namespace Context

/-- The graph with nothing in it. -/
def empty : Context := ⟨∅, ∅, ∅, ∅, ∅, ∅⟩

/-! ### Values -/

def insertValue (c : Context) (id : ValueId) (value : Value) : Context :=
  { c with values := c.values.insert id value }

def removeValue (c : Context) (id : ValueId) : Context :=
  { c with values := c.values.erase id }

/-- Replace the whole value table, for instance by the result of an evaluation. -/
def setValues (c : Context) (values : ValueTable) : Context :=
  { c with values := values }

/-! ### Functions -/

/-- The function that writes a value. -/
def producerOf? (c : Context) (value : ValueId) : Option FunctionId := c.producers[value]?

/-- The functions whose entries write a value, in the order of their identifiers. -/
def writers (c : Context) (value : ValueId) : List FunctionId :=
  (c.functions.toList.filter (·.2.returns == value)).map (·.1)

/-- Take a value away from its producer and give it to the last of the other functions that still
write it. Nothing happens if the producer is another function. -/
def unlinkProducer (c : Context) (function : FunctionId) (value : ValueId) : Context :=
  if c.producers[value]? = some function then
    match (c.writers value).getLast? with
    | some writer => { c with producers := c.producers.insert value writer }
    | none => { c with producers := c.producers.erase value }
  else c

/-- Replace the entry of a function, without regard to the index. -/
def putFunction (c : Context) (id : FunctionId) (entry : FunctionEntry) : Context :=
  { c with functions := c.functions.insert id entry }

/-- Make a function the producer of a value. -/
def linkProducer (c : Context) (function : FunctionId) (value : ValueId) : Context :=
  { c with producers := c.producers.insert value function }

/-- Insert or replace a function; it becomes the producer of its output. -/
def insertFunction (c : Context) (id : FunctionId) (entry : FunctionEntry) : Context :=
  match c.functions[id]? with
  | none => (c.putFunction id entry).linkProducer id entry.returns
  | some previous =>
    ((c.putFunction id entry).unlinkProducer id previous.returns).linkProducer id entry.returns

/-- Remove a function, if it is there. -/
def removeFunction (c : Context) (id : FunctionId) : Context :=
  match c.functions[id]? with
  | none => c
  | some entry => { c with functions := c.functions.erase id }.unlinkProducer id entry.returns

/-- Whether a value is a row of the table or the output of a function. -/
def resolves (c : Context) (value : ValueId) : Bool :=
  c.values.contains value || c.producers.contains value

/-! ### Definitions -/

def insertCombine (c : Context) (id : CombineId) (d : CombineDefinition) : Context :=
  { c with combines := c.combines.insert id d }

def insertPipe (c : Context) (id : PipeId) (d : PipeDefinition) : Context :=
  { c with pipes := c.pipes.insert id d }

def insertCond (c : Context) (id : CondId) (d : CondDefinition) : Context :=
  { c with conds := c.conds.insert id d }

/-- Insert rows, functions and definitions, table by table, each in order. -/
def extend (c : Context) (values : List (ValueId × Value))
    (functions : List (FunctionId × FunctionEntry))
    (combines : List (CombineId × CombineDefinition)) (pipes : List (PipeId × PipeDefinition))
    (conds : List (CondId × CondDefinition)) : Context :=
  let c := values.foldl (fun c row => c.insertValue row.1 row.2) c
  let c := functions.foldl (fun c row => c.insertFunction row.1 row.2) c
  let c := combines.foldl (fun c row => c.insertCombine row.1 row.2) c
  let c := pipes.foldl (fun c row => c.insertPipe row.1 row.2) c
  conds.foldl (fun c row => c.insertCond row.1 row.2) c

def removeDefinition (c : Context) : DefinitionId → Context
  | .combine id => { c with combines := c.combines.erase id }
  | .pipe id => { c with pipes := c.pipes.erase id }
  | .cond id => { c with conds := c.conds.erase id }

def hasDefinition (c : Context) : DefinitionId → Bool
  | .combine id => c.combines.contains id
  | .pipe id => c.pipes.contains id
  | .cond id => c.conds.contains id

/-- Every definition: combines, pipes and conds, each in the order of their identifiers. -/
def definitionIds (c : Context) : List DefinitionId :=
  c.combines.keys.map .combine ++ c.pipes.keys.map .pipe ++ c.conds.keys.map .cond

/-! ### Comparison -/

/-- Two graphs agree: all tables and the index are the same, up to the comparison of payloads. -/
def agrees (c d : Context) : Bool :=
  c.values.agrees d.values && c.functions == d.functions && c.combines == d.combines &&
    c.pipes == d.pipes && c.conds == d.conds && c.producers == d.producers

/-! ### The index after an insertion -/

theorem producerOf?_linkProducer (c : Context) (function : FunctionId) (value other : ValueId) :
    (c.linkProducer function value).producerOf? other =
      if value = other then some function else c.producerOf? other := by
  unfold linkProducer producerOf?
  rw [Std.ExtTreeMap.getElem?_insert]
  simp only [Std.LawfulEqCmp.compare_eq_iff_eq]

/-- An inserted function is the producer of its output. -/
theorem producerOf?_insertFunction_self (c : Context) (id : FunctionId) (entry : FunctionEntry) :
    (c.insertFunction id entry).producerOf? entry.returns = some id := by
  unfold insertFunction
  split <;> simp [producerOf?_linkProducer]

/-- A function that is new leaves the producers of all other values alone. -/
theorem producerOf?_insertFunction_new {c : Context} {id : FunctionId} {entry : FunctionEntry}
    {value : ValueId} (new : c.functions[id]? = none) (other : entry.returns ≠ value) :
    (c.insertFunction id entry).producerOf? value = c.producerOf? value := by
  unfold insertFunction
  rw [new]
  exact (producerOf?_linkProducer ..).trans (if_neg other)

end Context

end TagFlow
