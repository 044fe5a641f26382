import TagFlow.Bindings
import TagFlow.Value.Basic

/-!
# Specs

A spec describes a computation as named entries. A *literal* entry is a value. A *function* entry
combines two arguments by an operation, runs a pipe of steps over named inputs, or chooses between
two other functions. References go by name, forward or backward; the order of the entries does not
matter for what they mean.

Names of a spec are distinct: inserting an entry under a name that is taken replaces the old entry
in its place (`get?_insert`).
-/

namespace TagFlow

/-- What a reference points at. -/
inductive Target where
  /-- A literal entry. -/
  | value (name : String)
  /-- A literal entry, or the output of a function entry: whichever the name stands for. -/
  | name (name : String)
  /-- The output of a function entry. -/
  | output (function : String)
  /-- A named input of the enclosing pipe. -/
  | input (name : String)
  /-- The output of an earlier step of the enclosing pipe, counted from 0. -/
  | step (index : Nat)
deriving DecidableEq

namespace Target

/-- The target in words. -/
def text : Target → String
  | value n => "value `" ++ n ++ "`"
  | name n => "name `" ++ n ++ "`"
  | output n => "output of `" ++ n ++ "`"
  | input n => "pipe input `" ++ n ++ "`"
  | step index => "step #" ++ toString index

end Target

/-- A reference, with an adapter where one is asked for. -/
structure Reference where
  target : Target
  adapter : Option String
deriving DecidableEq

/-- An operation on named arguments; only two with different names make sense. -/
structure CombineExpr where
  operation : String
  args : List (String × Reference)
deriving DecidableEq

/-- One step of a pipe: a combine, or a pipe whose inputs are bound in the enclosing pipe. Adapters
on the bindings of inputs have no effect. -/
inductive StepExpr where
  | combine (expr : CombineExpr)
  | pipe (inputs : List (String × Reference)) (steps : List StepExpr)

/-- What a function entry does. -/
inductive FunctionExpr where
  | combine (expr : CombineExpr)
  | pipe (inputs : List (String × Reference)) (steps : List StepExpr)
  /-- If the entry `condition` holds, then what `thenBranch` gives, else what `elseBranch` gives. -/
  | cond (condition thenBranch elseBranch : String)

/-- An entry of a spec. -/
inductive SpecEntry where
  | literal (value : Value)
  | function (expr : FunctionExpr)

/-- Named entries in order, no name twice. -/
structure Spec where
  entries : List (String × SpecEntry)
  nodup : (Bindings.names entries).Nodup

namespace Spec

def empty : Spec := ⟨[], List.nodup_nil⟩

/-- Insert an entry; one of the same name is replaced in its place. -/
def insert (spec : Spec) (name : String) (entry : SpecEntry) : Spec :=
  ⟨Bindings.put name entry spec.entries, Bindings.nodup_names_put name entry spec.nodup⟩

/-- Insert entries one after the other. -/
def ofList (entries : List (String × SpecEntry)) : Spec :=
  entries.foldl (fun spec entry => spec.insert entry.1 entry.2) empty

def get? (spec : Spec) (name : String) : Option SpecEntry := spec.entries.lookup name

def size (spec : Spec) : Nat := spec.entries.length

theorem get?_insert (spec : Spec) (name other : String) (entry : SpecEntry) :
    (spec.insert name entry).get? other = if name = other then some entry else spec.get? other :=
  Bindings.lookup_put name other entry spec.entries

end Spec

end TagFlow
