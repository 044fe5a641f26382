import TagFlow.Bindings
import TagFlow.Id

/-!
# Function entries

A function entry says which definition a function runs, which values it reads and which value it
writes. Arguments are named and ordered: combine definitions bind them by position, pipe
definitions by name. A cond has no arguments; its definition names what it reads.
-/

namespace TagFlow

/-- Named arguments in order. Inserting keeps names distinct; a loaded graph may repeat one, and
then the first of its bindings counts. -/
structure ArgMap where
  entries : List (String × ValueId)
deriving DecidableEq

namespace ArgMap

def empty : ArgMap := ⟨[]⟩

/-- Bind a name: in place of its first binding, or else at the end. -/
def insert (args : ArgMap) (name : String) (value : ValueId) : ArgMap :=
  ⟨Bindings.put name value args.entries⟩

/-- Bind names one after the other. -/
def ofList (entries : List (String × ValueId)) : ArgMap :=
  entries.foldl (fun args entry => args.insert entry.1 entry.2) empty

def get? (args : ArgMap) (name : String) : Option ValueId := args.entries.lookup name

def contains (args : ArgMap) (name : String) : Bool := (args.get? name).isSome

def names (args : ArgMap) : List String := Bindings.names args.entries

def values (args : ArgMap) : List ValueId := args.entries.map (·.2)

def size (args : ArgMap) : Nat := args.entries.length

def isEmpty (args : ArgMap) : Bool := args.entries.isEmpty

@[simp] theorem get?_empty (name : String) : empty.get? name = none := rfl

/-- Binding a name sets its value and leaves all other names alone. -/
theorem get?_insert (args : ArgMap) (name other : String) (value : ValueId) :
    (args.insert name value).get? other = if name = other then some value else args.get? other :=
  Bindings.lookup_put name other value args.entries

/-- New names that are different are added at the end. -/
theorem entries_foldl_insert : ∀ (rest : List (String × ValueId)) (args : ArgMap),
    (Bindings.names (args.entries ++ rest)).Nodup →
    (rest.foldl (fun args entry => args.insert entry.1 entry.2) args).entries = args.entries ++ rest
  | [], args, _ => (List.append_nil _).symm
  | first :: rest, args, distinct => by
    have new : first.1 ∉ Bindings.names args.entries := by
      intro old
      unfold Bindings.names at distinct old
      rw [List.map_append, List.nodup_append] at distinct
      exact distinct.2.2 _ old _ List.mem_cons_self rfl
    have inserted : (args.insert first.1 first.2).entries = args.entries ++ [first] :=
      Bindings.put_of_notMem new
    have split : args.entries ++ first :: rest = (args.insert first.1 first.2).entries ++ rest := by
      rw [inserted, List.append_assoc]
      rfl
    rw [split] at distinct ⊢
    exact entries_foldl_insert rest _ distinct

/-- Where all names are different, they are kept in order. -/
theorem entries_ofList {entries : List (String × ValueId)}
    (distinct : (Bindings.names entries).Nodup) : (ofList entries).entries = entries :=
  entries_foldl_insert entries empty distinct

theorem names_ofList {entries : List (String × ValueId)}
    (distinct : (Bindings.names entries).Nodup) :
    (ofList entries).names = Bindings.names entries := by
  unfold names
  rw [entries_ofList distinct]

theorem values_ofList {entries : List (String × ValueId)}
    (distinct : (Bindings.names entries).Nodup) : (ofList entries).values = entries.map (·.2) := by
  unfold values
  rw [entries_ofList distinct]

end ArgMap

/-- The three shapes of functions. -/
inductive FunctionKind where
  | combine
  | pipe
  | cond
deriving DecidableEq

def FunctionKind.name : FunctionKind → String
  | combine => "combine"
  | pipe => "pipe"
  | cond => "cond"

/-- An entry of the function table. -/
inductive FunctionEntry where
  | combine (definition : CombineId) (args : ArgMap) (returns : ValueId)
  | pipe (definition : PipeId) (args : ArgMap) (returns : ValueId)
  | cond (definition : CondId) (returns : ValueId)
deriving DecidableEq

namespace FunctionEntry

/-- The value that the function writes. -/
def returns : FunctionEntry → ValueId
  | combine _ _ returns => returns
  | pipe _ _ returns => returns
  | cond _ returns => returns

/-- The arguments, where the shape has them. -/
def args? : FunctionEntry → Option ArgMap
  | combine _ args _ => some args
  | pipe _ args _ => some args
  | cond _ _ => none

/-- The arguments; a cond has none. -/
def args (entry : FunctionEntry) : ArgMap := entry.args?.getD .empty

/-- The definition that the function runs. -/
def definition : FunctionEntry → DefinitionId
  | combine definition _ _ => .combine definition
  | pipe definition _ _ => .pipe definition
  | cond definition _ => .cond definition

def kind : FunctionEntry → FunctionKind
  | combine _ _ _ => .combine
  | pipe _ _ _ => .pipe
  | cond _ _ => .cond

end FunctionEntry

end TagFlow
