import Std.Data.ExtTreeMap
import TagFlow.Id

/-!
# Documents

A document is a tree of nulls, truth values, numbers, texts, arrays and objects: the form in which a
graph is saved and loaded. This module holds the readers and writers that all parts of a graph
share.

* A *record* is an object with a field for each of its parts. It may also be read from an array of
  the parts in order. Fields that a record does not have are ignored.
* A *choice* is an object with one field, named for the alternative, or the bare name of an
  alternative that has no content.
* A *table* is an object whose field names are identifiers.
-/

namespace TagFlow

/-- A tree of plain data. -/
inductive Document where
  | null
  | bool (b : Bool)
  | natural (n : Nat)
  | number (x : Float)
  | string (s : String)
  | array (items : List Document)
  | object (fields : List (String × Document))
deriving Inhabited

namespace Document

/-- A natural number as it stands in a text: one of 64 bits is kept as it is, and any other as the
floating-point number nearest to it. -/
def ofNat (n : Nat) : Document :=
  if n < Nat.pow 2 64 then natural n else number (Float.ofNat n)

/-- A floating-point number as it stands in a text, where only the finite ones have a form. -/
def ofFloat (x : Float) : Document :=
  if x.isFinite then number x else null

/-! ### Reading -/

def string? : Document → Option String
  | string s => some s
  | _ => none

def bool? : Document → Option Bool
  | bool b => some b
  | _ => none

/-- A natural number; no other number counts as one, not even a fraction that is integral. -/
def natural? : Document → Option Nat
  | natural n => some n
  | _ => none

def number? : Document → Option Float
  | number x => some x
  | natural n => some (Float.ofNat n)
  | _ => none

def array? : Document → Option (List Document)
  | array items => some items
  | _ => none

/-- The items of an array, each read in the same way. -/
def list? {α : Type} (read : Document → Option α) (d : Document) : Option (List α) := do
  let items ← d.array?
  items.mapM read

/-- An array of two, read in two ways. -/
def pair? {α β : Type} (first : Document → Option α) (second : Document → Option β) :
    Document → Option (α × β)
  | array [a, b] => do
    let a ← first a
    let b ← second b
    return (a, b)
  | _ => none

/-- A nonempty text as an identifier. -/
def id? (kind : IdKind) (d : Document) : Option (Id kind) := do
  let text ← d.string?
  Id.ofString? kind text

/-- The parts of a record with these fields. -/
def record? (names : List String) : Document → Option (List Document)
  | array parts => if parts.length = names.length then some parts else none
  | object fields => names.mapM fun name => fields.lookup name
  | _ => none

/-- The parts of a record with these fields, but from an object only. -/
def fields? (names : List String) : Document → Option (List Document)
  | object fields => names.mapM fun name => fields.lookup name
  | _ => none

/-- The name and the content of a choice. -/
def choice? : Document → Option (String × Option Document)
  | string name => some (name, none)
  | object [(name, content)] => some (name, some content)
  | _ => none

/-- The name of a choice without content; a null counts as no content. -/
def bareChoice? (d : Document) : Option String :=
  match d.choice? with
  | some (name, none) => some name
  | some (name, some null) => some name
  | _ => none

/-- A row of a table: an identifier and what stands under it. -/
def row? {α : Type} (kind : IdKind) (read : Document → Option α) (field : String × Document) :
    Option (Id kind × α) := do
  let id ← Id.ofString? kind field.1
  let content ← read field.2
  return (id, content)

/-- The rows of a table, as a table. -/
def tableOf {κ α : Type} [Ord κ] [Std.TransOrd κ] (rows : List (κ × α)) : Std.ExtTreeMap κ α :=
  rows.foldl (fun table row => table.insert row.1 row.2) ∅

/-- An object whose field names are identifiers. -/
def table? {α : Type} (kind : IdKind) (read : Document → Option α) :
    Document → Option (Std.ExtTreeMap (Id kind) α)
  | object fields => (fields.mapM (row? kind read)).map tableOf
  | _ => none

/-! ### Writing -/

def ofId {kind : IdKind} (id : Id kind) : Document := string id.text

/-- A choice with content. -/
def choice (name : String) (content : Document) : Document := object [(name, content)]

/-- A table as an object. -/
def ofTable {kind : IdKind} {α : Type} (write : α → Document)
    (table : Std.ExtTreeMap (Id kind) α) : Document :=
  object (table.toList.map fun row => (row.1.text, write row.2))

/-- An array of two. -/
def ofPair (first second : Document) : Document := array [first, second]

end Document

end TagFlow
