import TagFlow.Operation.Error
import TagFlow.Text.Quoted
import TagFlow.Value.Basic
import Std.Data.ExtTreeMap

/-!
# Registries

A registry gives implementations to the names of operations and adapters. Registering a name a
second time replaces its implementation; names are listed in the order of their texts.
-/

namespace TagFlow

/-- An implementation of a binary operation. -/
abbrev Binary := Value → Value → Except Fault Value

/-- An implementation of an adapter. -/
abbrev Adapter := Value → Except Fault Value

/-- Implementations by name. -/
structure Registry where
  binaries : Std.ExtTreeMap String Binary
  adapters : Std.ExtTreeMap String Adapter

namespace Registry

def empty : Registry := ⟨∅, ∅⟩

/-- Register or replace an operation. -/
def registerBinary (registry : Registry) (name : String) (op : Binary) : Registry :=
  { registry with binaries := registry.binaries.insert name op }

/-- Register or replace an adapter. -/
def registerAdapter (registry : Registry) (name : String) (adapter : Adapter) : Registry :=
  { registry with adapters := registry.adapters.insert name adapter }

/-- Register operations and adapters, in order. -/
def extend (registry : Registry) (binaries : List (String × Binary))
    (adapters : List (String × Adapter)) : Registry :=
  let registry := binaries.foldl (fun r entry => r.registerBinary entry.1 entry.2) registry
  adapters.foldl (fun r entry => r.registerAdapter entry.1 entry.2) registry

def hasBinary (registry : Registry) (name : String) : Bool := registry.binaries.contains name

def hasAdapter (registry : Registry) (name : String) : Bool := registry.adapters.contains name

/-- Run the operation of a name. -/
def applyBinary (registry : Registry) (name : String) (left right : Value) : Except Fault Value :=
  match registry.binaries[name]? with
  | some op => op left right
  | none => .error (.error (.unknownOperation name))

/-- Run the adapter of a name. -/
def applyAdapter (registry : Registry) (name : String) (value : Value) : Except Fault Value :=
  match registry.adapters[name]? with
  | some adapter => adapter value
  | none => .error (.error (.unknownAdapter name))

def binaryNames (registry : Registry) : List String := registry.binaries.keys

def adapterNames (registry : Registry) : List String := registry.adapters.keys

/-! ### Listing -/

/-- Quoted names in brackets. -/
def listNames (names : List String) : String :=
  "[" ++ ", ".intercalate (names.map Text.quoted) ++ "]"

/-- The diagnostic listing of a registry: the names it gives implementations to. -/
def listing (registry : Registry) : String :=
  "OperationRegistry \x7b binary: " ++ listNames registry.binaryNames ++ ", adapters: " ++
    listNames registry.adapterNames ++ " \x7d"

/-- The listing of a registry that several engines share. -/
def sharedListing (registry : Registry) : String := "SharedRegistry(" ++ registry.listing ++ ")"

end Registry

end TagFlow
