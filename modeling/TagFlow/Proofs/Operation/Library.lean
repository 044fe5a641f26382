import TagFlow.Operation.Library
import TagFlow.Proofs.Result
import TagFlow.Proofs.Table

/-!
# The library of built-ins

Tools for statements about all built-ins: outcomes that are not panics (`Yields`), what reading an
argument yields, and which implementations the standard registry has. The pass adapter of a type hands
on every value of that type (`Registry.applyAdapter_passAdapter`).
-/

namespace TagFlow.Library

variable {α β : Type}

/-! ### Results -/

/-- A value as `ok` says, or an error; not a panic. -/
def Yields (ok : α → Prop) : Except Fault α → Prop
  | .ok a => ok a
  | .error (.error _) => True
  | .error (.panic _) => False

theorem Yields.bind {ok : α → Prop} {after : β → Prop} {result : Except Fault α}
    {next : α → Except Fault β} (first : Yields ok result)
    (rest : ∀ a, ok a → Yields after (next a)) : Yields after (result >>= next) := by
  match result with
  | .ok a => exact rest a first
  | .error (.error _) => trivial
  | .error (.panic _) => exact first.elim

theorem Yields.mono {ok weaker : α → Prop} {result : Except Fault α} (h : Yields ok result)
    (implies : ∀ a, ok a → weaker a) : Yields weaker result := by
  match result with
  | .ok a => exact implies a h
  | .error (.error _) => trivial
  | .error (.panic _) => exact h.elim

theorem Yields.not_panic {ok : α → Prop} {result : Except Fault α} (h : Yields ok result)
    (message : String) : result ≠ .error (.panic message) := by
  rintro rfl
  exact h

theorem Yields.of_eq_ok {ok : α → Prop} {result : Except Fault α} {a : α} (h : Yields ok result)
    (same : result = .ok a) : ok a := by
  subst same
  exact h

/-- The tags of the arguments are put on the value. -/
theorem Yields.derivedFrom {ok tagged : Value → Prop} {result : Except Fault Value}
    (h : Yields ok result) (sources : List Value) (tags : ∀ v, ok v → tagged (v.derivedFrom sources)) :
    Yields tagged (result.map (·.derivedFrom sources)) := by
  match result with
  | .ok v => exact tags v h
  | .error (.error _) => trivial
  | .error (.panic _) => exact h.elim

/-! ### Arguments -/

theorem yields_expectNumber (operation : String) (v : Value) :
    Yields (fun _ => True) (expectNumber operation v) := by
  unfold expectNumber
  split <;> trivial

theorem yields_expectString (operation : String) (v : Value) :
    Yields (fun _ => True) (expectString operation v) := by
  unfold expectString
  split <;> trivial

theorem yields_expectBool (operation : String) (v : Value) :
    Yields (fun _ => True) (expectBool operation v) := by
  unfold expectBool
  split <;> trivial

theorem yields_expectArray (operation : String) (v : Value) :
    Yields (fun items => v.asArray? = some items) (expectArray operation v) := by
  unfold expectArray
  split
  · next items h => exact h
  · trivial

theorem yields_expectIndex (operation : String) (n : Float) :
    Yields (fun _ => True) (expectIndex operation n) := by
  unfold expectIndex
  split <;> trivial

end TagFlow.Library

namespace TagFlow.Registry

open Library

/-! ### Any registry -/

section

variable {registry : Registry} {name : String} {left right value result : Value}

/-- An operation that gives a value is in the registry. -/
theorem hasBinary_of_applyBinary (run : registry.applyBinary name left right = .ok result) :
    registry.hasBinary name = true := by
  unfold applyBinary at run
  split at run
  · next op found => exact Table.contains_iff.2 ⟨op, found⟩
  · cases run

theorem hasAdapter_of_applyAdapter (run : registry.applyAdapter name value = .ok result) :
    registry.hasAdapter name = true := by
  unfold applyAdapter at run
  split at run
  · next adapter found => exact Table.contains_iff.2 ⟨adapter, found⟩
  · cases run

end

/-! ### The standard registry -/

theorem binaries_foldl_registerAdapter (entries : List (String × Adapter)) (registry : Registry) :
    (entries.foldl (fun r entry => r.registerAdapter entry.1 entry.2) registry).binaries =
      registry.binaries := by
  induction entries generalizing registry with
  | nil => rfl
  | cons entry entries ih => exact ih _

theorem adapters_foldl_registerBinary (entries : List (String × Binary)) (registry : Registry) :
    (entries.foldl (fun r entry => r.registerBinary entry.1 entry.2) registry).adapters =
      registry.adapters := by
  induction entries generalizing registry with
  | nil => rfl
  | cons entry entries ih => exact ih _

theorem binaries_extend (registry : Registry) (binaries : List (String × Binary))
    (adapters : List (String × Adapter)) : (registry.extend binaries adapters).binaries =
      binaries.foldl (fun table entry => table.insert entry.1 entry.2) registry.binaries :=
  (binaries_foldl_registerAdapter _ _).trans (List.foldl_hom Registry.binaries fun _ _ => rfl).symm

theorem adapters_extend (registry : Registry) (binaries : List (String × Binary))
    (adapters : List (String × Adapter)) : (registry.extend binaries adapters).adapters =
      adapters.foldl (fun table entry => table.insert entry.1 entry.2) registry.adapters := by
  rw [← adapters_foldl_registerBinary binaries registry]
  exact (List.foldl_hom Registry.adapters fun _ _ => rfl).symm

/-- Operations that are registered are operations of the list, or were there before. -/
theorem mem_of_binaries_extend {registry : Registry} {binaries : List (String × Binary)}
    {adapters : List (String × Adapter)} {name : String} {op : Binary}
    (found : (registry.extend binaries adapters).binaries[name]? = some op) :
    (name, op) ∈ binaries ∨ registry.binaries[name]? = some op := by
  rw [binaries_extend] at found
  exact Table.mem_of_getElem?_foldl_insert binaries found

/-- Adapters that are registered are adapters of the list, or were there before. -/
theorem mem_of_adapters_extend {registry : Registry} {binaries : List (String × Binary)}
    {adapters : List (String × Adapter)} {name : String} {adapter : Adapter}
    (found : (registry.extend binaries adapters).adapters[name]? = some adapter) :
    (name, adapter) ∈ adapters ∨ registry.adapters[name]? = some adapter := by
  rw [adapters_extend] at found
  exact Table.mem_of_getElem?_foldl_insert adapters found

theorem mem_binaries_of_standard {name : String} {op : Binary}
    (found : standard.binaries[name]? = some op) : (name, op) ∈ Library.binaries :=
  (mem_of_binaries_extend found).resolve_right fun h => by
    rw [show (empty.binaries[name]? : Option Binary) = none from Std.ExtTreeMap.getElem?_empty] at h
    cases h

theorem mem_adapters_of_standard {name : String} {adapter : Adapter}
    (found : standard.adapters[name]? = some adapter) : (name, adapter) ∈ Library.adapters :=
  (mem_of_adapters_extend found).resolve_right fun h => by
    rw [show (empty.adapters[name]? : Option Adapter) = none from Std.ExtTreeMap.getElem?_empty] at h
    cases h

/-! ### Pass adapters -/

/-- The pass adapter of a type hands on every value of that type. -/
theorem applyAdapter_passAdapter {ty : Option BaseType} {value : Value}
    (typed : ∀ t, ty = some t → value.baseType = t) :
    standard.applyAdapter (passAdapter ty) value = .ok value := by
  have passes : ∀ t, value.baseType = t →
      (if value.baseType = t then .ok value
        else mismatch (passAdapter (some t)) t value : Except Fault Value) = .ok value :=
    fun t same => if_pos same
  cases ty with
  | none => rfl
  | some t => cases t <;> exact passes _ (typed _ rfl)

/-- What a pass adapter gives is what it was given. -/
theorem eq_of_applyAdapter_passAdapter {ty : Option BaseType} {value result : Value}
    (run : standard.applyAdapter (passAdapter ty) value = .ok result) : result = value := by
  have passes : ∀ t, (if value.baseType = t then .ok value
      else mismatch (passAdapter (some t)) t value : Except Fault Value) = .ok result →
        result = value := by
    intro t run
    split at run
    · exact (Except.ok.inj run).symm
    · cases run
  cases ty with
  | none => exact (Except.ok.inj run).symm
  | some t => cases t <;> exact passes _ run

end TagFlow.Registry
