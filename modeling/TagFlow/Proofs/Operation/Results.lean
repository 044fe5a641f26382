import TagFlow.Proofs.Operation.Library

/-!
# What the built-ins make of their arguments

The body of an operation makes a payload, or else an array out of the array that it was given
(`Made`); the body of an adapter makes a payload (`Adapted`). The tags of the arguments are put on
afterwards, and these are all the tags there are (`Registry.mem_tags_of_applyBinary`).

A value is *well declared* if its element type is what its items say. The two operations that make
arrays do not look at all the items, but go by the element types of their arguments as far as they can.
Where those are what they should be, so is that of the result (`Registry.preserves_wellDeclared`).
-/

namespace TagFlow

/-! ### Element types -/

/-- Items have a common element if there are any and all of them are of that type. -/
theorem Raw.commonElement_eq_some_iff {items : List Raw} {ty : BaseType} :
    commonElement items = some ty ↔ items ≠ [] ∧ ∀ item ∈ items, item.baseType = ty := by
  cases items with
  | nil => simp [commonElement]
  | cons first rest =>
    unfold commonElement
    simp only [List.all_eq_true, beq_iff_eq, ne_eq, reduceCtorEq, not_false_eq_true, true_and,
      List.forall_mem_cons]
    split
    · next same =>
      refine ⟨fun isType => ?_, fun all => congrArg some all.1⟩
      cases isType
      exact ⟨rfl, same⟩
    · next mixed =>
      refine ⟨fun h => (nomatch h), fun all => absurd (fun item isItem => ?_) mixed⟩
      exact (all.2 item isItem).trans all.1.symm

/-- The items of an array have the element type that it declares. -/
def Value.Honest (value : Value) : Prop :=
  ∀ ty, value.element = some ty → ∀ items, value.asArray? = some items →
    ∀ item ∈ items, item.baseType = ty

namespace Value

/-- The element type of an array is the common element of its items, where it has any; a value that is
not an array has no element type. -/
def WellDeclared (v : Value) : Prop :=
  match v.raw with
  | .array items => items = [] ∨ v.element = Raw.commonElement items
  | _ => v.element = none

theorem wellDeclared_derivedFrom {v : Value} {sources : List Value} :
    (v.derivedFrom sources).WellDeclared ↔ v.WellDeclared := Iff.rfl

theorem wellDeclared_array (items : List Raw) : (array items).WellDeclared := .inr rfl

theorem wellDeclared_ofRaw (raw : Raw) : (ofRaw raw).WellDeclared := by
  cases raw with
  | array items => exact wellDeclared_array items
  | number | string | boolean | null => exact rfl

/-- An array that is given an element type is well declared if its items have that type. -/
theorem wellDeclared_arrayWith {element : Option BaseType} {items : List Raw}
    (honest : ∀ ty, element = some ty → ∀ item ∈ items, item.baseType = ty) :
    (arrayWith element items).WellDeclared := by
  cases element with
  | none => exact wellDeclared_array items
  | some ty =>
    by_cases empty : items = []
    · exact .inl empty
    · exact .inr (Raw.commonElement_eq_some_iff.2 ⟨empty, honest ty rfl⟩).symm

/-- The items of a well-declared array have the type that it declares. -/
theorem WellDeclared.honest {v : Value} (declared : v.WellDeclared) : v.Honest := by
  intro ty element items isArray
  obtain ⟨raw, _, tags⟩ := v
  cases raw with
  | number | string | boolean | null => cases isArray
  | array others =>
    cases isArray
    rcases declared with rfl | same
    · simp
    · exact (Raw.commonElement_eq_some_iff.1 (same.symm.trans element)).2

end Value

namespace Library

open Value

variable {left right result : Value}

/-! ### Operations -/

/-- What the body of an operation may make of its arguments: a payload, the two arrays one after the
other, or the array with one more item. -/
inductive Made (left right : Value) : Value → Prop
  | payload (raw : Raw) : Made left right (.ofRaw raw)
  | concat {xs ys : List Raw} : left.asArray? = some xs → right.asArray? = some ys →
      Made left right (.arrayWith (concatElement xs ys left.element right.element) (xs ++ ys))
  | append {items : List Raw} : left.asArray? = some items →
      Made left right
        (.arrayWith (appendElement items left.element right.baseType) (items ++ [right.raw]))

/-- A body that reads both arguments and gives a payload. -/
theorem made_of_reads {α β : Type} {first : Except Fault α} {second : Except Fault β}
    {give : α → β → Raw} (reads : Yields (fun _ => True) first)
    (reads' : Yields (fun _ => True) second) :
    Yields (Made left right) (first >>= fun x => second >>= fun y => pure (.ofRaw (give x y))) :=
  reads.bind fun _ _ => reads'.bind fun _ _ => .payload _

/-- A body that makes something makes it with the tags of both arguments. -/
theorem made_binary {name : String} {body : String → Value → Value → Except Fault Value}
    (makes : ∀ left right, Yields (Made left right) (body name left right)) (left right : Value) :
    Yields (fun v => ∃ untagged, Made left right untagged ∧ v = untagged.derivedFrom [left, right])
      ((binary name body).2 left right) :=
  (makes left right).derivedFrom [left, right] fun untagged made => ⟨untagged, made, rfl⟩

/-- What the built-in operations make. -/
theorem made_binaries : ∀ entry ∈ binaries, ∀ left right,
    Yields (fun v => ∃ untagged, Made left right untagged ∧ v = untagged.derivedFrom [left, right])
      (entry.2 left right) := by
  simp only [binaries, numberBinaries, stringBinaries, booleanBinaries, arrayBinaries,
    genericBinaries, List.forall_mem_append, List.forall_mem_cons, List.not_mem_nil,
    IsEmpty.forall_iff, implies_true, and_true]
  refine ⟨⟨⟨⟨⟨?_, ?_, ?_, ?_, ?_, ?_, ?_, ?_, ?_, ?_⟩, ?_, ?_, ?_⟩, ?_, ?_, ?_⟩, ?_, ?_, ?_⟩, ?_, ?_⟩
  -- numbers
  iterate 10
    exact made_binary fun a b => made_of_reads (yields_expectNumber _ a) (yields_expectNumber _ b)
  -- texts
  iterate 2
    exact made_binary fun a b => made_of_reads (yields_expectString _ a) (yields_expectString _ b)
  · refine made_binary fun a b => (yields_expectString _ a).bind fun s _ =>
      (yields_expectNumber _ b).bind fun n _ => (yields_expectIndex _ n).bind fun count _ => ?_
    split
    · exact .payload _
    · trivial
  -- truth values
  iterate 3
    exact made_binary fun a b => made_of_reads (yields_expectBool _ a) (yields_expectBool _ b)
  -- arrays
  · exact made_binary fun a b => (yields_expectArray _ a).bind fun _ isArray =>
      (yields_expectArray _ b).bind fun _ isArray' => .concat isArray isArray'
  · exact made_binary fun a b => (yields_expectArray _ a).bind fun _ isArray => .append isArray
  · refine made_binary fun a b => (yields_expectArray _ a).bind fun items _ =>
      (yields_expectNumber _ b).bind fun n _ => (yields_expectIndex _ n).bind fun index _ => ?_
    split
    · exact .payload _
    · trivial
  -- values of any type
  iterate 2 exact made_binary fun _ _ => .payload _

/-! ### Adapters -/

/-- What an adapter may give for its argument: the argument itself, or a payload with its tags. An
array is always the argument itself. -/
inductive Adapted (v : Value) : Value → Prop
  | same : Adapted v v
  | payload (raw : Raw) : raw.baseType ≠ .array → Adapted v ((Value.ofRaw raw).derivedFrom [v])

theorem adapted_adapter {α : Type} {name : String} {read : String → Value → Except Fault α}
    {give : α → Raw} (reads : ∀ v, Yields (fun _ => True) (read name v))
    (other : ∀ a, (give a).baseType ≠ .array) (v : Value) :
    Yields (Adapted v)
      ((adapter name fun operation v => read operation v >>= fun a => pure (Value.ofRaw (give a))).2 v) := by
  have made : Yields (fun w => ∃ a, w = Value.ofRaw (give a))
      (read name v >>= fun a => pure (Value.ofRaw (give a))) := (reads v).bind fun a _ => ⟨a, rfl⟩
  refine made.derivedFrom [v] ?_
  rintro _ ⟨a, rfl⟩
  exact .payload _ (other a)

theorem adapted_pass (name : String) (ty : BaseType) (v : Value) :
    Yields (Adapted v) ((pass name ty).2 v) := by
  show Yields _ (if v.baseType = ty then .ok v else mismatch name ty v)
  split
  · exact .same
  · trivial

/-- What the built-in adapters give. -/
theorem adapted_adapters : ∀ entry ∈ adapters, ∀ v, Yields (Adapted v) (entry.2 v) := by
  simp only [adapters, numberAdapters, stringAdapters, booleanAdapters, arrayAdapters,
    genericAdapters, List.forall_mem_append, List.forall_mem_cons, List.not_mem_nil,
    IsEmpty.forall_iff, implies_true, and_true, adapted_pass, true_and, and_assoc]
  refine ⟨?_, ?_, ?_, ?_, ?_, ?_, ?_, ?_, ?_⟩
  -- numbers
  iterate 2 exact adapted_adapter (yields_expectNumber _) fun _ => nofun
  -- texts
  iterate 3 exact adapted_adapter (yields_expectString _) fun _ => nofun
  -- truth values
  · exact adapted_adapter (yields_expectBool _) fun _ => nofun
  -- arrays
  · exact adapted_adapter (fun v => (yields_expectArray _ v).mono fun _ _ => trivial) fun _ => nofun
  -- values of any type
  · exact fun _ => .same
  · exact fun v => .payload (.string v.raw.text) nofun

/-! ### Tags and element types -/

theorem Made.tags (made : Made left right result) : result.tags = ∅ := by
  cases made with
  | payload raw => exact tags_ofRaw raw
  | concat | append => exact tags_arrayWith ..

theorem Made.wellDeclared (made : Made left right result) (isLeft : left.WellDeclared)
    (isRight : right.WellDeclared) : result.WellDeclared := by
  cases made with
  | payload raw => exact wellDeclared_ofRaw raw
  | @concat xs ys isArray isArray' =>
    refine wellDeclared_arrayWith fun ty declared => ?_
    unfold concatElement at declared
    -- an array without items says nothing; otherwise both of them say the same
    split at declared
    · next empty =>
      rw [List.isEmpty_iff.1 empty]
      exact isRight.honest ty declared _ isArray'
    · split at declared
      · next empty =>
        rw [List.isEmpty_iff.1 empty, List.append_nil]
        exact isLeft.honest ty declared _ isArray
      · split at declared
        · next same =>
          rw [List.forall_mem_append]
          exact ⟨isLeft.honest ty declared _ isArray, isRight.honest ty (same ▸ declared) _ isArray'⟩
        · cases declared
  | @append items isArray =>
    refine wellDeclared_arrayWith fun ty declared => ?_
    unfold appendElement at declared
    split at declared
    · next fits =>
      cases declared
      rw [List.forall_mem_append, List.forall_mem_singleton]
      refine ⟨?_, rfl⟩
      rcases Bool.or_eq_true_iff.1 fits with empty | same
      · rw [List.isEmpty_iff.1 empty]
        simp
      · exact isLeft.honest _ (beq_iff_eq.1 same) _ isArray
    · cases declared

end Library

namespace Registry

open Library

variable {name : String} {left right value result : Value} {tag : Tag}

/-! ### The standard registry -/

theorem exists_made_of_applyBinary (run : standard.applyBinary name left right = .ok result) :
    ∃ untagged, Made left right untagged ∧ result = untagged.derivedFrom [left, right] := by
  unfold applyBinary at run
  split at run
  · next op found =>
    exact (made_binaries _ (mem_binaries_of_standard found) left right).of_eq_ok run
  · cases run

theorem adapted_of_applyAdapter (run : standard.applyAdapter name value = .ok result) :
    Adapted value result := by
  unfold applyAdapter at run
  split at run
  · next adapter found =>
    exact (adapted_adapters _ (mem_adapters_of_standard found) value).of_eq_ok run
  · cases run

/-- No built-in panics. -/
theorem standard_not_panic_binary {op : Binary} (found : standard.binaries[name]? = some op)
    (left right : Value) (message : String) : op left right ≠ .error (.panic message) :=
  (made_binaries _ (mem_binaries_of_standard found) left right).not_panic message

theorem standard_not_panic_adapter {adapter : Adapter} (found : standard.adapters[name]? = some adapter)
    (value : Value) (message : String) : adapter value ≠ .error (.panic message) :=
  (adapted_adapters _ (mem_adapters_of_standard found) value).not_panic message

/-- A built-in adapter that gives an array gives its argument, so adapters cannot make up arrays. -/
theorem eq_of_applyAdapter (run : standard.applyAdapter name value = .ok result)
    (isArray : result.baseType = .array) : result = value := by
  cases adapted_of_applyAdapter run with
  | same => rfl
  | payload raw other =>
    rw [Value.baseType_derivedFrom, Value.baseType_ofRaw] at isArray
    exact absurd isArray other

/-! ### Tags -/

/-- The tags of what an operation gives are those of its arguments. -/
theorem mem_tags_of_applyBinary (run : standard.applyBinary name left right = .ok result) :
    tag ∈ result.tags ↔ tag ∈ left.tags ∨ tag ∈ right.tags := by
  obtain ⟨untagged, made, rfl⟩ := exists_made_of_applyBinary run
  rw [Value.mem_tags_derivedFrom, made.tags]
  simp

/-- The tags of what an adapter gives are those of its argument. -/
theorem mem_tags_of_applyAdapter (run : standard.applyAdapter name value = .ok result) :
    tag ∈ result.tags ↔ tag ∈ value.tags := by
  cases adapted_of_applyAdapter run with
  | same => exact Iff.rfl
  | payload raw =>
    rw [Value.mem_tags_derivedFrom, Value.tags_ofRaw]
    simp

/-- Operations and adapters hand on a tag of their arguments to their results. -/
structure Carries (registry : Registry) (tag : Tag) : Prop where
  binary : ∀ {name : String} {left right result : Value},
    registry.applyBinary name left right = .ok result →
      tag ∈ left.tags ∨ tag ∈ right.tags → tag ∈ result.tags
  adapter : ∀ {name : String} {value result : Value},
    registry.applyAdapter name value = .ok result → tag ∈ value.tags → tag ∈ result.tags

theorem standard_carries (tag : Tag) : standard.Carries tag where
  binary run := (mem_tags_of_applyBinary run).2
  adapter run := (mem_tags_of_applyAdapter run).2

/-! ### Element types -/

/-- Operations and adapters give values with a property for values with the property. -/
structure Preserves (registry : Registry) (ok : Value → Prop) : Prop where
  binary : ∀ {name : String} {left right result : Value},
    registry.applyBinary name left right = .ok result → ok left → ok right → ok result
  adapter : ∀ {name : String} {value result : Value},
    registry.applyAdapter name value = .ok result → ok value → ok result

theorem preserves_wellDeclared : standard.Preserves Value.WellDeclared where
  binary {name left right result} run isLeft isRight := by
    obtain ⟨untagged, made, rfl⟩ := exists_made_of_applyBinary run
    exact Value.wellDeclared_derivedFrom.2 (made.wellDeclared isLeft isRight)
  adapter {name value result} run declared := by
    cases adapted_of_applyAdapter run with
    | same => exact declared
    | payload raw => exact Value.wellDeclared_derivedFrom.2 (Value.wellDeclared_ofRaw raw)

end Registry

end TagFlow
