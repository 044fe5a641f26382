import TagFlow.Proofs.Operation.Results

/-!
# Concatenating arrays

The element type of two arrays one after the other is found by a case distinction: an operand without
items leaves it to the other one, otherwise the declared types are compared, and only where they differ
are the items looked at. For arrays that declare the common element of their items, it comes down to one
rule (`applyBinary_concat`): it is the common element of all items, and where there are none at all, what
the right operand declares.

So it does not matter how three arrays are grouped, and the array without items, element type and tags
is neutral on the left. It is neutral on the right as well, but for an array without items that declares
an element type, which is lost (`concat_assoc_and_neutral`).
-/

namespace TagFlow

/-- An array with these items, which declares their common element if there are any. -/
structure Value.DeclaredArray (v : Value) (items : List Raw) : Prop where
  raw : v.raw = .array items
  declared : items = [] ∨ v.element = Raw.commonElement items

namespace Value

variable {a : Value} {xs : List Raw}

theorem DeclaredArray.asArray? (isArray : a.DeclaredArray xs) : a.asArray? = some xs := by
  unfold Value.asArray?
  rw [isArray.raw]

theorem DeclaredArray.wellDeclared (isArray : a.DeclaredArray xs) : a.WellDeclared := by
  unfold WellDeclared
  rw [isArray.raw]
  exact isArray.declared

theorem DeclaredArray.of_wellDeclared (isArray : a.raw = .array xs) (declared : a.WellDeclared) :
    a.DeclaredArray xs := by
  unfold WellDeclared at declared
  rw [isArray] at declared
  exact ⟨isArray, declared⟩

theorem declaredArray_empty : (array []).DeclaredArray [] := ⟨rfl, .inl rfl⟩

/-- Values with the same parts are equal. -/
theorem ext_parts {v w : Value} (raw : v.raw = w.raw) (element : v.element = w.element)
    (tags : ∀ tag, tag ∈ v.tags ↔ tag ∈ w.tags) : v = w := by
  obtain ⟨_, _, vTags⟩ := v
  obtain ⟨_, _, wTags⟩ := w
  cases raw
  cases element
  rw [show vTags = wTags from Std.ExtTreeSet.ext_mem tags]

/-- Two arrays one after the other, with the element type that the rule of this module gives. -/
def join (a b : Value) (xs ys : List Raw) : Value where
  raw := .array (xs ++ ys)
  element := if (xs ++ ys).isEmpty then b.element else Raw.commonElement (xs ++ ys)
  tags := a.tags ∪ b.tags

theorem declaredArray_join (a b : Value) (xs ys : List Raw) :
    (join a b xs ys).DeclaredArray (xs ++ ys) := by
  refine ⟨rfl, ?_⟩
  by_cases empty : xs ++ ys = []
  · exact .inl empty
  · exact .inr (if_neg (by simpa using empty))

/-- The element type does not depend on how three arrays are grouped: without any items it is what the
last one declares. -/
theorem join_assoc (a b c : Value) (xs ys zs : List Raw) :
    join (join a b xs ys) c (xs ++ ys) zs = join a (join b c ys zs) xs (ys ++ zs) := by
  refine ext_parts (congrArg Raw.array (List.append_assoc xs ys zs)) ?_ fun tag => ?_
  · simp only [join, List.append_assoc]
    split
    · next empty =>
      have rest : (ys ++ zs).isEmpty = true := by
        rw [List.isEmpty_iff, List.append_eq_nil_iff] at empty
        exact List.isEmpty_iff.2 empty.2
      exact (if_pos rest).symm
    · rfl
  · simp only [join, Std.ExtTreeSet.mem_union_iff, or_assoc]

/-- Nothing in front of an array makes no difference. -/
theorem join_empty_left (isArray : a.DeclaredArray xs) : join (array []) a [] xs = a := by
  refine ext_parts isArray.raw.symm ?_ fun tag => ?_
  · simp only [join, List.nil_append]
    split
    · rfl
    · next items => exact (isArray.declared.resolve_left (by simpa using items)).symm
  · simp [join, array, Std.ExtTreeSet.mem_union_iff]

/-- Nothing behind an array makes no difference, but that an array without items loses the element type
that it declares. -/
theorem join_empty_right (isArray : a.DeclaredArray xs) :
    join a (array []) xs [] = { a with element := if xs.isEmpty then none else a.element } := by
  refine ext_parts ?_ ?_ fun tag => ?_
  · simp only [join, List.append_nil, isArray.raw]
  · simp only [join, List.append_nil]
    split
    · rfl
    · next items => exact (isArray.declared.resolve_left (by simpa using items)).symm
  · simp [join, array, Std.ExtTreeSet.mem_union_iff]

end Value

namespace Registry

open Value Library

variable {a b c : Value} {xs ys zs : List Raw}

/-- Arrays that declare the common element of their items can be concatenated, and the result is such an
array again. -/
theorem applyBinary_concat (isLeft : a.DeclaredArray xs) (isRight : b.DeclaredArray ys) :
    standard.applyBinary "array::concat" a b = .ok (join a b xs ys) := by
  let untagged : Value := .arrayWith (concatElement xs ys a.element b.element) (xs ++ ys)
  have run : standard.applyBinary "array::concat" a b = .ok (untagged.derivedFrom [a, b]) := by
    show (concatArrays "array::concat" a b).map (·.derivedFrom [a, b]) = _
    rw [concatArrays, expectArray, isLeft.asArray?, expectArray, isRight.asArray?]
    rfl
  have raw : untagged.raw = .array (xs ++ ys) := raw_arrayWith ..
  have declared : untagged.WellDeclared :=
    (Made.concat isLeft.asArray? isRight.asArray?).wellDeclared isLeft.wellDeclared
      isRight.wellDeclared
  rw [run]
  refine congrArg Except.ok (ext_parts raw ?_ fun tag => ?_)
  · rw [element_derivedFrom, join]
    dsimp only
    split
    · next empty =>
      -- the left operand has no items, so it is the right one that is asked
      obtain ⟨rfl, rfl⟩ := List.append_eq_nil_iff.1 (List.isEmpty_iff.1 empty)
      show (arrayWith b.element []).element = b.element
      cases b.element <;> rfl
    · next items =>
      exact (DeclaredArray.of_wellDeclared raw declared).declared.resolve_left (by simpa using items)
  · rw [mem_tags_derivedFrom, show untagged.tags = ∅ from tags_arrayWith .., join,
      Std.ExtTreeSet.mem_union_iff]
    simp

/-- For arrays that are empty or declare the common element of their items, with any tags: three of them
can be concatenated, and it does not matter how they are grouped. The array without items, element type
and tags is neutral on the left, and on the right for each array that has items or declares no element
type; an array without items that declares one loses it there. -/
theorem concat_assoc_and_neutral (isLeft : a.DeclaredArray xs) (isMiddle : b.DeclaredArray ys)
    (isRight : c.DeclaredArray zs) :
    (∃ ab bc abc, standard.applyBinary "array::concat" a b = .ok ab ∧
      standard.applyBinary "array::concat" b c = .ok bc ∧
      standard.applyBinary "array::concat" ab c = .ok abc ∧
      standard.applyBinary "array::concat" a bc = .ok abc) ∧
    standard.applyBinary "array::concat" (.array []) a = .ok a ∧
    (xs ≠ [] ∨ a.element = none → standard.applyBinary "array::concat" a (.array []) = .ok a) ∧
    (xs = [] →
      standard.applyBinary "array::concat" a (.array []) = .ok { a with element := none }) := by
  refine ⟨⟨join a b xs ys, join b c ys zs, join (join a b xs ys) c (xs ++ ys) zs,
    applyBinary_concat isLeft isMiddle, applyBinary_concat isMiddle isRight,
    applyBinary_concat (declaredArray_join a b xs ys) isRight, ?_⟩, ?_, fun keeps => ?_, fun empty => ?_⟩
  · rw [join_assoc]
    exact applyBinary_concat isLeft (declaredArray_join b c ys zs)
  · rw [applyBinary_concat declaredArray_empty isLeft, join_empty_left isLeft]
  · have same : (if xs.isEmpty then none else a.element) = a.element := by
      rcases keeps with items | undeclared
      · exact if_neg (by simpa using items)
      · rw [undeclared, ite_self]
    rw [applyBinary_concat isLeft declaredArray_empty, join_empty_right isLeft, same]
  · rw [applyBinary_concat isLeft declaredArray_empty, join_empty_right isLeft, empty]
    rfl

/-! ### An instance

Two arrays with items of different types and tags of their own, and one without items that is declared to
have numbers. -/

namespace Crates

def blank : Value := (Value.arrayOf .number []).withTag "blank"
def words : Value := (Value.array [.string "Ada"]).withTag "name"
def flags : Value := (Value.array [.boolean true]).withTag "flag"

theorem declaredArray_blank : blank.DeclaredArray [] := ⟨rfl, .inl rfl⟩
theorem declaredArray_words : words.DeclaredArray [.string "Ada"] := ⟨rfl, .inr rfl⟩
theorem declaredArray_flags : flags.DeclaredArray [.boolean true] := ⟨rfl, .inr rfl⟩

end Crates

theorem concat_assoc_and_neutral_crates :
    (∃ left right all, standard.applyBinary "array::concat" Crates.blank Crates.words = .ok left ∧
      standard.applyBinary "array::concat" Crates.words Crates.flags = .ok right ∧
      standard.applyBinary "array::concat" left Crates.flags = .ok all ∧
      standard.applyBinary "array::concat" Crates.blank right = .ok all) ∧
    standard.applyBinary "array::concat" Crates.blank (.array []) =
      .ok { Crates.blank with element := none } := by
  obtain ⟨grouped, -, -, loses⟩ := concat_assoc_and_neutral Crates.declaredArray_blank
    Crates.declaredArray_words Crates.declaredArray_flags
  exact ⟨grouped, loses rfl⟩

/-- The array without items that is declared to have numbers is not what comes out if nothing is put
behind it. -/
theorem empty_not_neutral_behind_declared :
    (Value.arrayOf .number []).DeclaredArray [] ∧
      standard.applyBinary "array::concat" (Value.arrayOf .number []) (Value.array []) ≠
        .ok (Value.arrayOf .number []) := by
  have isArray : (Value.arrayOf .number []).DeclaredArray [] := ⟨rfl, .inl rfl⟩
  refine ⟨isArray, fun same => ?_⟩
  rw [applyBinary_concat isArray declaredArray_empty, join_empty_right isArray] at same
  cases congrArg Value.element (Except.ok.inj same)

end Registry

end TagFlow
