import Std.Data.ExtTreeSet
import TagFlow.Value.Raw

/-!
# Tagged values

A value is a payload with an optional *element type* (meant for arrays) and a set of provenance
*tags*. Tags are a set: a value derived from others carries the union of their tags, and no tag
counts twice.

Main statements: `mem_tags_derivedFrom` (what a derived value carries), `raw_derivedFrom` and
`element_derivedFrom` (nothing else changes).
-/

namespace TagFlow

/-- A provenance tag. -/
abbrev Tag := String

/-- A set of tags; listed in the order of their texts. -/
abbrev TagSet := Std.ExtTreeSet Tag

/-- The tag of everything that derives from a source that need not give the same value twice. -/
def Tag.nonDeterministic : Tag := "non-deterministic"

/-- A payload with its element type and its tags. -/
structure Value where
  raw : Raw
  element : Option BaseType
  tags : TagSet

namespace Value

/-- An array whose element type is the common element of its items. -/
def array (items : List Raw) : Value := ⟨.array items, Raw.commonElement items, ∅⟩

/-- An array with a declared element type, which is not checked against the items. -/
def arrayOf (element : BaseType) (items : List Raw) : Value := ⟨.array items, some element, ∅⟩

/-- A payload as a value without tags. -/
def ofRaw : Raw → Value
  | .array items => array items
  | raw => ⟨raw, none, ∅⟩

def number (n : Float) : Value := ofRaw (.number n)
def string (s : String) : Value := ofRaw (.string s)
def boolean (b : Bool) : Value := ofRaw (.boolean b)
def null : Value := ofRaw .null

/-- An array with the given element type, or the common element of its items where none is
given. -/
def arrayWith (element : Option BaseType) (items : List Raw) : Value :=
  match element with
  | some ty => arrayOf ty items
  | none => array items

/-- Add one tag. -/
def withTag (v : Value) (tag : Tag) : Value := { v with tags := v.tags.insert tag }

/-- Add the tags of every source. -/
def derivedFrom (v : Value) (sources : List Value) : Value :=
  { v with tags := sources.foldl (fun tags source => tags ∪ source.tags) v.tags }

/-- The base type of a value is that of its payload. -/
def baseType (v : Value) : BaseType := v.raw.baseType

def isNonDeterministic (v : Value) : Bool := v.tags.contains Tag.nonDeterministic

/-! ### Reading a payload -/

def asNumber? (v : Value) : Option Float :=
  match v.raw with
  | .number n => some n
  | _ => none

def asString? (v : Value) : Option String :=
  match v.raw with
  | .string s => some s
  | _ => none

def asBool? (v : Value) : Option Bool :=
  match v.raw with
  | .boolean b => some b
  | _ => none

def asArray? (v : Value) : Option (List Raw) :=
  match v.raw with
  | .array items => some items
  | _ => none

/-! ### Comparison and text -/

/-- Two values agree: their payloads agree, and element types and tags are the same. -/
def agrees (v w : Value) : Bool :=
  v.raw == w.raw && v.element == w.element && v.tags == w.tags

instance : BEq Value := ⟨agrees⟩

/-- The payload, followed by the tags in braces where there are any. -/
def text (v : Value) : String :=
  if v.tags.isEmpty then v.raw.text
  else v.raw.text ++ " \x7b" ++ ", ".intercalate v.tags.toList ++ "\x7d"

/-! ### What the operations do to the parts -/

@[simp] theorem raw_derivedFrom (v : Value) (sources : List Value) :
    (v.derivedFrom sources).raw = v.raw := rfl

@[simp] theorem element_derivedFrom (v : Value) (sources : List Value) :
    (v.derivedFrom sources).element = v.element := rfl

@[simp] theorem baseType_derivedFrom (v : Value) (sources : List Value) :
    (v.derivedFrom sources).baseType = v.baseType := rfl

/-- A derived value carries its own tags and those of its sources. -/
theorem mem_tags_derivedFrom {v : Value} {sources : List Value} {tag : Tag} :
    tag ∈ (v.derivedFrom sources).tags ↔ tag ∈ v.tags ∨ ∃ s ∈ sources, tag ∈ s.tags := by
  have fold : ∀ (sources : List Value) (tags : TagSet),
      tag ∈ sources.foldl (fun tags source => tags ∪ source.tags) tags ↔
        tag ∈ tags ∨ ∃ s ∈ sources, tag ∈ s.tags := by
    intro sources
    induction sources with
    | nil => intro tags; simp
    | cons s rest ih =>
      intro tags
      rw [List.foldl_cons, ih, Std.ExtTreeSet.mem_union_iff]
      simp only [List.mem_cons, exists_eq_or_imp]
      exact or_assoc
  exact fold sources v.tags

@[simp] theorem baseType_ofRaw (raw : Raw) : (ofRaw raw).baseType = raw.baseType := by
  cases raw <;> rfl

@[simp] theorem raw_ofRaw (raw : Raw) : (ofRaw raw).raw = raw := by
  cases raw <;> rfl

@[simp] theorem tags_ofRaw (raw : Raw) : (ofRaw raw).tags = ∅ := by
  cases raw <;> rfl

@[simp] theorem raw_arrayWith (element : Option BaseType) (items : List Raw) :
    (arrayWith element items).raw = .array items := by
  cases element <;> rfl

@[simp] theorem tags_arrayWith (element : Option BaseType) (items : List Raw) :
    (arrayWith element items).tags = ∅ := by
  cases element <;> rfl

end Value

end TagFlow
