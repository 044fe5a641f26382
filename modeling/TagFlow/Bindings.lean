/-!
# Ordered bindings

Named things in an order: a list of pairs, looked up by the first pair of a name. `put` gives a name
a new content in the place of its first pair, or else at the end, so that the order of first
mentions is kept.

Main statements: `lookup_put` (what a name stands for afterwards), `mem_names_put` and
`nodup_names_put` (which names there are, and that no name is there twice if none was before).
-/

namespace TagFlow.Bindings

variable {α : Type}

/-- The names, in order. -/
def names (bindings : List (String × α)) : List String := bindings.map (·.1)

/-- Give a name a content: in place of its first pair, or else at the end. -/
def put (name : String) (content : α) : List (String × α) → List (String × α)
  | [] => [(name, content)]
  | first :: rest =>
    if first.1 = name then (name, content) :: rest else first :: put name content rest

theorem lookup_put (name other : String) (content : α) (bindings : List (String × α)) :
    (put name content bindings).lookup other =
      if name = other then some content else bindings.lookup other := by
  induction bindings with
  | nil =>
    by_cases h : name = other
    · simp [put, h]
    · simp [put, List.lookup_cons, h, beq_eq_false_iff_ne.2 (Ne.symm h)]
  | cons first rest ih =>
    obtain ⟨n, c⟩ := first
    simp only [put]
    split
    · next same =>
      subst same
      by_cases h : n = other
      · simp [h]
      · simp [List.lookup_cons, h, beq_eq_false_iff_ne.2 (Ne.symm h)]
    · next different =>
      by_cases h : other = n
      · subst h
        simp [Ne.symm different]
      · simp [List.lookup_cons, beq_eq_false_iff_ne.2 h, ih]

/-- A name that is not there yet is put at the end. -/
theorem put_of_notMem {name : String} {content : α} : ∀ {bindings : List (String × α)},
    name ∉ names bindings → put name content bindings = bindings ++ [(name, content)]
  | [], _ => rfl
  | first :: rest, new => by
    obtain ⟨different, new⟩ := not_or.1 fun old => new (List.mem_cons.2 old)
    rw [put, if_neg (Ne.symm different), put_of_notMem new]
    rfl

theorem mem_names_put {name other : String} {content : α} {bindings : List (String × α)} :
    other ∈ names (put name content bindings) ↔ other = name ∨ other ∈ names bindings := by
  unfold names
  induction bindings with
  | nil => simp [put]
  | cons first rest ih =>
    simp only [put]
    split
    · next same => simp [← same]
    · simp only [List.map_cons, List.mem_cons, ih]
      exact or_left_comm

theorem nodup_names_put (name : String) (content : α) {bindings : List (String × α)}
    (distinct : (names bindings).Nodup) : (names (put name content bindings)).Nodup := by
  induction bindings with
  | nil => simp [put, names]
  | cons first rest ih =>
    obtain ⟨fresh, distinct⟩ := List.nodup_cons.1 distinct
    simp only [put]
    split
    · next same =>
      subst same
      exact List.nodup_cons.2 ⟨fresh, distinct⟩
    · next different =>
      refine List.nodup_cons.2 ⟨fun m => ?_, ih distinct⟩
      rcases mem_names_put.1 m with m | m
      · exact different m
      · exact fresh m

/-- What a name stands for is bound to it. -/
theorem mem_of_lookup {name : String} {content : α} {bindings : List (String × α)}
    (found : bindings.lookup name = some content) : (name, content) ∈ bindings := by
  obtain ⟨before, after, split, -⟩ := List.lookup_eq_some_iff.1 found
  rw [split]
  exact List.mem_append_right _ List.mem_cons_self

/-- Where all names are different, a name stands for what it is bound to. -/
theorem lookup_of_mem {name : String} {content : α} : ∀ {bindings : List (String × α)},
    (names bindings).Nodup → (name, content) ∈ bindings → bindings.lookup name = some content
  | first :: rest, distinct, isBinding => by
    obtain ⟨new, distinct⟩ := List.nodup_cons.1 distinct
    rcases List.mem_cons.1 isBinding with rfl | isBinding
    · exact List.lookup_cons_self
    · have different : (name == first.1) = false := by
        rw [beq_eq_false_iff_ne]
        rintro rfl
        exact new (List.mem_map_of_mem (f := (·.1)) isBinding)
      rw [List.lookup_cons, different]
      exact lookup_of_mem distinct isBinding

/-- Changing the contents changes just what the names stand for. -/
theorem lookup_map {β : Type} (f : α → β) (name : String) : ∀ bindings : List (String × α),
    (bindings.map fun binding => (binding.1, f binding.2)).lookup name = (bindings.lookup name).map f
  | [] => rfl
  | (other, content) :: rest => by
    rw [List.map_cons, List.lookup_cons, List.lookup_cons]
    cases name == other with
    | true => rfl
    | false => exact lookup_map f name rest

/-- Every name of a list of contents with names stands for something. -/
theorem exists_lookup_zip {name : String} : ∀ {labels : List String} {contents : List α},
    labels.length = contents.length → name ∈ labels →
      ∃ content, (labels.zip contents).lookup name = some content
  | label :: labels, content :: contents, same, isLabel => by
    rw [List.zip_cons_cons, List.lookup_cons]
    cases here : name == label with
    | true => exact ⟨content, rfl⟩
    | false =>
      rcases List.mem_cons.1 isLabel with rfl | isLabel
      · exact absurd here (by simp)
      · exact exists_lookup_zip (Nat.succ.inj same) isLabel

end TagFlow.Bindings
