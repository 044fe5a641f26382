import Mathlib.Data.List.Nodup
import Mathlib.Data.List.Perm.Subperm
import Std.Data.ExtTreeMap

/-!
# Tables by key

What the operations on a table keyed by identifiers or texts do to its view `table[key]?`, and a
bound: keys of a table without repetition are no more than its size.
-/

namespace TagFlow.Table

variable {κ α : Type} [Ord κ] [Std.TransOrd κ] [Std.LawfulEqOrd κ] [DecidableEq κ]

theorem getElem?_insert {table : Std.ExtTreeMap κ α} {key other : κ} {content : α} :
    (table.insert key content)[other]? = if key = other then some content else table[other]? := by
  rw [Std.ExtTreeMap.getElem?_insert]
  simp only [Std.LawfulEqCmp.compare_eq_iff_eq]

theorem getElem?_insert_self {table : Std.ExtTreeMap κ α} {key : κ} {content : α} :
    (table.insert key content)[key]? = some content := by
  rw [getElem?_insert, if_pos rfl]

theorem getElem?_insert_of_ne {table : Std.ExtTreeMap κ α} {key other : κ} {content : α}
    (different : key ≠ other) : (table.insert key content)[other]? = table[other]? := by
  rw [getElem?_insert, if_neg different]

/-- A row with a new key leaves the others alone. -/
theorem getElem?_insert_of_new {table : Std.ExtTreeMap κ α} {key other : κ} {content old : α}
    (new : table[key]? = none) (here : table[other]? = some old) :
    (table.insert key content)[other]? = some old := by
  refine (getElem?_insert_of_ne ?_).trans here
  rintro rfl
  exact absurd (new.symm.trans here) (by simp)

theorem getElem?_erase {table : Std.ExtTreeMap κ α} {key other : κ} :
    (table.erase key)[other]? = if key = other then none else table[other]? := by
  rw [Std.ExtTreeMap.getElem?_erase]
  simp only [Std.LawfulEqCmp.compare_eq_iff_eq]

omit [Std.LawfulEqOrd κ] [DecidableEq κ] in
theorem contains_iff {table : Std.ExtTreeMap κ α} {key : κ} :
    table.contains key = true ↔ ∃ content, table[key]? = some content := by
  rw [Std.ExtTreeMap.contains_eq_isSome_getElem?, Option.isSome_iff_exists]

/-- A key of a table with a new row is the new one or was there before. -/
theorem contains_insert {table : Std.ExtTreeMap κ α} {key other : κ} {content : α}
    (here : (table.insert key content).contains other = true) :
    key = other ∨ table.contains other = true := by
  obtain ⟨found, known⟩ := contains_iff.1 here
  rw [getElem?_insert] at known
  split at known
  · next same => exact .inl same
  · exact .inr (contains_iff.2 ⟨found, known⟩)

omit [DecidableEq κ] in
theorem mem_toList_iff {table : Std.ExtTreeMap κ α} {key : κ} {content : α} :
    (key, content) ∈ table.toList ↔ table[key]? = some content :=
  Std.ExtTreeMap.mem_toList_iff_getElem?_eq_some

omit [Std.LawfulEqOrd κ] [DecidableEq κ] in
/-- Contents are listed in the order of their keys. -/
theorem values_eq_map_toList (table : Std.ExtTreeMap κ α) :
    table.values = table.toList.map (·.2) := by
  have folded : table.values = table.foldr (fun _ content rest => content :: rest) [] := by
    obtain ⟨inner⟩ := table
    induction inner using Std.ExtDTreeMap.inductionOn with
    | mk inner => rfl
  rw [folded, Std.ExtTreeMap.foldr_eq_foldr_toList, List.map_eq_foldr]

omit [DecidableEq κ] in
theorem mem_values_iff {table : Std.ExtTreeMap κ α} {content : α} :
    content ∈ table.values ↔ ∃ key : κ, table[key]? = some content := by
  rw [values_eq_map_toList]
  simp only [List.mem_map, Prod.exists, exists_eq_right, mem_toList_iff]

omit [DecidableEq κ] in
theorem mem_keys_iff {table : Std.ExtTreeMap κ α} {key : κ} :
    key ∈ table.keys ↔ ∃ content, table[key]? = some content := by
  rw [Std.ExtTreeMap.mem_keys, Std.ExtTreeMap.mem_iff_contains, contains_iff]

/-- A row of a table that was filled from a list is in the list, or was there before. -/
theorem mem_of_getElem?_foldl_insert {key : κ} {content : α} : ∀ (rows : List (κ × α))
    {table : Std.ExtTreeMap κ α},
    (rows.foldl (fun t row => t.insert row.1 row.2) table)[key]? = some content →
      (key, content) ∈ rows ∨ table[key]? = some content
  | [], _, found => .inr found
  | row :: rows, table, found => by
    rcases mem_of_getElem?_foldl_insert rows found with later | here
    · exact .inl (List.mem_cons_of_mem _ later)
    · rw [getElem?_insert] at here
      split at here
      · next same =>
        cases here
        exact .inl (same ▸ List.mem_cons_self)
      · exact .inr here

theorem getElem?_foldl_insert_of_notMem {key : κ} : ∀ (rows : List (κ × α))
    {table : Std.ExtTreeMap κ α}, key ∉ rows.map (·.1) →
    (rows.foldl (fun t row => t.insert row.1 row.2) table)[key]? = table[key]?
  | [], _, _ => rfl
  | row :: rows, table, absent => by
    rw [List.map_cons, List.mem_cons, not_or] at absent
    exact (getElem?_foldl_insert_of_notMem rows absent.2).trans
      (getElem?_insert_of_ne (Ne.symm absent.1))

/-- A row of the list is a row of the table that was filled from it, if keys are distinct. -/
theorem getElem?_foldl_insert_of_mem {key : κ} {content : α} : ∀ (rows : List (κ × α))
    {table : Std.ExtTreeMap κ α}, (rows.map (·.1)).Nodup → (key, content) ∈ rows →
    (rows.foldl (fun t row => t.insert row.1 row.2) table)[key]? = some content
  | row :: rows, table, distinct, isRow => by
    rw [List.map_cons, List.nodup_cons] at distinct
    rcases List.mem_cons.1 isRow with rfl | isRow
    · exact (getElem?_foldl_insert_of_notMem rows distinct.1).trans getElem?_insert_self
    · exact getElem?_foldl_insert_of_mem rows distinct.2 isRow

/-- A table that was filled from a list has just the rows of the list, if keys are distinct. -/
theorem getElem?_filled_iff {key : κ} {content : α} {rows : List (κ × α)}
    (distinct : (rows.map (·.1)).Nodup) :
    (rows.foldl (fun t row => t.insert row.1 row.2) (∅ : Std.ExtTreeMap κ α))[key]? =
      some content ↔ (key, content) ∈ rows := by
  constructor
  · intro found
    refine (mem_of_getElem?_foldl_insert rows found).resolve_right ?_
    rw [Std.ExtTreeMap.getElem?_empty]
    intro absent
    cases absent
  · intro isRow
    exact getElem?_foldl_insert_of_mem rows distinct isRow

omit [Std.LawfulEqOrd κ] [DecidableEq κ] in
/-- No key is listed twice. -/
theorem nodup_map_toList (table : Std.ExtTreeMap κ α) : (table.toList.map (·.1)).Nodup := by
  rw [Std.ExtTreeMap.map_fst_toList_eq_keys]
  exact Std.ExtTreeMap.nodup_keys

/-- Filling a table from the rows of another gives the other. -/
theorem foldl_insert_toList (table : Std.ExtTreeMap κ α) :
    table.toList.foldl (fun t row => t.insert row.1 row.2) ∅ = table := by
  apply Std.ExtTreeMap.ext_getElem?
  intro key
  ext content
  exact (getElem?_filled_iff (nodup_map_toList table)).trans mem_toList_iff

/-- What holds of the empty table and is kept by inserting a row holds of every table. -/
theorem induction_insert {motive : Std.ExtTreeMap κ α → Prop} (empty : motive ∅)
    (insert : ∀ table key content, motive table → motive (table.insert key content))
    (table : Std.ExtTreeMap κ α) : motive table := by
  rw [← foldl_insert_toList table]
  have fill : ∀ (rows : List (κ × α)) (table : Std.ExtTreeMap κ α), motive table →
      motive (rows.foldl (fun t row => t.insert row.1 row.2) table) := by
    intro rows
    induction rows with
    | nil => exact fun _ holds => holds
    | cons row rest ih => exact fun table holds => ih _ (insert table row.1 row.2 holds)
  exact fill _ ∅ empty

omit [DecidableEq κ] in
/-- Keys that are all in a table and all different are no more than the table has. -/
theorem length_le_size {table : Std.ExtTreeMap κ α} {keys : List κ} (distinct : keys.Nodup)
    (present : ∀ key ∈ keys, ∃ content, table[key]? = some content) :
    keys.length ≤ table.size := by
  have inTable : keys ⊆ table.keys := fun key isKey => mem_keys_iff.2 (present key isKey)
  calc keys.length ≤ table.keys.length := (List.subperm_of_subset distinct inTable).length_le
    _ = table.size := Std.ExtTreeMap.length_keys

end TagFlow.Table
