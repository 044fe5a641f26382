import Std.Data.ExtTreeMap
import TagFlow.Id
import TagFlow.Value.Basic

/-!
# Value tables

A value table maps value identifiers to values. Tables are values themselves: an operation gives a
new table and leaves the old one as it was. Two tables with the same rows are equal, and rows are
listed in the order of their identifiers.

The view of a table is `table[id]?`; `getElem?_insert`, `getElem?_erase` and `getElem?_merged` say
what each operation does to it.
-/

namespace TagFlow

/-- Rows of values by identifier. -/
abbrev ValueTable := Std.ExtTreeMap ValueId Value

namespace ValueTable

/-- The rows of both tables; where both have a row, that of the second. -/
def merged (table other : ValueTable) : ValueTable :=
  other.foldl (fun table id value => table.insert id value) table

/-- Collect rows into a table; a later row replaces an earlier one. -/
def ofRows (rows : List (ValueId × Value)) : ValueTable :=
  rows.foldl (fun table row => table.insert row.1 row.2) ∅

/-- Two tables agree: they have the same rows and agreeing values in them. -/
def agrees (table other : ValueTable) : Bool := table == other

theorem getElem?_insert {table : ValueTable} {id other : ValueId} {value : Value} :
    (table.insert id value)[other]? = if id = other then some value else table[other]? := by
  rw [Std.ExtTreeMap.getElem?_insert]
  simp only [Std.LawfulEqCmp.compare_eq_iff_eq]

theorem getElem?_erase {table : ValueTable} {id other : ValueId} :
    (table.erase id)[other]? = if id = other then none else table[other]? := by
  rw [Std.ExtTreeMap.getElem?_erase]
  simp only [Std.LawfulEqCmp.compare_eq_iff_eq]

end ValueTable

end TagFlow
