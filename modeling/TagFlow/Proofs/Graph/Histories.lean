import TagFlow.Proofs.Graph.Producers

/-!
# Graphs with a history

The operations lead to all graphs whose index is exact, and to no others (`reachable_iff_indexExact`).

What a history must get right is which of several writers of a value the index names. Whoever is
inserted last is named, so a graph is built again by inserting the functions that its index does not
name first, and then those that it names (`producers_rebuilt`).
-/

namespace TagFlow.Context

variable {c : Context} {value : ValueId} {owner : FunctionId}

/-! ### Inserting functions one after the other -/

def insertFunctions (c : Context) (rows : List (FunctionId × FunctionEntry)) : Context :=
  rows.foldl (fun c row => c.insertFunction row.1 row.2) c

theorem insertFunctions_append (rows others : List (FunctionId × FunctionEntry)) :
    c.insertFunctions (rows ++ others) = (c.insertFunctions rows).insertFunctions others :=
  List.foldl_append ..

theorem Reachable.insertFunctions (reached : c.Reachable) :
    ∀ rows : List (FunctionId × FunctionEntry), (c.insertFunctions rows).Reachable := by
  intro rows
  induction rows generalizing c with
  | nil => exact reached
  | cons row rest ih => exact ih (reached.insertFunction row.1 row.2)

/-- Only the function table and the index change. -/
theorem exists_insertFunctions : ∀ (rows : List (FunctionId × FunctionEntry)) (c : Context),
    ∃ producers, c.insertFunctions rows =
      { c with
        functions := rows.foldl (fun t row => t.insert row.1 row.2) c.functions
        producers := producers }
  | [], c => ⟨c.producers, rfl⟩
  | row :: rest, c => by
    obtain ⟨first, here⟩ := c.exists_insertFunction row.1 row.2
    obtain ⟨producers, later⟩ := exists_insertFunctions rest (c.insertFunction row.1 row.2)
    refine ⟨producers, later.trans ?_⟩
    rw [here]
    rfl

/-- Where only one of the functions writes a value, the index names it once it is inserted, and keeps
naming it. -/
theorem producerOf?_insertFunctions : ∀ {rows : List (FunctionId × FunctionEntry)} {c : Context},
    (rows.map (·.1)).Nodup → (∀ row ∈ rows, c.functions[row.1]? = none) →
    (∀ row ∈ rows, row.2.returns = value → row.1 = owner) →
    (c.producerOf? value = some owner ∨ ∃ row ∈ rows, row.2.returns = value) →
      (c.insertFunctions rows).producerOf? value = some owner
  | [], c, _, _, _, named => by
    rcases named with named | ⟨_, isRow, _⟩
    · exact named
    · cases isRow
  | row :: rest, c, distinct, new, only, named => by
    obtain ⟨apart, distinct⟩ := List.nodup_cons.1 distinct
    obtain ⟨_, here⟩ := c.exists_insertFunction row.1 row.2
    show ((c.insertFunction row.1 row.2).insertFunctions rest).producerOf? value = some owner
    refine producerOf?_insertFunctions distinct (fun other isRest => ?_)
      (fun other isRest => only other (List.mem_cons_of_mem _ isRest)) ?_
    · rw [here]
      refine (Table.getElem?_insert_of_ne ?_).trans (new other (List.mem_cons_of_mem _ isRest))
      exact fun same => apart (List.mem_map.2 ⟨other, isRest, same.symm⟩)
    · by_cases writes : row.2.returns = value
      · rw [← writes, ← only row List.mem_cons_self writes]
        exact .inl (producerOf?_insertFunction_self c row.1 row.2)
      · rw [producerOf?_insertFunction_new (new row List.mem_cons_self) writes]
        refine named.imp_right ?_
        rintro ⟨other, isRow, writes'⟩
        rcases List.mem_cons.1 isRow with rfl | isRest
        · exact absurd writes' writes
        · exact ⟨other, isRest, writes'⟩

/-! ### Building a graph again -/

/-- The index names the function of this row for what the row says that it writes. -/
def names (c : Context) (row : FunctionId × FunctionEntry) : Bool :=
  c.producerOf? row.2.returns = some row.1

/-- The functions of a graph, those last that its index names. -/
def insertionOrder (c : Context) : List (FunctionId × FunctionEntry) :=
  c.functions.toList.filter (! c.names ·) ++ c.functions.toList.filter c.names

theorem perm_insertionOrder (c : Context) : c.insertionOrder.Perm c.functions.toList :=
  List.perm_append_comm.trans (List.filter_append_perm c.names c.functions.toList)

theorem nodup_insertionOrder (c : Context) : (c.insertionOrder.map (·.1)).Nodup := by
  rw [(c.perm_insertionOrder.map _).nodup_iff]
  exact Table.nodup_map_toList c.functions

/-- Rows and definitions left aside, the graph that is built again. -/
def rebuilt (c : Context) : Context := empty.insertFunctions c.insertionOrder

theorem reachable_rebuilt (c : Context) : c.rebuilt.Reachable :=
  Reachable.empty.insertFunctions c.insertionOrder

theorem functions_rebuilt : c.rebuilt.functions = c.functions := by
  obtain ⟨producers, same⟩ := exists_insertFunctions c.insertionOrder empty
  apply Std.ExtTreeMap.ext_getElem?
  intro id
  ext entry
  rw [show c.rebuilt = _ from same]
  refine (Table.getElem?_filled_iff c.nodup_insertionOrder).trans ?_
  rw [← Table.mem_toList_iff]
  exact c.perm_insertionOrder.mem_iff

/-- The owner of a value is the last function to be inserted that writes it. -/
theorem producerOf?_rebuilt {entry : FunctionEntry} (known : c.functions[owner]? = some entry)
    (produced : c.producerOf? entry.returns = some owner) :
    c.rebuilt.producerOf? entry.returns = some owner := by
  have distinct := c.nodup_insertionOrder
  unfold insertionOrder at distinct
  rw [List.map_append, List.nodup_append] at distinct
  obtain ⟨-, distinct, apart⟩ := distinct
  have isOwner : (owner, entry) ∈ c.functions.toList.filter c.names :=
    List.mem_filter.2 ⟨Table.mem_toList_iff.2 known, decide_eq_true produced⟩
  unfold rebuilt insertionOrder
  rw [insertFunctions_append]
  refine producerOf?_insertFunctions distinct (fun row isRow => ?_) (fun row isRow writes => ?_)
    (.inr ⟨_, isOwner, rfl⟩)
  · -- what was inserted before has other identifiers
    obtain ⟨producers, same⟩ :=
      exists_insertFunctions (c.functions.toList.filter (! c.names ·)) empty
    rw [same]
    refine (Table.getElem?_foldl_insert_of_notMem _ fun old => ?_).trans
      Std.ExtTreeMap.getElem?_empty
    exact apart _ old _ (List.mem_map_of_mem isRow) rfl
  · have names := of_decide_eq_true (List.mem_filter.1 isRow).2
    rw [writes, produced] at names
    exact (Option.some.inj names).symm

/-- An exact index is that of the graph which is built again. -/
theorem producers_rebuilt (exact : c.IndexExact) : c.rebuilt.producers = c.producers := by
  have exact' := c.reachable_rebuilt.indexExact
  apply Std.ExtTreeMap.ext_getElem?
  intro value
  show c.rebuilt.producerOf? value = c.producerOf? value
  cases produced : c.producerOf? value with
  | none =>
    rw [Option.eq_none_iff_forall_ne_some]
    intro function again
    obtain ⟨entry, known, returns⟩ := exact'.writes again
    rw [functions_rebuilt] at known
    exact exact.not_writes produced ⟨entry, known, returns⟩
  | some owner =>
    obtain ⟨entry, known, rfl⟩ := exact.writes produced
    exact producerOf?_rebuilt known produced

/-- The operations lead to just the graphs whose index is exact. -/
theorem reachable_iff_indexExact : c.Reachable ↔ c.IndexExact := by
  refine ⟨Reachable.indexExact, fun exact => ?_⟩
  have functions : Reachable ⟨∅, c.functions, ∅, ∅, ∅, c.producers⟩ := by
    obtain ⟨producers, same⟩ := exists_insertFunctions c.insertionOrder empty
    have fields : c.rebuilt = ⟨∅, c.rebuilt.functions, ∅, ∅, ∅, c.rebuilt.producers⟩ := by
      rw [show c.rebuilt = _ from same]
      rfl
    rw [← functions_rebuilt, ← producers_rebuilt exact, ← fields]
    exact c.reachable_rebuilt
  have combines : Reachable ⟨∅, c.functions, c.combines, ∅, ∅, c.producers⟩ :=
    Table.induction_insert (motive := fun table => Reachable ⟨∅, c.functions, table, ∅, ∅, c.producers⟩)
      functions (fun _ id d reached => reached.insertCombine id d) c.combines
  have pipes : Reachable ⟨∅, c.functions, c.combines, c.pipes, ∅, c.producers⟩ :=
    Table.induction_insert
      (motive := fun table => Reachable ⟨∅, c.functions, c.combines, table, ∅, c.producers⟩)
      combines (fun _ id d reached => reached.insertPipe id d) c.pipes
  have conds : Reachable ⟨∅, c.functions, c.combines, c.pipes, c.conds, c.producers⟩ :=
    Table.induction_insert
      (motive := fun table => Reachable ⟨∅, c.functions, c.combines, c.pipes, table, c.producers⟩)
      pipes (fun _ id d reached => reached.insertCond id d) c.conds
  exact conds.setValues c.values

end TagFlow.Context
