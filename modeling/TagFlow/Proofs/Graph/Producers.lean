import TagFlow.Graph.Context
import TagFlow.Proofs.Table

/-!
# The index of producers

The index of a graph is *exact* when it names only functions that do write the value, and names one
for every value that some function writes. Every graph that the operations lead to has an exact
index (`Reachable.indexExact`), in whatever order functions are inserted, replaced and removed.

Where no two functions write the same value, an exact index answers with the one that does
(`IndexExact.producerOf?_returns`). `Reachable.index_agrees_with_functions` says the same of every
history without names for its parts, and what inserting a function does to the index.
-/

namespace TagFlow.Context

/-- The graphs that the operations on graphs lead to. -/
inductive Reachable : Context → Prop
  | empty : Reachable .empty
  | insertValue {c} (id value) : Reachable c → Reachable (c.insertValue id value)
  | removeValue {c} (id) : Reachable c → Reachable (c.removeValue id)
  | setValues {c} (values) : Reachable c → Reachable (c.setValues values)
  | insertFunction {c} (id entry) : Reachable c → Reachable (c.insertFunction id entry)
  | removeFunction {c} (id) : Reachable c → Reachable (c.removeFunction id)
  | insertCombine {c} (id d) : Reachable c → Reachable (c.insertCombine id d)
  | insertPipe {c} (id d) : Reachable c → Reachable (c.insertPipe id d)
  | insertCond {c} (id d) : Reachable c → Reachable (c.insertCond id d)
  | removeDefinition {c} (id) : Reachable c → Reachable (c.removeDefinition id)

/-- A function of the table writes a value. -/
def Writes (c : Context) (function : FunctionId) (value : ValueId) : Prop :=
  ∃ entry, c.functions[function]? = some entry ∧ entry.returns = value

/-- The index and the function table say the same. -/
structure IndexExact (c : Context) : Prop where
  writes : ∀ {value function}, c.producerOf? value = some function → c.Writes function value
  indexed : ∀ {value function}, c.Writes function value →
    ∃ producer, c.producerOf? value = some producer

/-- No two functions write the same value. -/
def DistinctReturns (c : Context) : Prop :=
  ∀ {value function other}, c.Writes function value → c.Writes other value → function = other

variable {c : Context} {function other : FunctionId} {value : ValueId} {entry : FunctionEntry}

theorem writes_of_getElem? (known : c.functions[function]? = some entry) :
    c.Writes function entry.returns := ⟨entry, known, rfl⟩

theorem mem_writers : function ∈ c.writers value ↔ c.Writes function value := by
  unfold writers Writes
  simp only [List.mem_map, List.mem_filter, Prod.exists, exists_and_right, exists_eq_right,
    Table.mem_toList_iff, beq_iff_eq]

namespace IndexExact

/-- Where only one function writes a value, the index names that one. -/
theorem producerOf?_returns (exact : c.IndexExact) (distinct : c.DistinctReturns)
    (known : c.functions[function]? = some entry) :
    c.producerOf? entry.returns = some function := by
  obtain ⟨producer, h⟩ := exact.indexed (writes_of_getElem? known)
  rw [h, distinct (exact.writes h) (writes_of_getElem? known)]

theorem not_writes (exact : c.IndexExact) (unproduced : c.producerOf? value = none) :
    ¬ c.Writes function value := by
  intro w
  obtain ⟨producer, h⟩ := exact.indexed w
  rw [unproduced] at h
  cases h

end IndexExact

/-! ### Taking a value away from its producer

While a function is being replaced or removed, the index may still name it for a value that it no
longer writes, and the value that it writes now may not be indexed yet. -/

theorem producerOf?_unlinkProducer_of_ne {different : ValueId} (h : value ≠ different) :
    (c.unlinkProducer function value).producerOf? different = c.producerOf? different := by
  unfold unlinkProducer producerOf?
  split
  · split
    · exact Table.getElem?_insert_of_ne h
    · exact Table.getElem?_erase.trans (if_neg h)
  · rfl

theorem producerOf?_unlinkProducer_of_named (named : c.producerOf? value = some function) :
    (c.unlinkProducer function value).producerOf? value = (c.writers value).getLast? := by
  have named' : c.producers[value]? = some function := named
  unfold unlinkProducer producerOf?
  rw [if_pos named']
  split
  · next writer last => exact Table.getElem?_insert_self.trans last.symm
  · next last => exact (Table.getElem?_erase.trans (if_pos rfl)).trans last.symm

@[simp] theorem functions_unlinkProducer :
    (c.unlinkProducer function value).functions = c.functions := by
  unfold unlinkProducer
  split
  · split <;> rfl
  · rfl

@[simp] theorem writes_unlinkProducer {owner : FunctionId} {written : ValueId} :
    (c.unlinkProducer function value).Writes owner written ↔ c.Writes owner written := by
  unfold Writes
  rw [functions_unlinkProducer]

/-- Afterwards the index names a function only for what it writes, if before it did so for all but
the one value. -/
theorem writes_of_unlinkProducer
    (before : ∀ {v f}, c.producerOf? v = some f → c.Writes f v ∨ (v = value ∧ f = function))
    {written : ValueId} {owner : FunctionId}
    (h : (c.unlinkProducer function value).producerOf? written = some owner) :
    c.Writes owner written := by
  by_cases same : value = written
  · subst same
    by_cases named : c.producerOf? value = some function
    · rw [producerOf?_unlinkProducer_of_named named] at h
      exact mem_writers.1 (List.mem_of_getLast? h)
    · have unchanged : c.unlinkProducer function value = c := if_neg named
      rw [unchanged] at h
      rcases before h with w | ⟨-, rfl⟩
      · exact w
      · exact absurd h named
  · rw [producerOf?_unlinkProducer_of_ne same] at h
    rcases before h with w | ⟨rfl, -⟩
    · exact w
    · exact absurd rfl same

/-- A value that was indexed and is still written stays indexed. -/
theorem indexed_unlinkProducer {written : ValueId} {owner : FunctionId}
    (w : c.Writes owner written) (before : ∃ f, c.producerOf? written = some f) :
    ∃ f, (c.unlinkProducer function value).producerOf? written = some f := by
  by_cases same : value = written
  · subst same
    by_cases named : c.producerOf? value = some function
    · rw [producerOf?_unlinkProducer_of_named named]
      exact ⟨_, List.getLast?_eq_some_getLast (List.ne_nil_of_mem (mem_writers.2 w))⟩
    · have unchanged : c.unlinkProducer function value = c := if_neg named
      rwa [unchanged]
  · rwa [producerOf?_unlinkProducer_of_ne same]

/-! ### Inserting and removing functions -/

/-- Inserting a function touches the function table and the index alone. -/
theorem exists_insertFunction (c : Context) (function : FunctionId) (entry : FunctionEntry) :
    ∃ producers, c.insertFunction function entry =
      { c with functions := c.functions.insert function entry, producers := producers } := by
  unfold insertFunction
  split
  · exact ⟨_, rfl⟩
  · unfold unlinkProducer
    split
    · split <;> exact ⟨_, rfl⟩
    · exact ⟨_, rfl⟩

theorem writes_putFunction :
    (c.putFunction function entry).Writes other value ↔
      if function = other then entry.returns = value else c.Writes other value := by
  unfold Writes putFunction
  rw [Table.getElem?_insert]
  split
  · simp
  · rfl

theorem IndexExact.linkProducer {c : Context}
    (writes : ∀ {v f}, c.producerOf? v = some f → c.Writes f v)
    (indexed : ∀ {v f}, c.Writes f v → v = value ∨ ∃ g, c.producerOf? v = some g)
    (written : c.Writes function value) : (c.linkProducer function value).IndexExact where
  writes {v f} h := by
    rw [producerOf?_linkProducer] at h
    split at h
    · next same =>
      cases h
      exact same ▸ written
    · exact writes h
  indexed {v f} w := by
    rw [producerOf?_linkProducer]
    split
    · exact ⟨function, rfl⟩
    · next different =>
      rcases indexed w with rfl | found
      · exact absurd rfl different
      · exact found

theorem IndexExact.insertFunction (exact : c.IndexExact) :
    (c.insertFunction function entry).IndexExact := by
  have ownWrite : (c.putFunction function entry).Writes function entry.returns :=
    writes_putFunction.2 (by rw [if_pos rfl])
  have indexedElsewhere : ∀ {v f}, (c.putFunction function entry).Writes f v →
      v = entry.returns ∨ ∃ g, (c.putFunction function entry).producerOf? v = some g := by
    intro v f w
    rw [writes_putFunction] at w
    split at w
    · exact .inl w.symm
    · exact .inr (exact.indexed w)
  unfold Context.insertFunction
  split
  · next new =>
    refine IndexExact.linkProducer (fun {v f} h => ?_) indexedElsewhere ownWrite
    have w : c.Writes f v := exact.writes h
    rw [writes_putFunction, if_neg]
    · exact w
    · rintro rfl
      obtain ⟨old, known, -⟩ := w
      rw [new] at known
      cases known
  · next previous known =>
    -- the index may still name the function for what its previous entry wrote
    refine IndexExact.linkProducer (fun {v f} h => ?_) (fun {v f} w => ?_)
      (writes_unlinkProducer.2 ownWrite)
    · refine writes_unlinkProducer.2 (writes_of_unlinkProducer (fun {v f} named => ?_) h)
      have w : c.Writes f v := exact.writes named
      rw [writes_putFunction]
      split
      · next same =>
        subst same
        obtain ⟨old, h, rfl⟩ := w
        rw [known] at h
        cases h
        exact .inr ⟨rfl, rfl⟩
      · exact .inl w
    · rcases indexedElsewhere (writes_unlinkProducer.1 w) with same | found
      · exact .inl same
      · exact .inr (indexed_unlinkProducer (writes_unlinkProducer.1 w) found)

theorem IndexExact.removeFunction (exact : c.IndexExact) :
    (c.removeFunction function).IndexExact := by
  unfold Context.removeFunction
  split
  · exact exact
  · next entry known =>
    let rest : Context := { c with functions := c.functions.erase function }
    have writes_rest : ∀ {f v}, rest.Writes f v ↔ function ≠ f ∧ c.Writes f v := by
      intro f v
      show (∃ entry, (c.functions.erase function)[f]? = some entry ∧ entry.returns = v) ↔ _
      rw [Table.getElem?_erase]
      split
      · next same => simp [same]
      · next different => exact ⟨fun w => ⟨different, w⟩, fun w => w.2⟩
    refine ⟨fun {v f} h => ?_, fun {v f} w => ?_⟩
    · refine writes_unlinkProducer.2 (writes_of_unlinkProducer (fun {v f} named => ?_) h)
      have w : c.Writes f v := exact.writes named
      -- unlinking drops the index only where it names the function that is removed
      by_cases same : function = f
      · subst same
        obtain ⟨old, h, rfl⟩ := w
        rw [known] at h
        cases h
        exact .inr ⟨rfl, rfl⟩
      · exact .inl (writes_rest.2 ⟨same, w⟩)
    · have w := writes_unlinkProducer.1 w
      exact indexed_unlinkProducer w (exact.indexed (writes_rest.1 w).2)

/-- Every graph that the operations lead to has an exact index. -/
theorem Reachable.indexExact (reached : c.Reachable) : c.IndexExact := by
  induction reached with
  | empty =>
    have noFunction : ∀ {f v}, ¬ Context.empty.Writes f v := by
      rintro f v ⟨entry, known, -⟩
      have none : Context.empty.functions[f]? = none := Std.ExtTreeMap.getElem?_empty
      rw [none] at known
      cases known
    exact ⟨fun h => absurd (Std.ExtTreeMap.getElem?_empty.symm.trans h) (by simp),
      fun w => absurd w noFunction⟩
  | insertValue _ _ _ ih | removeValue _ _ ih | setValues _ _ ih | insertCombine _ _ _ ih
  | insertPipe _ _ _ ih | insertCond _ _ _ ih => exact ⟨ih.writes, ih.indexed⟩
  | insertFunction _ _ _ ih => exact ih.insertFunction
  | removeFunction _ _ ih => exact ih.removeFunction
  | removeDefinition id _ ih => cases id <;> exact ⟨ih.writes, ih.indexed⟩

/-! ### What the index answers -/

/-- A value resolves if it is a row, or if some function writes it. -/
theorem IndexExact.resolves_iff (exact : c.IndexExact) :
    c.resolves value = true ↔
      (∃ content, c.values[value]? = some content) ∨ ∃ function, c.Writes function value := by
  unfold resolves
  rw [Bool.or_eq_true, Table.contains_iff, Table.contains_iff]
  apply or_congr_right
  constructor
  · rintro ⟨function, produced⟩
    exact ⟨function, exact.writes produced⟩
  · rintro ⟨function, writes⟩
    exact exact.indexed writes

/-- Inserting a function leaves alone the producers of all values but the one that the function
writes now and the one that it wrote before. -/
theorem producerOf?_insertFunction_of_ne (now : entry.returns ≠ value)
    (before : ∀ previous, c.functions[function]? = some previous → previous.returns ≠ value) :
    (c.insertFunction function entry).producerOf? value = c.producerOf? value := by
  unfold insertFunction
  split
  · rw [producerOf?_linkProducer, if_neg now]
    rfl
  · next previous known =>
    rw [producerOf?_linkProducer, if_neg now,
      producerOf?_unlinkProducer_of_ne (before previous known)]
    rfl

/-- Whatever has been inserted, replaced and removed, and in whatever order: the producer of a value is
a function of the table that writes it, and a value without a producer is written by none; so a value
resolves just if it is a row or is written by a function. A function that is inserted next becomes the
producer of what it writes; but for that value and the one that it wrote before, all producers stay. -/
theorem Reachable.index_agrees_with_functions (reached : c.Reachable) :
    (∀ value function, c.producerOf? value = some function → c.Writes function value) ∧
    (∀ value, c.producerOf? value = none → ∀ function, ¬ c.Writes function value) ∧
    (∀ value, c.resolves value = true ↔
      (∃ content, c.values[value]? = some content) ∨ ∃ function, c.Writes function value) ∧
    ∀ function entry,
      (c.insertFunction function entry).producerOf? entry.returns = some function ∧
      ∀ value, entry.returns ≠ value →
        (∀ previous, c.functions[function]? = some previous → previous.returns ≠ value) →
        (c.insertFunction function entry).producerOf? value = c.producerOf? value := by
  have exact := reached.indexExact
  refine ⟨fun _ _ => exact.writes, fun _ unproduced _ => exact.not_writes unproduced,
    fun _ => exact.resolves_iff, fun function entry => ⟨?_, fun value now before => ?_⟩⟩
  · exact producerOf?_insertFunction_self c function entry
  · exact producerOf?_insertFunction_of_ne now before

/-! ### An instance

Two functions write the same value; the one that is its producer is then replaced by an entry that
writes another one, so that the value goes back to the first function. -/

namespace HandOver

def shared : ValueId := ⟨"v:shared", by decide⟩
def own : ValueId := ⟨"v:own", by decide⟩
def first : FunctionId := ⟨"f:first", by decide⟩
def second : FunctionId := ⟨"f:second", by decide⟩
def anything : CombineId := ⟨"cd:anything", by decide⟩

/-- An entry that writes this value. -/
def writing (returns : ValueId) : FunctionEntry := .combine anything .empty returns

end HandOver

open HandOver in
def handedOver : Context :=
  empty.insertFunction first (writing shared)
    |>.insertFunction second (writing shared)
    |>.insertFunction second (writing own)

open HandOver in
theorem index_agrees_with_functions_handedOver :
    handedOver.Reachable ∧ handedOver.producerOf? shared = some first ∧
      handedOver.Writes first shared ∧ handedOver.Writes second own ∧
      (handedOver.removeFunction first).Reachable ∧
      ∀ function, ¬ (handedOver.removeFunction first).Writes function shared := by
  have reached : handedOver.Reachable :=
    .insertFunction _ _ <| .insertFunction _ _ <| .insertFunction _ _ .empty
  have removed : (handedOver.removeFunction first).Reachable := .removeFunction _ reached
  obtain ⟨writes, -⟩ := reached.index_agrees_with_functions
  obtain ⟨-, unwritten, -⟩ := removed.index_agrees_with_functions
  have given : handedOver.producerOf? shared = some first := by decide +kernel
  exact ⟨reached, given, writes _ _ given, writes own second (by decide +kernel), removed,
    unwritten shared (by decide +kernel)⟩

end TagFlow.Context
