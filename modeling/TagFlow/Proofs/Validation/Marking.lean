import Mathlib.Data.Finset.Card
import TagFlow.Proofs.Validation.References
import TagFlow.Validation.Check

/-!
# Marking what is referenced

References can be collected in one pass: go through the functions and the conds in whatever order the
tables give them, mark what each of them refers to, and go into a pipe when it is marked for the first
time (`Context.markReferences`). The values that the steps of a pipe read are marked on the way, so the
search is cut off at a pipe that was marked before, whether or not all of its steps have been seen yet.

Nothing is lost by that. What is marked in the end is just what the functions refer to, directly or
through steps inside of steps (`Context.mem_definitions_mark_iff`, `Context.mem_values_mark_iff`): every
use inside of a marked pipe has been marked itself or still waits (`Context.Pending`). So the order does
not matter, and the warnings that come of the pass are those of validation, one for each row and each
definition that nothing refers to (`Context.warnings_are_unreachable`).
-/

namespace TagFlow

/-! ### The order of definitions -/

namespace DefinitionId

/-- Combines come first, then pipes, then conds. -/
def rank : DefinitionId → Nat
  | combine _ => 0
  | pipe _ => 1
  | cond _ => 2

/-- Definitions are listed by kind, and within a kind by their texts. -/
def order : DefinitionId → DefinitionId → Ordering :=
  compareLex (compareOn rank) (compareOn text)

instance : Std.TransCmp order :=
  inferInstanceAs (Std.TransCmp (compareLex (compareOn rank) (compareOn text)))

instance : Std.LawfulEqCmp order where
  eq_of_compare {a b} same := by
    obtain ⟨kinds, texts⟩ := Ordering.then_eq_eq.1 same
    have kinds : a.rank = b.rank := Std.LawfulEqCmp.eq_of_compare kinds
    have texts : a.text = b.text := Std.LawfulEqCmp.eq_of_compare texts
    cases a <;> cases b <;>
      first
        | exact congrArg _ (Id.ext_text texts)
        | cases kinds

end DefinitionId

/-- Sorting gives the same whatever order the items come in. -/
theorem mergeSort_eq_of_perm {α : Type} {order : α → α → Ordering} [Std.TransCmp order]
    [Std.LawfulEqCmp order] {items sorted : List α} (perm : items.Perm sorted)
    (isSorted : sorted.Pairwise fun a b => order a b = .lt) :
    (items.mergeSort fun a b => (order a b).isLE) = sorted := by
  have total : ∀ a b, ((order a b).isLE || (order b a).isLE) = true := by
    intro a b
    have swap : order b a = (order a b).swap := Std.OrientedCmp.eq_swap
    rw [swap]
    cases order a b <;> rfl
  have sorts : (items.mergeSort fun a b => (order a b).isLE).Pairwise fun a b => (order a b).isLE :=
    List.pairwise_mergeSort (fun _ _ _ => Std.TransCmp.isLE_trans) total items
  refine List.Perm.eq_of_pairwise ?_ sorts (isSorted.imp fun before => by rw [before]; rfl)
    ((List.mergeSort_perm ..).trans perm)
  exact fun a b _ _ le ge => Std.LawfulEqCmp.eq_of_compare (Std.OrientedCmp.isLE_antisymm le ge)

/-! ### The pass -/

/-- What a function or a step refers to: the values of the table that it reads, and the definition that
it runs. -/
structure Use where
  reads : List ValueId
  runs : DefinitionId

def FunctionEntry.use (entry : FunctionEntry) : Use := ⟨entry.args.values, entry.definition⟩

def PipeStep.use (step : PipeStep) : Use where
  reads := step.args.filterMap fun arg =>
    match arg.2 with
    | .value id => some id
    | _ => none
  runs := step.body.definition

/-- What has been marked. -/
structure Marks where
  definitions : Finset DefinitionId
  values : Finset ValueId

namespace Marks

def empty : Marks := ⟨∅, ∅⟩

/-- Mark what a use refers to. -/
def visit (marks : Marks) (use : Use) : Marks where
  definitions := insert use.runs marks.definitions
  values := marks.values ∪ use.reads.toFinset

/-- All that the use refers to has been marked. -/
def Has (marks : Marks) (use : Use) : Prop :=
  use.runs ∈ marks.definitions ∧ ∀ value ∈ use.reads, value ∈ marks.values

/-- All marks of the first are marks of the second. -/
structure Within (marks more : Marks) : Prop where
  definitions : marks.definitions ⊆ more.definitions
  values : marks.values ⊆ more.values

variable {marks more : Marks} {use : Use}

theorem has_visit (marks : Marks) (use : Use) : (marks.visit use).Has use :=
  ⟨Finset.mem_insert_self .., fun _ isRead =>
    Finset.mem_union_right _ (List.mem_toFinset.2 isRead)⟩

theorem within_visit (marks : Marks) (use : Use) : marks.Within (marks.visit use) :=
  ⟨Finset.subset_insert .., Finset.subset_union_left⟩

theorem Within.trans {most : Marks} (first : marks.Within more) (second : more.Within most) :
    marks.Within most :=
  ⟨first.definitions.trans second.definitions, first.values.trans second.values⟩

theorem Has.mono (has : marks.Has use) (within : marks.Within more) : more.Has use :=
  ⟨within.definitions has.1, fun value isRead => within.values (has.2 value isRead)⟩

end Marks

namespace Context

/-- What the steps of a definition refer to; only pipes have steps. -/
def usesWithin (c : Context) : DefinitionId → List Use
  | .pipe id => (c.pipes[id]?.map fun d => d.steps.map PipeStep.use).getD []
  | _ => []

/-- How many pipes of the graph have not been marked. -/
def unmarked (c : Context) (marks : Marks) : Nat :=
  ((c.pipes.keys.map DefinitionId.pipe).toFinset \ marks.definitions).card

theorem unmarked_visit_le (c : Context) (marks : Marks) (use : Use) :
    c.unmarked (marks.visit use) ≤ c.unmarked marks := by
  unfold unmarked Marks.visit
  rw [Finset.sdiff_insert]
  exact Finset.card_erase_le

/-- A new pipe that has steps is one of the graph, and one less is left to be marked. -/
theorem unmarked_visit_lt {c : Context} {marks : Marks} {use : Use}
    (new : use.runs ∉ marks.definitions) (steps : c.usesWithin use.runs ≠ []) :
    c.unmarked (marks.visit use) < c.unmarked marks := by
  unfold unmarked Marks.visit
  rw [Finset.sdiff_insert]
  apply Finset.card_erase_lt_of_mem
  rw [Finset.mem_sdiff, List.mem_toFinset]
  refine ⟨?_, new⟩
  cases runs : use.runs with
  | combine id | cond id =>
    rw [runs] at steps
    exact absurd rfl steps
  | pipe id =>
    cases known : c.pipes[id]? with
    | none => simp [runs, usesWithin, known] at steps
    | some d => exact List.mem_map_of_mem (Table.mem_keys_iff.2 ⟨d, known⟩)

/-- Mark what these uses refer to, one after the other. After a pipe that was not marked before, those
of its steps come first. -/
def mark (c : Context) (marks : Marks) : List Use → Marks
  | [] => marks
  | use :: rest =>
    if use.runs ∈ marks.definitions then c.mark (marks.visit use) rest
    else c.mark (marks.visit use) (c.usesWithin use.runs ++ rest)
termination_by work => (c.unmarked marks, work.length)
decreasing_by
  · exact Prod.Lex.right' _ (c.unmarked_visit_le marks use) (Nat.lt_succ_self _)
  · next new =>
    by_cases steps : c.usesWithin use.runs = []
    · rw [steps]
      exact Prod.Lex.right' _ (c.unmarked_visit_le marks use) (Nat.lt_succ_self _)
    · exact Prod.Lex.left _ _ (unmarked_visit_lt new steps)

/-- Mark what functions refer to and what conds ask for, in the order in which they are given. -/
def markReferences (c : Context) (functions : List (FunctionId × FunctionEntry))
    (conds : List (CondId × CondDefinition)) : Marks :=
  let marks := c.mark .empty (functions.map (·.2.use))
  { marks with values := marks.values ∪ (conds.filterMap (·.2.condition.asValue?)).toFinset }

/-- The warnings about rows and definitions that have not been marked, where the tables are gone through
in these orders. -/
def markedWarnings (c : Context) (functions : List (FunctionId × FunctionEntry))
    (conds : List (CondId × CondDefinition)) (rows : List ValueId) (definitions : List DefinitionId) :
    List ValidationWarning :=
  let marks := c.markReferences functions conds
  let rows := rows.mergeSort fun a b => (compare a b).isLE
  let definitions := definitions.mergeSort fun a b => (DefinitionId.order a b).isLE
  (rows.filter (· ∉ marks.values)).map .unreferencedValue ++
    (definitions.filter (· ∉ marks.definitions)).map .unreferencedDefinition

/-! ### What is referred to -/

/-- The uses that are reached from these through the steps of the pipes that they run. -/
inductive Reached (c : Context) (roots : List Use) : Use → Prop
  | root {use : Use} : use ∈ roots → Reached c roots use
  | within {outer use : Use} : Reached c roots outer → use ∈ c.usesWithin outer.runs →
      Reached c roots use

variable {c : Context} {marks : Marks} {work roots roots' : List Use} {use : Use}
  {definition : DefinitionId} {value : ValueId}

theorem Reached.trans (reached : c.Reached roots use)
    (through : ∀ root ∈ roots, c.Reached roots' root) : c.Reached roots' use := by
  induction reached with
  | root isRoot => exact through _ isRoot
  | within _ isStep ih => exact .within ih isStep

/-- Only what there is to begin with matters, not its order. -/
theorem Reached.of_subset (reached : c.Reached roots use) (more : roots ⊆ roots') :
    c.Reached roots' use :=
  reached.trans fun _ isRoot => .root (more isRoot)

/-- What a new pipe runs is reached from the use that runs the pipe. -/
theorem Reached.of_expanded {first : Use} {rest : List Use}
    (reached : c.Reached (c.usesWithin first.runs ++ rest) use) : c.Reached (first :: rest) use := by
  refine reached.trans fun root isRoot => ?_
  rcases List.mem_append.1 isRoot with isStep | later
  · exact .within (.root List.mem_cons_self) isStep
  · exact .root (List.mem_cons_of_mem _ later)

/-! ### What is marked -/

/-- Every use inside of a marked definition has been marked or still waits. -/
def Pending (c : Context) (marks : Marks) (work : List Use) : Prop :=
  ∀ outer ∈ marks.definitions, ∀ use ∈ c.usesWithin outer, marks.Has use ∨ use ∈ work

/-- The next use is marked, and what is inside of its definition waits, unless it was marked before. -/
theorem Pending.visit {first : Use} {rest more : List Use} (pending : c.Pending marks (first :: rest))
    (inside : first.runs ∉ marks.definitions → ∀ use ∈ c.usesWithin first.runs, use ∈ more)
    (later : ∀ use ∈ rest, use ∈ more) : c.Pending (marks.visit first) more := by
  have old : ∀ outer ∈ marks.definitions, ∀ use ∈ c.usesWithin outer,
      (marks.visit first).Has use ∨ use ∈ more := by
    intro outer isMarked use isStep
    rcases pending outer isMarked use isStep with has | waits
    · exact .inl (has.mono (marks.within_visit first))
    · rcases List.mem_cons.1 waits with rfl | waits
      · exact .inl (marks.has_visit use)
      · exact .inr (later use waits)
  intro outer isMarked use isStep
  rcases Finset.mem_insert.1 isMarked with rfl | isMarked
  · by_cases before : first.runs ∈ marks.definitions
    · exact old _ before use isStep
    · exact .inr (inside before use isStep)
  · exact old outer isMarked use isStep

/-- Marking keeps the marks that there are, marks all that waits, and leaves nothing waiting. -/
theorem mark_complete (pending : c.Pending marks work) :
    marks.Within (c.mark marks work) ∧ (∀ use ∈ work, (c.mark marks work).Has use) ∧
      c.Pending (c.mark marks work) [] := by
  fun_induction mark c marks work with
  | case1 marks => exact ⟨⟨fun _ h => h, fun _ h => h⟩, by simp, pending⟩
  | case2 marks use rest old ih =>
    obtain ⟨within, all, closed⟩ := ih (pending.visit (fun new => absurd old new) fun _ later => later)
    refine ⟨(marks.within_visit use).trans within, List.forall_mem_cons.2 ⟨?_, all⟩, closed⟩
    exact (marks.has_visit use).mono within
  | case3 marks use rest new ih =>
    obtain ⟨within, all, closed⟩ := ih (pending.visit
      (fun _ _ isStep => List.mem_append_left _ isStep) fun _ later => List.mem_append_right _ later)
    refine ⟨(marks.within_visit use).trans within, List.forall_mem_cons.2 ⟨?_, fun other later => ?_⟩,
      closed⟩
    · exact (marks.has_visit use).mono within
    · exact all other (List.mem_append_right _ later)

/-- Whatever has been marked since is what a reached use refers to. -/
structure Accounted (c : Context) (marks : Marks) (roots : List Use) (more : Marks) : Prop where
  definitions : ∀ definition ∈ more.definitions,
    definition ∈ marks.definitions ∨ ∃ use, c.Reached roots use ∧ use.runs = definition
  values : ∀ value ∈ more.values,
    value ∈ marks.values ∨ ∃ use, c.Reached roots use ∧ value ∈ use.reads

/-- The next use is among those that are reached, and so is what is reached from then on. -/
theorem Accounted.visit {first : Use} {rest : List Use} {more : Marks}
    (accounted : c.Accounted (marks.visit first) work more)
    (grows : ∀ {use}, c.Reached work use → c.Reached (first :: rest) use) :
    c.Accounted marks (first :: rest) more where
  definitions definition isMarked := by
    rcases accounted.definitions definition isMarked with before | ⟨use, reached, runs⟩
    · rcases Finset.mem_insert.1 before with rfl | before
      · exact .inr ⟨first, .root List.mem_cons_self, rfl⟩
      · exact .inl before
    · exact .inr ⟨use, grows reached, runs⟩
  values value isMarked := by
    rcases accounted.values value isMarked with before | ⟨use, reached, reads⟩
    · rcases Finset.mem_union.1 before with before | isRead
      · exact .inl before
      · exact .inr ⟨first, .root List.mem_cons_self, List.mem_toFinset.1 isRead⟩
    · exact .inr ⟨use, grows reached, reads⟩

theorem accounted_mark : c.Accounted marks work (c.mark marks work) := by
  fun_induction mark c marks work with
  | case1 marks => exact ⟨fun _ old => .inl old, fun _ old => .inl old⟩
  | case2 marks use rest old ih =>
    exact ih.visit fun reached => reached.of_subset (List.subset_cons_self ..)
  | case3 marks use rest new ih => exact ih.visit Reached.of_expanded

/-- With nothing marked before, all that is reached has been marked in the end. -/
theorem has_of_reached (reached : c.Reached roots use) : (c.mark .empty roots).Has use := by
  have start : c.Pending .empty roots := nofun
  obtain ⟨-, all, closed⟩ := mark_complete start
  induction reached with
  | root isRoot => exact all _ isRoot
  | within _ isStep ih => exact (closed _ ih.1 _ isStep).resolve_right List.not_mem_nil

theorem mem_definitions_mark_iff : definition ∈ (c.mark .empty roots).definitions ↔
    ∃ use, c.Reached roots use ∧ use.runs = definition := by
  constructor
  · intro isMarked
    exact (accounted_mark.definitions definition isMarked).resolve_left (Finset.notMem_empty _)
  · rintro ⟨use, reached, rfl⟩
    exact (has_of_reached reached).1

theorem mem_values_mark_iff : value ∈ (c.mark .empty roots).values ↔
    ∃ use, c.Reached roots use ∧ value ∈ use.reads := by
  constructor
  · intro isMarked
    exact (accounted_mark.values value isMarked).resolve_left (Finset.notMem_empty _)
  · rintro ⟨use, reached, isRead⟩
    exact (has_of_reached reached).2 value isRead

/-! ### What functions refer to -/

theorem mem_reads_use_iff {step : PipeStep} :
    value ∈ step.use.reads ↔ .value value ∈ step.args.map (·.2) := by
  unfold PipeStep.use
  simp only [List.mem_filterMap, List.mem_map]
  refine exists_congr fun arg => and_congr_right fun _ => ?_
  cases arg.2 <;> simp

theorem mem_usesWithin_iff : use ∈ c.usesWithin definition ↔
    ∃ id d, definition = .pipe id ∧ c.pipes[id]? = some d ∧ ∃ step ∈ d.steps, step.use = use := by
  constructor
  · intro isStep
    cases definition with
    | combine id | cond id => cases isStep
    | pipe id =>
      cases known : c.pipes[id]? with
      | none => simp [usesWithin, known] at isStep
      | some d =>
        simp only [usesWithin, known, Option.map_some, Option.getD_some, List.mem_map] at isStep
        exact ⟨id, d, rfl, known, isStep⟩
  · rintro ⟨id, d, rfl, known, isStep⟩
    simp only [usesWithin, known, Option.map_some, Option.getD_some, List.mem_map]
    exact isStep

section functions

variable {functions : List (FunctionId × FunctionEntry)}

theorem mem_use_map (order : functions.Perm c.functions.toList) :
    use ∈ functions.map (·.2.use) ↔ ∃ (function : FunctionId) (entry : FunctionEntry),
      c.functions[function]? = some entry ∧ entry.use = use := by
  simp only [List.mem_map, order.mem_iff, Prod.exists, Table.mem_toList_iff]

/-- What functions refer to runs just the definitions that functions use. -/
theorem used_iff_reached (order : functions.Perm c.functions.toList) : c.Used definition ↔
    ∃ use, c.Reached (functions.map (·.2.use)) use ∧ use.runs = definition := by
  constructor
  · rintro ⟨function, entry, known, involves⟩
    induction involves with
    | refl => exact ⟨entry.use, .root ((mem_use_map order).2 ⟨function, entry, known, rfl⟩), rfl⟩
    | tail _ runs ih =>
      obtain ⟨outer, reached, rfl⟩ := ih
      obtain ⟨id, d, same, found, isRun⟩ := runs
      obtain ⟨step, isStep, rfl⟩ := List.mem_map.1 isRun
      exact ⟨step.use, reached.within (mem_usesWithin_iff.2 ⟨id, d, same, found, step, isStep, rfl⟩), rfl⟩
  · rintro ⟨use, reached, rfl⟩
    induction reached with
    | root isRoot =>
      obtain ⟨function, entry, known, rfl⟩ := (mem_use_map order).1 isRoot
      exact ⟨function, entry, known, .refl⟩
    | within _ isStep ih =>
      obtain ⟨function, entry, known, involves⟩ := ih
      obtain ⟨id, d, same, found, step, here, rfl⟩ := mem_usesWithin_iff.1 isStep
      exact ⟨function, entry, known, involves.tail ⟨id, d, same, found, List.mem_map_of_mem here⟩⟩

/-- What functions refer to reads just the values that are arguments or are read by steps of used
pipes. -/
theorem reached_reads_iff (order : functions.Perm c.functions.toList) :
    (∃ use, c.Reached (functions.map (·.2.use)) use ∧ value ∈ use.reads) ↔
      (∃ (function : FunctionId) (entry : FunctionEntry), c.functions[function]? = some entry ∧
        value ∈ entry.args.values) ∨
      ∃ pipe d, c.Used (.pipe pipe) ∧ c.pipes[pipe]? = some d ∧ value ∈ stepValues d := by
  constructor
  · rintro ⟨use, reached, isRead⟩
    cases reached with
    | root isRoot =>
      obtain ⟨function, entry, known, rfl⟩ := (mem_use_map order).1 isRoot
      exact .inl ⟨function, entry, known, isRead⟩
    | @within outer _ reached isStep =>
      obtain ⟨id, d, same, found, step, here, rfl⟩ := mem_usesWithin_iff.1 isStep
      refine .inr ⟨id, d, (used_iff_reached order).2 ⟨outer, reached, same⟩, found, ?_⟩
      exact mem_stepValues_iff.2 ⟨step, here, mem_reads_use_iff.1 isRead⟩
  · rintro (⟨function, entry, known, isArg⟩ | ⟨pipe, d, used, found, isRead⟩)
    · exact ⟨entry.use, .root ((mem_use_map order).2 ⟨function, entry, known, rfl⟩), isArg⟩
    · obtain ⟨outer, reached, same⟩ := (used_iff_reached order).1 used
      obtain ⟨step, isStep, isRead⟩ := mem_stepValues_iff.1 isRead
      exact ⟨step.use, reached.within (mem_usesWithin_iff.2 ⟨pipe, d, same, found, step, isStep, rfl⟩),
        mem_reads_use_iff.2 isRead⟩

variable {conds : List (CondId × CondDefinition)}

theorem mem_definitions_markReferences_iff (order : functions.Perm c.functions.toList) :
    definition ∈ (c.markReferences functions conds).definitions ↔ c.Used definition :=
  mem_definitions_mark_iff.trans (used_iff_reached order).symm

theorem mem_values_markReferences_iff (order : functions.Perm c.functions.toList)
    (order' : conds.Perm c.conds.toList) :
    value ∈ (c.markReferences functions conds).values ↔ c.Referenced value := by
  have asked : value ∈ (conds.filterMap (·.2.condition.asValue?)).toFinset ↔
      ∃ (cond : CondId) (d : CondDefinition), c.conds[cond]? = some d ∧ d.condition = .value value := by
    simp only [List.mem_toFinset, List.mem_filterMap, order'.mem_iff, Prod.exists,
      Table.mem_toList_iff, asValue?_eq_some]
  unfold markReferences
  rw [Finset.mem_union, asked, mem_values_mark_iff, reached_reads_iff order]
  constructor
  · rintro ((⟨_, _, known, isArg⟩ | ⟨_, _, used, known, isStep⟩) | ⟨_, _, known, asks⟩)
    · exact .argument known isArg
    · exact .step used known isStep
    · exact .condition known asks
  · intro referenced
    cases referenced with
    | argument known isArg => exact .inl (.inl ⟨_, _, known, isArg⟩)
    | step used known isStep => exact .inl (.inr ⟨_, _, used, known, isStep⟩)
    | condition known asks => exact .inr ⟨_, _, known, asks⟩

end functions

/-! ### The warnings -/

/-- Definitions are listed in order. -/
theorem sorted_definitionIds (c : Context) :
    c.definitionIds.Pairwise fun a b => DefinitionId.order a b = .lt := by
  have sorted : ∀ {κ : IdKind} {α : Type} (table : Std.ExtTreeMap (Id κ) α) (wrap : Id κ → DefinitionId),
      (∀ a b, DefinitionId.order (wrap a) (wrap b) = compare a b) →
      (table.keys.map wrap).Pairwise fun a b => DefinitionId.order a b = .lt := by
    intro κ α table wrap same
    refine List.pairwise_map.2 (Std.ExtTreeMap.ordered_keys.imp fun before => ?_)
    rw [same]
    exact before
  unfold definitionIds
  rw [List.pairwise_append, List.pairwise_append]
  refine ⟨⟨sorted _ _ fun _ _ => rfl, sorted _ _ fun _ _ => rfl, ?_⟩, sorted _ _ fun _ _ => rfl, ?_⟩
  · intro a isCombine b isPipe
    obtain ⟨_, -, rfl⟩ := List.mem_map.1 isCombine
    obtain ⟨_, -, rfl⟩ := List.mem_map.1 isPipe
    rfl
  · intro a isEarlier b isCond
    obtain ⟨_, -, rfl⟩ := List.mem_map.1 isCond
    rcases List.mem_append.1 isEarlier with isCombine | isPipe
    · obtain ⟨_, -, rfl⟩ := List.mem_map.1 isCombine
      rfl
    · obtain ⟨_, -, rfl⟩ := List.mem_map.1 isPipe
      rfl

/-- In whatever order the tables are gone through, the pass gives the warnings of validation. -/
theorem markedWarnings_eq {functions : List (FunctionId × FunctionEntry)}
    {conds : List (CondId × CondDefinition)} {rows : List ValueId} {definitions : List DefinitionId}
    (order : functions.Perm c.functions.toList) (order' : conds.Perm c.conds.toList)
    (isRows : rows.Perm c.values.keys) (isDefinitions : definitions.Perm c.definitionIds) :
    c.markedWarnings functions conds rows definitions = c.referenceWarnings := by
  unfold markedWarnings referenceWarnings
  dsimp only
  rw [mergeSort_eq_of_perm isRows Std.ExtTreeMap.ordered_keys,
    mergeSort_eq_of_perm isDefinitions c.sorted_definitionIds]
  congr 2
  · refine List.filter_congr fun value _ => ?_
    simp [mem_values_markReferences_iff order order', mem_referencedValues_iff]
  · refine List.filter_congr fun definition _ => ?_
    simp [mem_definitions_markReferences_iff order, mem_referencedDefinitions_iff]

/-- The warnings of a validation are about the rows that nothing refers to and about the definitions that
no function uses: values before definitions, each group in order and without repetition. Marking what is
referenced gives the same, in whatever order the tables are gone through. -/
theorem warnings_are_unreachable (c : Context) (registry : Registry) :
    let warnings := (c.validate registry).warnings
    (∀ definition, .unreferencedDefinition definition ∈ warnings ↔
      c.hasDefinition definition = true ∧ ¬ c.Used definition) ∧
    (∀ value, .unreferencedValue value ∈ warnings ↔
      (∃ content, c.values[value]? = some content) ∧ ¬ c.Referenced value) ∧
    warnings.Nodup ∧
    (∃ (values : List ValueId) (definitions : List DefinitionId), warnings =
        values.map .unreferencedValue ++ definitions.map .unreferencedDefinition ∧
      values.Pairwise (fun a b => compare a b = .lt) ∧
      definitions.Pairwise fun a b => DefinitionId.order a b = .lt) ∧
    ∀ {functions conds rows definitions}, functions.Perm c.functions.toList →
      conds.Perm c.conds.toList → rows.Perm c.values.keys → definitions.Perm c.definitionIds →
      c.markedWarnings functions conds rows definitions = warnings := by
  refine ⟨fun _ => unreferencedDefinition_mem_iff, fun _ => unreferencedValue_mem_iff,
    c.nodup_referenceWarnings, ⟨_, _, rfl, ?_, ?_⟩, markedWarnings_eq⟩
  · exact Std.ExtTreeMap.ordered_keys.filter _
  · exact c.sorted_definitionIds.filter _

namespace Tangle

def word : ValueId := ⟨"v:word", by decide⟩
def spare : ValueId := ⟨"v:spare", by decide⟩
def result : ValueId := ⟨"v:result", by decide⟩
def other : ValueId := ⟨"v:other", by decide⟩
def output : ValueId := ⟨"v:output", by decide⟩
def ping : PipeId := ⟨"pd:ping", by decide⟩
def pong : PipeId := ⟨"pd:pong", by decide⟩
def idle : PipeId := ⟨"pd:idle", by decide⟩
def missing : PipeId := ⟨"pd:missing", by decide⟩
def start : FunctionId := ⟨"f:start", by decide⟩
def again : FunctionId := ⟨"f:again", by decide⟩

end Tangle

open Tangle in
/-- Two pipes that run each other, one of which runs a pipe that does not exist; a third pipe runs itself,
and nothing else runs it. -/
def tangle : Context :=
  empty.insertValue word (.string "Ada")
    |>.insertValue spare .null
    |>.insertPipe ping ⟨[], [⟨.pipe pong, [], output⟩]⟩
    |>.insertPipe pong ⟨[], [⟨.pipe ping, [("a", .value word)], output⟩, ⟨.pipe missing, [], output⟩]⟩
    |>.insertPipe idle ⟨[], [⟨.pipe idle, [("a", .value spare)], output⟩]⟩
    |>.insertFunction start (.pipe ping .empty result)
    |>.insertFunction again (.pipe pong .empty other)

open Tangle in
/-- The pass ends on pipes that run each other, and finds what the last of them reads. -/
theorem warnings_are_unreachable_tangle :
    (tangle.functions.toList.reverse.Perm tangle.functions.toList ∧
      tangle.conds.toList.Perm tangle.conds.toList ∧
      tangle.values.keys.reverse.Perm tangle.values.keys ∧
      tangle.definitionIds.reverse.Perm tangle.definitionIds) ∧
    tangle.markedWarnings tangle.functions.toList.reverse tangle.conds.toList
        tangle.values.keys.reverse tangle.definitionIds.reverse =
      [.unreferencedValue spare, .unreferencedDefinition (.pipe idle)] := by
  have keys : tangle.pipes.keys = [idle, ping, pong] := by decide +kernel
  have entries : tangle.entryDefinitions = [.pipe pong, .pipe ping] := by decide +kernel
  have pingRuns : tangle.pipes[ping]?.map stepDefinitions = some [.pipe pong] := rfl
  have pongRuns : tangle.pipes[pong]?.map stepDefinitions = some [.pipe ping, .pipe missing] := rfl
  have erases : [idle, ping, pong].erase pong = [idle, ping] ∧ [idle, ping].erase ping = [idle] := by
    decide
  have others : pong ≠ idle ∧ ping ≠ idle ∧ missing ≠ idle := by decide
  have referenced : tangle.referencedDefinitions =
      [.pipe ping, .pipe missing, .pipe pong, .pipe ping, .pipe pong] := by
    unfold referencedDefinitions
    rw [keys, entries]
    simp [reach, pingRuns, pongRuns, erases, others]
  have warned : (tangle.validate .empty).warnings =
      [.unreferencedValue spare, .unreferencedDefinition (.pipe idle)] := by
    unfold validate referenceWarnings referencedValues
    rw [referenced]
    decide +kernel
  obtain ⟨-, -, -, -, same⟩ := warnings_are_unreachable tangle .empty
  have functions := List.reverse_perm tangle.functions.toList
  have rows := List.reverse_perm tangle.values.keys
  have definitions := List.reverse_perm tangle.definitionIds
  exact ⟨⟨functions, .refl _, rows, definitions⟩,
    (same functions (.refl _) rows definitions).trans warned⟩

end Context

end TagFlow
