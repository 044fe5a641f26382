import TagFlow.Proofs.Graph.Usage

/-!
# What the search for references finds

The search for references expands every pipe once, so it ends on pipes that run themselves. It finds
just the definitions that are used (`mem_referencedDefinitions_iff`). One half is that whatever it finds
is involved by a definition it started from; the other half is an invariant of the search (`Searching`):
what runs in a pipe that was found was found as well or is still to be looked at, and in the end there is
nothing left to be looked at.

So a value is referenced just if a function reads it, as an argument or in a step of a pipe, or a cond
asks for it (`mem_referencedValues_iff`), and the warnings are about the other rows and the unused
definitions.
-/

namespace TagFlow.Context

variable {c : Context} {definition : DefinitionId} {value : ValueId} {unexpanded : List PipeId}
  {work reached : List DefinitionId}

/-! ### The search -/

theorem runs_pipe_iff {id : PipeId} {inner : DefinitionId} :
    c.Runs (.pipe id) inner ↔ inner ∈ (c.pipes[id]?.map stepDefinitions).getD [] := by
  unfold Runs
  cases known : c.pipes[id]? with
  | none =>
    refine ⟨?_, fun isStep => nomatch isStep⟩
    rintro ⟨_, _, ⟨⟩, known', -⟩
    cases known.symm.trans known'
  | some d =>
    constructor
    · rintro ⟨_, _, ⟨⟩, known', isStep⟩
      cases known.symm.trans known'
      exact isStep
    · intro isStep
      exact ⟨id, d, rfl, known, isStep⟩

/-- Whatever the search finds was found before, or is involved by what was still to be looked at. -/
theorem involved_of_mem_reach (found : definition ∈ c.reach unexpanded work reached) :
    definition ∈ reached ∨ ∃ root ∈ work, c.Involves root definition := by
  -- looking at a definition finds it, and it involves itself
  have look : ∀ {first : DefinitionId} {rest reached : List DefinitionId},
      (definition ∈ first :: reached ∨ ∃ root ∈ rest, c.Involves root definition) →
        definition ∈ reached ∨ ∃ root ∈ first :: rest, c.Involves root definition := by
    intro first rest reached found
    rcases found with found | ⟨root, isRoot, involves⟩
    · rcases List.mem_cons.1 found with rfl | found
      · exact .inr ⟨_, List.mem_cons_self, .refl⟩
      · exact .inl found
    · exact .inr ⟨root, List.mem_cons_of_mem _ isRoot, involves⟩
  fun_induction reach c unexpanded work reached with
  | case1 unexpanded reached => exact .inl found
  | case2 unexpanded reached id rest new steps ih =>
    rcases ih found with found | ⟨root, isRoot, involves⟩
    · exact look (.inl found)
    · rcases List.mem_append.1 isRoot with isStep | isRoot
      · exact .inr ⟨_, List.mem_cons_self, involves.head (runs_pipe_iff.2 isStep)⟩
      · exact look (.inr ⟨root, isRoot, involves⟩)
  | case3 unexpanded reached id rest old ih => exact look (ih found)
  | case4 unexpanded reached other rest noPipe ih => exact look (ih found)

/-- How far the search has come: a pipe that the graph has is still to be expanded or was found, and
what runs in a pipe that was found was found as well or is still to be looked at. -/
structure Searching (c : Context) (unexpanded : List PipeId) (work reached : List DefinitionId) :
    Prop where
  pipes : ∀ {id : PipeId} {d : PipeDefinition}, c.pipes[id]? = some d →
    id ∈ unexpanded ∨ .pipe id ∈ reached
  steps : ∀ {id : PipeId} {inner : DefinitionId}, .pipe id ∈ reached → c.Runs (.pipe id) inner →
    inner ∈ reached ∨ inner ∈ work

namespace Searching

variable {pipe : PipeId} {rest : List DefinitionId}

/-- The definition that is looked at has been found. -/
theorem found {first other : DefinitionId}
    (known : other ∈ reached ∨ other ∈ first :: rest) : other ∈ first :: reached ∨ other ∈ rest := by
  rcases known with old | here
  · exact .inl (List.mem_cons_of_mem _ old)
  · rcases List.mem_cons.1 here with rfl | later
    · exact .inl List.mem_cons_self
    · exact .inr later

/-- Expanding a pipe. -/
theorem expand (searching : c.Searching unexpanded (.pipe pipe :: rest) reached) :
    c.Searching (unexpanded.erase pipe) ((c.pipes[pipe]?.map stepDefinitions).getD [] ++ rest)
      (.pipe pipe :: reached) where
  pipes {other d} known := by
    by_cases same : other = pipe
    · subst same
      exact .inr List.mem_cons_self
    · rcases searching.pipes known with waits | old
      · exact .inl ((List.mem_erase_of_ne same).2 waits)
      · exact .inr (List.mem_cons_of_mem _ old)
  steps {other inner} isFound runs := by
    rcases List.mem_cons.1 isFound with same | isFound
    · cases same
      exact .inr (List.mem_append_left _ (runs_pipe_iff.1 runs))
    · exact (found (searching.steps isFound runs)).imp_right (List.mem_append_right _)

/-- A pipe that is not to be expanded has been, unless the graph does not have it. -/
theorem skip (searching : c.Searching unexpanded (.pipe pipe :: rest) reached)
    (old : pipe ∉ unexpanded) : c.Searching unexpanded rest (.pipe pipe :: reached) where
  pipes known := (searching.pipes known).imp_right (List.mem_cons_of_mem _)
  steps {other inner} isFound runs := by
    rcases List.mem_cons.1 isFound with same | isFound
    · cases same
      have ⟨_, d, same, known, _⟩ := runs
      cases same
      exact found (searching.steps ((searching.pipes known).resolve_left old) runs)
    · exact found (searching.steps isFound runs)

/-- Other definitions have nothing to be expanded. -/
theorem pass {other : DefinitionId} (searching : c.Searching unexpanded (other :: rest) reached)
    (noPipe : ∀ id, other ≠ .pipe id) : c.Searching unexpanded rest (other :: reached) where
  pipes known := (searching.pipes known).imp_right (List.mem_cons_of_mem _)
  steps {id inner} isFound runs := by
    rcases List.mem_cons.1 isFound with same | isFound
    · exact absurd same.symm (noPipe id)
    · exact found (searching.steps isFound runs)

/-- The search finds all that it has to look at, and with a pipe it finds what its steps run. -/
theorem closed (searching : c.Searching unexpanded work reached) :
    (∀ other, other ∈ reached ∨ other ∈ work → other ∈ c.reach unexpanded work reached) ∧
      ∀ outer ∈ c.reach unexpanded work reached, ∀ inner, c.Runs outer inner →
        inner ∈ c.reach unexpanded work reached := by
  fun_induction reach c unexpanded work reached with
  | case1 unexpanded reached =>
    refine ⟨fun other known => known.resolve_right List.not_mem_nil, fun outer isFound inner runs => ?_⟩
    have ⟨id, d, same, _, _⟩ := runs
    subst same
    exact (searching.steps isFound runs).resolve_right List.not_mem_nil
  | case2 unexpanded reached id rest new steps ih =>
    obtain ⟨all, closed⟩ := ih searching.expand
    exact ⟨fun other known => all other ((found known).imp_right (List.mem_append_right _)), closed⟩
  | case3 unexpanded reached id rest old ih =>
    obtain ⟨all, closed⟩ := ih (searching.skip old)
    exact ⟨fun other known => all other (found known), closed⟩
  | case4 unexpanded reached other rest noPipe ih =>
    obtain ⟨all, closed⟩ := ih (searching.pass noPipe)
    exact ⟨fun other known => all other (found known), closed⟩

end Searching

/-- In the beginning every pipe is still to be expanded. -/
theorem searching_start (c : Context) (work : List DefinitionId) :
    c.Searching c.pipes.keys work [] where
  pipes known := .inl (Table.mem_keys_iff.2 ⟨_, known⟩)
  steps isFound := nomatch isFound

/-! ### What is referenced -/

theorem mem_entryDefinitions_iff : definition ∈ c.entryDefinitions ↔
    ∃ (function : FunctionId) (entry : FunctionEntry), c.functions[function]? = some entry ∧
      entry.definition = definition := by
  unfold entryDefinitions
  simp only [List.mem_map, Table.mem_values_iff]
  constructor
  · rintro ⟨entry, ⟨function, known⟩, same⟩
    exact ⟨function, entry, known, same⟩
  · rintro ⟨function, entry, known, same⟩
    exact ⟨entry, ⟨function, known⟩, same⟩

/-- The definitions that count as referenced are those that functions use. -/
theorem mem_referencedDefinitions_iff : definition ∈ c.referencedDefinitions ↔ c.Used definition := by
  unfold referencedDefinitions
  constructor
  · intro found
    rcases involved_of_mem_reach found with none | ⟨root, isRoot, involves⟩
    · cases none
    · obtain ⟨function, entry, known, rfl⟩ := mem_entryDefinitions_iff.1 isRoot
      exact ⟨function, entry, known, involves⟩
  · rintro ⟨function, entry, known, involves⟩
    obtain ⟨all, closed⟩ := (searching_start c c.entryDefinitions).closed
    induction involves with
    | refl => exact all _ (.inr (mem_entryDefinitions_iff.2 ⟨function, entry, known, rfl⟩))
    | tail _ runs ih => exact closed _ ih _ runs

/-- Where a graph refers to a value. -/
inductive Referenced (c : Context) (value : ValueId) : Prop
  /-- A function has it for an argument. -/
  | argument {function : FunctionId} {entry : FunctionEntry} :
      c.functions[function]? = some entry → value ∈ entry.args.values → Referenced c value
  /-- A step of a pipe that is used reads it. -/
  | step {pipe : PipeId} {d : PipeDefinition} :
      c.Used (.pipe pipe) → c.pipes[pipe]? = some d → value ∈ stepValues d → Referenced c value
  /-- A cond asks for it. -/
  | condition {cond : CondId} {d : CondDefinition} :
      c.conds[cond]? = some d → d.condition = .value value → Referenced c value

theorem asValue?_eq_some {node : Node} : node.asValue? = some value ↔ node = .value value := by
  cases node <;> simp [Node.asValue?]

/-- The values that count as referenced are those that the graph refers to. -/
theorem mem_referencedValues_iff : value ∈ c.referencedValues ↔ c.Referenced value := by
  unfold referencedValues
  rw [List.mem_append, List.mem_append]
  constructor
  · rintro ((isArg | isStep) | isCondition)
    · obtain ⟨entry, isEntry, isArg⟩ := List.mem_flatMap.1 isArg
      obtain ⟨function, known⟩ := Table.mem_values_iff.1 isEntry
      exact .argument known isArg
    · obtain ⟨definition, isReferenced, isStep⟩ := List.mem_flatMap.1 isStep
      split at isStep
      · next pipe =>
        cases known : c.pipes[pipe]? with
        | none =>
          rw [known] at isStep
          cases isStep
        | some d =>
          rw [known] at isStep
          exact .step (mem_referencedDefinitions_iff.1 isReferenced) known isStep
      · cases isStep
    · obtain ⟨d, isCond, asks⟩ := List.mem_filterMap.1 isCondition
      obtain ⟨cond, known⟩ := Table.mem_values_iff.1 isCond
      exact .condition known (asValue?_eq_some.1 asks)
  · intro referenced
    cases referenced with
    | argument known isArg =>
      exact .inl (.inl (List.mem_flatMap.2 ⟨_, Table.mem_values_iff.2 ⟨_, known⟩, isArg⟩))
    | @step pipe d used known isStep =>
      refine .inl (.inr (List.mem_flatMap.2 ⟨.pipe pipe, mem_referencedDefinitions_iff.2 used, ?_⟩))
      simp only [known]
      exact isStep
    | condition known asks =>
      exact .inr (List.mem_filterMap.2 ⟨_, Table.mem_values_iff.2 ⟨_, known⟩, asValue?_eq_some.2 asks⟩)

/-! ### What an entry reads -/

/-- A step reads the value, in the pipe that is run or in one that its steps run. -/
def ReadsWithin (c : Context) (definition : DefinitionId) (value : ValueId) : Prop :=
  ∃ id d, c.Involves definition (.pipe id) ∧ c.pipes[id]? = some d ∧ value ∈ stepValues d

/-- The function with this entry reads the value, as an argument or inside of its pipe, or asks for it
as a condition. -/
def EntryReads (c : Context) (entry : FunctionEntry) (value : ValueId) : Prop :=
  value ∈ entry.args.values ∨ c.ReadsWithin entry.definition value ∨
    ∃ id d, entry.definition = .cond id ∧ c.conds[id]? = some d ∧ d.condition = .value value

theorem mem_stepValues_iff {d : PipeDefinition} :
    value ∈ stepValues d ↔ ∃ step ∈ d.steps, .value value ∈ step.args.map (·.2) := by
  unfold stepValues
  simp only [List.mem_flatMap, List.mem_filterMap, List.mem_map]
  refine exists_congr fun step => and_congr_right fun _ => exists_congr fun arg => ?_
  refine and_congr_right fun _ => ?_
  cases arg.2 <;> simp

/-- Only pipes have steps. -/
theorem not_readsWithin (noPipe : ∀ id, definition ≠ .pipe id) : ¬ c.ReadsWithin definition value := by
  rintro ⟨id, d, involves, -, -⟩
  rcases involves.cases_head with same | ⟨inner, ⟨outer, _, same, -⟩, -⟩
  · exact noPipe id same
  · exact noPipe outer same

/-- What is read within a pipe is read by a step of it, or within what a step of it runs. -/
theorem readsWithin_pipe_iff {id : PipeId} {d : PipeDefinition} (known : c.pipes[id]? = some d) :
    c.ReadsWithin (.pipe id) value ↔ ∃ step ∈ d.steps,
      .value value ∈ step.args.map (·.2) ∨ c.ReadsWithin step.body.definition value := by
  constructor
  · rintro ⟨inner, d', involves, known', reads⟩
    rcases involves.cases_head with same | ⟨next, runs, involves⟩
    · cases same
      cases known.symm.trans known'
      obtain ⟨step, isStep, here⟩ := mem_stepValues_iff.1 reads
      exact ⟨step, isStep, .inl here⟩
    · obtain ⟨_, _, same, known'', isRun⟩ := runs
      cases same
      cases known.symm.trans known''
      obtain ⟨step, isStep, rfl⟩ := List.mem_map.1 isRun
      exact ⟨step, isStep, .inr ⟨inner, d', involves, known', reads⟩⟩
  · rintro ⟨step, isStep, here | ⟨inner, d', involves, known', reads⟩⟩
    · exact ⟨id, d, .refl, known, mem_stepValues_iff.2 ⟨step, isStep, here⟩⟩
    · have runs : c.Runs (.pipe id) step.body.definition :=
        ⟨id, d, rfl, known, List.mem_map_of_mem isStep⟩
      exact ⟨inner, d', involves.head runs, known', reads⟩

/-- In a graph without unused definitions, what is referenced is what functions read. -/
theorem referenced_iff (used : c.AllUsed) : c.Referenced value ↔
    ∃ (function : FunctionId) (entry : FunctionEntry), c.functions[function]? = some entry ∧
      c.EntryReads entry value := by
  constructor
  · intro referenced
    cases referenced with
    | argument known isArg => exact ⟨_, _, known, .inl isArg⟩
    | step isUsed known isStep =>
      obtain ⟨function, entry, known', involves⟩ := isUsed
      exact ⟨function, entry, known', .inr (.inl ⟨_, _, involves, known, isStep⟩)⟩
    | condition known asks =>
      obtain ⟨function, entry, known', involves⟩ := used (.cond _) (Table.contains_iff.2 ⟨_, known⟩)
      exact ⟨function, entry, known', .inr (.inr ⟨_, _, eq_of_involves_cond involves, known, asks⟩)⟩
  · rintro ⟨function, entry, known, isArg | ⟨id, d, involves, known', isStep⟩ | ⟨id, d, -, known', asks⟩⟩
    · exact .argument known isArg
    · exact .step ⟨function, entry, known, involves⟩ known' isStep
    · exact .condition known' asks

/-! ### The warnings -/

theorem mem_definitionIds_iff : definition ∈ c.definitionIds ↔ c.hasDefinition definition = true := by
  unfold definitionIds hasDefinition
  cases definition <;> simp

/-- There is a warning for a row just if nothing refers to it. -/
theorem unreferencedValue_mem_iff : .unreferencedValue value ∈ c.referenceWarnings ↔
    (∃ content, c.values[value]? = some content) ∧ ¬ c.Referenced value := by
  unfold referenceWarnings
  simp [mem_referencedValues_iff, ← Table.mem_keys_iff]

/-- There is a warning for a definition just if no function uses it. -/
theorem unreferencedDefinition_mem_iff : .unreferencedDefinition definition ∈ c.referenceWarnings ↔
    c.hasDefinition definition = true ∧ ¬ c.Used definition := by
  unfold referenceWarnings
  simp [mem_referencedDefinitions_iff, mem_definitionIds_iff]

/-- No definition is listed twice. -/
theorem nodup_definitionIds (c : Context) : c.definitionIds.Nodup := by
  have combines : (c.combines.keys.map DefinitionId.combine).Nodup :=
    Std.ExtTreeMap.nodup_keys.map fun _ _ => DefinitionId.combine.inj
  have pipes : (c.pipes.keys.map DefinitionId.pipe).Nodup :=
    Std.ExtTreeMap.nodup_keys.map fun _ _ => DefinitionId.pipe.inj
  have conds : (c.conds.keys.map DefinitionId.cond).Nodup :=
    Std.ExtTreeMap.nodup_keys.map fun _ _ => DefinitionId.cond.inj
  refine (combines.append pipes ?_).append conds ?_
  · intro definition isCombine
    obtain ⟨id, -, rfl⟩ := List.mem_map.1 isCombine
    simp
  · intro definition isEarlier isCond
    obtain ⟨id, -, rfl⟩ := List.mem_map.1 isCond
    simp at isEarlier

/-- There is one warning for each row and each definition at most. -/
theorem nodup_referenceWarnings (c : Context) : c.referenceWarnings.Nodup := by
  have values := (Std.ExtTreeMap.nodup_keys (t := c.values)).filter (! c.referencedValues.contains ·)
  have definitions := c.nodup_definitionIds.filter (! c.referencedDefinitions.contains ·)
  refine (values.map fun _ _ => ValidationWarning.unreferencedValue.inj).append
    (definitions.map fun _ _ => ValidationWarning.unreferencedDefinition.inj) ?_
  intro warning isValue
  obtain ⟨id, -, rfl⟩ := List.mem_map.1 isValue
  simp

end TagFlow.Context
