import TagFlow.Proofs.Evaluation.Agreement

/-!
# What a run binds

While a plan is run, values are bound to identifiers: to the output of each function that runs, and
inside of a pipe to the slots of its inputs and to the outputs of its steps. `Binds` says which, for
the run of a tree from a progress, and `PipeBinds` for the run of a pipe.

Both follow the run and leave nothing out: a function that has run has its output bound
(`exists_binds`), and if it runs a pipe, all slots and the outputs of all steps of the pipe and of those
that it nests (`exists_pipeBinds`).
-/

namespace TagFlow

namespace Evaluator

/-! ### What a run binds -/

/-- The pipe runs with these inputs: it has steps, and its scope can be made. -/
structure Starts (m : Evaluator) (function : FunctionId) (id : PipeId)
    (given : List (String × Value)) (d : PipeDefinition) (scope : ValueTable) : Prop where
  found : m.context.pipes[id]? = some d
  nonempty : d.steps ≠ []
  made : inputScope function d given = .ok scope

/-- In the run of a pipe for a function, with a table around it, a value is bound to an identifier:
to the slot of an input or to the output of a step, in this pipe or in one that it nests. -/
inductive PipeBinds (m : Evaluator) (function : FunctionId) (outer : ValueTable) :
    (levels : Nat) → Scratch → PipeId → List (String × Value) → ValueId → Value → Prop
  | slot {levels scratch id given d scope value} {input : PipeInput} :
      m.Starts function id given d scope → input ∈ d.inputs → scope[input.slot]? = some value →
      PipeBinds m function outer (levels + 1) scratch id given input.slot value
  | output {levels scratch id given d scope before step after s value inside} :
      m.Starts function id given d scope → d.steps = before ++ step :: after →
      m.runSteps function (m.runPipe function outer levels) d outer scratch (.start scope) before =
        .ok s →
      m.runStep function (m.runPipe function outer levels) d outer scratch s step =
        .ok (value, inside) →
      PipeBinds m function outer (levels + 1) scratch id given step.output value
  | nested {levels scratch id given d scope before step after s inner args target value} :
      m.Starts function id given d scope → d.steps = before ++ step :: after →
      m.runSteps function (m.runPipe function outer levels) d outer scratch (.start scope) before =
        .ok s →
      step.body = .pipe inner → readArguments function d outer s step = .ok args →
      PipeBinds m function outer levels (scratch.skip s.count) inner args target value →
      PipeBinds m function outer (levels + 1) scratch id given target value

/-- When a tree is run from a progress, a value is bound to an identifier: to the row of a node that
has run, or inside of a pipe that runs. -/
inductive Binds (m : Evaluator) : Tree → Progress → ValueId → Value → Prop
  | row {tree p p' value} : m.runTree tree p = .ok p' → p'.table[tree.output]? = some value →
      Binds m tree p tree.output value
  | pipe {id definition args returns children p p' values target value} : id ∉ p.completed →
      m.runTrees children p = .ok p' → readRows p'.table args.values = .ok values →
      m.PipeBinds id p'.table (pipeLevels m.context) p'.scratch definition (args.names.zip values)
        target value →
      Binds m (.function id (.pipe definition args returns) children) p target value
  | child {id entry before child after p p' target value} : id ∉ p.completed →
      m.runTrees before p = .ok p' → Binds m child p' target value →
      Binds m (.function id entry (before ++ child :: after)) p target value
  | condition {id returns condition thenBranch elseBranch p target value} : id ∉ p.completed →
      Binds m condition p target value →
      Binds m (.cond id returns condition thenBranch elseBranch) p target value
  | branch {id returns condition thenBranch elseBranch p p' flag choice target value} :
      id ∉ p.completed → m.runTree condition p = .ok p' →
      readRow p'.table condition.output = .ok flag → flag.asBool? = some choice →
      Binds m (if choice then thenBranch else elseBranch) p' target value →
      Binds m (.cond id returns condition thenBranch elseBranch) p target value

variable {m : Evaluator} {function : FunctionId} {outer scope : ValueTable} {levels : Nat}
  {scratch : Scratch} {id : PipeId} {given : List (String × Value)} {d : PipeDefinition}

/-! ### Runs of pipes, by their meaning -/

/-- The scope of a running pipe starts with what the pipe was given, which is all that it declares. -/
theorem Starts.scopes (starts : m.Starts function id given d scope)
    (slots : m.context.DistinctSlots) :
    checkInputs function d given = .ok () ∧ ∀ session, Scopes d given session scope := by
  have agrees := inputScope_eq function given (slots id d starts.found)
  cases checked : checkInputs function d given with
  | error halt =>
    rw [checked] at agrees
    cases agrees.symm.trans starts.made
  | ok _ =>
    rw [checked] at agrees
    obtain ⟨scope', made, scopes⟩ := agrees
    cases made.symm.trans starts.made
    exact ⟨rfl, scopes⟩

/-- Each input of a running pipe has its value in the scope. -/
theorem Starts.exists_slot (starts : m.Starts function id given d scope)
    (slots : m.context.DistinctSlots) {input : PipeInput} (isInput : input ∈ d.inputs) :
    ∃ value, scope[input.slot]? = some value := by
  obtain ⟨checked, scopes⟩ := starts.scopes slots
  rw [(scopes 0).slots input isInput]
  unfold checkInputs at checked
  split at checked
  · cases checked
  · split at checked
    · cases checked
    · next all =>
      have bound := List.find?_eq_none.1 all input isInput
      rw [Option.isNone_iff_eq_none] at bound
      exact Option.ne_none_iff_exists'.1 bound

/-- Steps of a running pipe that have run gave what they mean. -/
theorem Starts.denoteSteps_of_runSteps (starts : m.Starts function id given d scope)
    (orderly : m.context.Orderly) (fresh : m.context.FreshIn scratch.session)
    (shows : ShowsUnwritten m.context outer) (nested : m.context.NestedWithin (levels + 1) id)
    {steps : List PipeStep} (part : ∀ step ∈ steps, step ∈ d.steps) {s : PipeProgress}
    (run : m.runSteps function (m.runPipe function outer levels) d outer scratch (.start scope) steps =
      .ok s) :
    ∃ outputs, (m.denoteSteps function given [] steps).run = some (.ok outputs) ∧
      Holds d given function scratch s outputs := by
  have agrees := denoteSteps_eq scratch (m.runPipe function outer levels)
    (fresh.slots starts.found) shows steps (.start ((starts.scopes orderly.slots).2 scratch.session))
    (fun step isStep name value isArg =>
      readsOutside orderly.apart fresh starts.found (part step isStep) isArg)
    (fun step isStep inner body issued args => denotePipe_eq function orderly.slots orderly.apart
      shows fresh levels issued inner args (nested inner ⟨d, starts.found, step, part step isStep, body⟩))
  rw [run] at agrees
  exact agrees

/-- A step of a running pipe that has run gave what it means. -/
theorem Starts.denoteStep_of_runStep (starts : m.Starts function id given d scope)
    (orderly : m.context.Orderly) (fresh : m.context.FreshIn scratch.session)
    (shows : ShowsUnwritten m.context outer) (nested : m.context.NestedWithin (levels + 1) id)
    {step : PipeStep} (isStep : step ∈ d.steps) {s : PipeProgress} {outputs : List Value}
    (holds : Holds d given function scratch s outputs) {value : Value} {inside : Nat}
    (run : m.runStep function (m.runPipe function outer levels) d outer scratch s step =
      .ok (value, inside)) :
    (m.denoteStep function given outputs step).run = some (.ok value) := by
  rw [denoteStep_eq (m.runPipe function outer levels) holds shows
    (fun _ _ isArg => readsOutside orderly.apart fresh starts.found isStep isArg), run]
  · rfl
  · intro inner body args
    exact denotePipe_eq function orderly.slots orderly.apart shows fresh levels _ inner args
      (nested inner ⟨d, starts.found, step, isStep, body⟩)

/-! ### Nothing is left out -/

/-- Steps run one after the other. -/
theorem runSteps_append (nested : Nested) :
    ∀ (before after : List PipeStep) (s : PipeProgress),
      m.runSteps function nested d outer scratch s (before ++ after) =
        m.runSteps function nested d outer scratch s before >>= fun s' =>
          m.runSteps function nested d outer scratch s' after
  | [], after, s => rfl
  | step :: before, after, s => by
    rw [List.cons_append, runSteps, runSteps, bind_assoc]
    congr 1
    funext result
    exact runSteps_append nested before after _

/-- A pipe that has run has started, and each of its steps has run after those before it. -/
theorem exists_starts {result : Value × Nat}
    (ran : m.runPipe function outer (levels + 1) scratch id given = .ok result) :
    ∃ d scope, m.Starts function id given d scope ∧
      ∀ step ∈ d.steps, ∃ before after s value inside, d.steps = before ++ step :: after ∧
        m.runSteps function (m.runPipe function outer levels) d outer scratch (.start scope) before =
          .ok s ∧
        m.runStep function (m.runPipe function outer levels) d outer scratch s step =
          .ok (value, inside) := by
  rw [runPipe] at ran
  split at ran
  · cases ran
  · next d found =>
    split at ran
    · cases ran
    · next nonempty =>
      obtain ⟨scope, made, ran⟩ := Result.bind_eq_ok.1 ran
      obtain ⟨s, steps, -⟩ := Result.bind_eq_ok.1 ran
      have starts : m.Starts function id given d scope := by
        refine ⟨found, ?_, made⟩
        intro empty
        exact nonempty (List.isEmpty_iff.2 empty)
      refine ⟨d, scope, starts, fun step isStep => ?_⟩
      -- the run got past the step, so it can be cut there
      obtain ⟨before, after, split⟩ := List.append_of_mem isStep
      rw [split, runSteps_append] at steps
      obtain ⟨s, ranBefore, steps⟩ := Result.bind_eq_ok.1 steps
      rw [runSteps] at steps
      obtain ⟨⟨value, inside⟩, ranStep, -⟩ := Result.bind_eq_ok.1 steps
      exact ⟨before, after, s, value, inside, split, ranBefore, ranStep⟩

/-- A step that has run a pipe has read its arguments and run the pipe on them. -/
theorem exists_arguments {nested : Nested} {s : PipeProgress} {step : PipeStep} {inner : PipeId}
    {result : Value × Nat} (body : step.body = .pipe inner)
    (ran : m.runStep function nested d outer scratch s step = .ok result) :
    ∃ args, readArguments function d outer s step = .ok args ∧
      nested (scratch.skip s.count) inner args = .ok result := by
  obtain ⟨args, read, ran⟩ := Result.bind_eq_ok.1 ran
  rw [body] at ran
  exact ⟨args, read, ran⟩

/-- Of a pipe definition, all slots and the outputs of all steps are bound. -/
def BindsAll (binds : ValueId → Value → Prop) (d : PipeDefinition) : Prop :=
  (∀ input ∈ d.inputs, ∃ value, binds input.slot value) ∧
    ∀ step ∈ d.steps, ∃ value, binds step.output value

theorem BindsAll.mono {binds binds' : ValueId → Value → Prop} (all : BindsAll binds d)
    (implies : ∀ target value, binds target value → binds' target value) : BindsAll binds' d :=
  ⟨fun input isInput => (all.1 input isInput).imp fun _ => implies _ _,
    fun step isStep => (all.2 step isStep).imp fun _ => implies _ _⟩

/-- A pipe that has run has bound all slots and outputs of its own and of the pipes that it nests. -/
theorem exists_pipeBinds (slots : m.context.DistinctSlots) : ∀ {levels : Nat} {scratch : Scratch}
    {id : PipeId} {given : List (String × Value)} {result : Value × Nat},
    m.runPipe function outer levels scratch id given = .ok result →
    ∀ inner, m.context.Encloses id inner → ∃ d, m.context.pipes[inner]? = some d ∧
      BindsAll (m.PipeBinds function outer levels scratch id given) d
  | 0, _, _, _, _, ran, _, _ => by cases ran
  | levels + 1, scratch, id, given, result, ran, inner, encloses => by
    obtain ⟨d, scope, starts, steps⟩ := exists_starts ran
    rcases Relation.ReflTransGen.cases_head encloses with rfl | ⟨between, nests, encloses⟩
    · refine ⟨d, starts.found, fun input isInput => ?_, fun step isStep => ?_⟩
      · obtain ⟨value, here⟩ := starts.exists_slot slots isInput
        exact ⟨value, .slot starts isInput here⟩
      · obtain ⟨before, after, s, value, inside, split, ranBefore, ranStep⟩ := steps step isStep
        exact ⟨value, .output starts split ranBefore ranStep⟩
    · obtain ⟨d', found, step, isStep, body⟩ := nests
      cases starts.found.symm.trans found
      obtain ⟨before, after, s, value, inside, split, ranBefore, ranStep⟩ := steps step isStep
      obtain ⟨args, read, ranInner⟩ := exists_arguments body ranStep
      obtain ⟨e, known, all⟩ := exists_pipeBinds slots ranInner inner encloses
      exact ⟨e, known, all.mono fun _ _ => .nested starts split ranBefore body read⟩

/-- Running a function completes it and nothing else, with a value in the row that it writes. -/
theorem runFunction_eq_ok {function : FunctionId} {entry : FunctionEntry} {p p' : Progress}
    (ran : m.runFunction function entry p = .ok p') :
    ∃ value steps, p' = (p.countSteps steps).complete function entry.returns value := by
  cases entry with
  | cond definition returns => cases ran
  | combine definition args returns =>
    unfold runFunction at ran
    dsimp only at ran
    split at ran
    · cases ran
    · obtain ⟨values, -, ran⟩ := Result.bind_eq_ok.1 ran
      split at ran
      · obtain ⟨value, -, ran⟩ := Result.bind_eq_ok.1 ran
        cases ran
        exact ⟨value, 0, rfl⟩
      · cases ran
  | pipe definition args returns =>
    obtain ⟨values, -, ran⟩ := Result.bind_eq_ok.1 ran
    obtain ⟨⟨value, steps⟩, -, ran⟩ := Result.bind_eq_ok.1 ran
    cases ran
    exact ⟨value, steps, rfl⟩

/-- A function that has run a pipe has read its arguments and run the pipe on them. -/
theorem exists_runPipe {function : FunctionId} {definition : PipeId} {args : ArgMap}
    {returns : ValueId} {p p' : Progress}
    (ran : m.runFunction function (.pipe definition args returns) p = .ok p') :
    ∃ values result, readRows p.table args.values = .ok values ∧
      m.runPipe function p.table (pipeLevels m.context) p.scratch definition
        (args.names.zip values) = .ok result := by
  obtain ⟨values, read, ran⟩ := Result.bind_eq_ok.1 ran
  obtain ⟨result, ran, -⟩ := Result.bind_eq_ok.1 ran
  exact ⟨values, result, read, ran⟩

/-- Of trees that have run one after the other, one has run the function. -/
theorem exists_child {f : FunctionId} : ∀ {children : List Tree} {p p' : Progress},
    m.runTrees children p = .ok p' → f ∈ p'.completed → f ∉ p.completed →
    ∃ before child after q q', children = before ++ child :: after ∧
      m.runTrees before p = .ok q ∧ m.runTree child q = .ok q' ∧ f ∈ q'.completed ∧
      f ∉ q.completed
  | [], p, p', ran, done, fresh => by
    cases ran
    exact absurd done fresh
  | child :: rest, p, p', ran, done, fresh => by
    rw [runTrees] at ran
    obtain ⟨q, here, later⟩ := Result.bind_eq_ok.1 ran
    by_cases already : f ∈ q.completed
    · exact ⟨[], child, rest, p, q, rfl, rfl, here, already, fresh⟩
    · obtain ⟨before, other, after, q₁, q₂, rfl, ranBefore, ranOther, done, fresh⟩ :=
        exists_child later done already
      refine ⟨child :: before, other, after, q₁, q₂, rfl, ?_, ranOther, done, fresh⟩
      rw [runTrees, here]
      exact ranBefore

/-- Of a function that has run, the output is bound; and if it runs a pipe, all slots and the outputs of
all steps of the pipe and of those that it nests. -/
structure BindsEntry (m : Evaluator) (tree : Tree) (p : Progress) (entry : FunctionEntry) : Prop where
  output : ∃ value, m.Binds tree p entry.returns value
  inside : ∀ {definition args returns}, entry = .pipe definition args returns →
    ∀ inner, m.context.Encloses definition inner →
      ∃ d, m.context.pipes[inner]? = some d ∧ BindsAll (m.Binds tree p) d

section trees

variable {tree : Tree} {p p' : Progress} {entry : FunctionEntry}

theorem BindsEntry.mono {tree' : Tree} (bound : m.BindsEntry tree' p' entry)
    (implies : ∀ target value, m.Binds tree' p' target value → m.Binds tree p target value) :
    m.BindsEntry tree p entry where
  output := bound.output.imp fun _ => implies _ _
  inside isPipe inner encloses := by
    obtain ⟨d, known, all⟩ := bound.inside isPipe inner encloses
    exact ⟨d, known, all.mono implies⟩

/-- What the function at the root of a tree has bound. -/
theorem bindsEntry_of_runFunction (slots : m.context.DistinctSlots) {id : FunctionId}
    {children : List Tree} {q : Progress} (new : id ∉ p.completed)
    (ranChildren : m.runTrees children p = .ok q) (ran : m.runFunction id entry q = .ok p')
    (row : ∃ value, m.Binds (.function id entry children) p entry.returns value) :
    m.BindsEntry (.function id entry children) p entry where
  output := row
  inside {definition args returns} isPipe inner encloses := by
    subst isPipe
    obtain ⟨values, result, read, ranPipe⟩ := exists_runPipe ran
    obtain ⟨d, known, all⟩ := exists_pipeBinds slots ranPipe inner encloses
    exact ⟨d, known, all.mono fun _ _ => .pipe new ranChildren read⟩

/-- What a function that has run in the run of a tree has bound. -/
theorem exists_binds (slots : m.context.DistinctSlots) (unfolds : tree.Unfolds m.context) :
    ∀ {p p' : Progress}, m.runTree tree p = .ok p' → ∀ f ∈ p'.completed, f ∉ p.completed →
      ∃ entry, m.context.functions[f]? = some entry ∧ m.BindsEntry tree p entry := by
  induction unfolds with
  | value unproduced =>
    intro p p' ran f done fresh
    rw [runTree] at ran
    split at ran
    · cases ran
      exact absurd done fresh
    · cases ran
  | @function id entry children known isArgs nodes unfold ih =>
    intro p p' ran f done fresh
    have row : ∀ {value}, p'.table[entry.returns]? = some value →
        m.Binds (.function id entry children) p entry.returns value := .row ran
    rw [runTree] at ran
    split at ran
    · cases ran
      exact absurd done fresh
    · next new =>
      obtain ⟨q, ranChildren, ran⟩ := Result.bind_eq_ok.1 ran
      obtain ⟨value, steps, rfl⟩ := runFunction_eq_ok ran
      rcases mem_completed_complete.1 done with rfl | done
      · exact ⟨entry, known, bindsEntry_of_runFunction slots new ranChildren ran
          ⟨value, row Table.getElem?_insert_self⟩⟩
      · obtain ⟨before, child, after, q₁, q₂, rfl, ranBefore, ranChild, done, fresh⟩ :=
          exists_child ranChildren done fresh
        obtain ⟨entry', known', bound⟩ := ih child (by simp) ranChild f done fresh
        exact ⟨entry', known', bound.mono fun _ _ => .child new ranBefore⟩
  | @cond id definition returns d condition thenBranch elseBranch known found _ _ _ _ _ _ ihCondition
      ihThen ihElse =>
    intro p p' ran f done fresh
    have row : ∀ {value}, p'.table[returns]? = some value →
        m.Binds (.cond id returns condition thenBranch elseBranch) p returns value := .row ran
    rw [runTree] at ran
    split at ran
    · cases ran
      exact absurd done fresh
    · next new =>
      obtain ⟨q, ranCondition, ran⟩ := Result.bind_eq_ok.1 ran
      obtain ⟨flag, read, ran⟩ := Result.bind_eq_ok.1 ran
      by_cases before : f ∈ q.completed
      · obtain ⟨entry, known', bound⟩ := ihCondition ranCondition f before fresh
        exact ⟨entry, known', bound.mono fun _ _ => .condition new⟩
      · -- the cond itself, or something in the branch that was chosen
        have chosen : ∀ choice : Bool, flag.asBool? = some choice → (do
            let p ← m.runTree (if choice then thenBranch else elseBranch) q
            let value ← readRow p.table (if choice then thenBranch else elseBranch).output
            return p.complete id returns value) = .ok p' →
            ∃ entry, m.context.functions[f]? = some entry ∧
              m.BindsEntry (.cond id returns condition thenBranch elseBranch) p entry := by
          intro choice choose ran
          obtain ⟨q', ranBranch, ran⟩ := Result.bind_eq_ok.1 ran
          obtain ⟨value, -, ran⟩ := Result.bind_eq_ok.1 ran
          cases ran
          rcases mem_completed_complete.1 done with rfl | done
          · refine ⟨.cond definition returns, known, ⟨value, row Table.getElem?_insert_self⟩, ?_⟩
            intro _ _ _ isPipe
            cases isPipe
          · obtain ⟨entry, known', bound⟩ : ∃ entry, m.context.functions[f]? = some entry ∧
                m.BindsEntry (if choice then thenBranch else elseBranch) q entry := by
              cases choice with
              | true => exact ihThen ranBranch f done before
              | false => exact ihElse ranBranch f done before
            exact ⟨entry, known', bound.mono fun _ _ => .branch new ranCondition read choose⟩
        split at ran
        · cases ran
        · next choose => exact chosen true choose ran
        · next choose => exact chosen false choose ran

end trees

end Evaluator

end TagFlow
