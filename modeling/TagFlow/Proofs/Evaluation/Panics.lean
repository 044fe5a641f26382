import TagFlow.Proofs.Evaluation.Bound
import TagFlow.Proofs.Evaluation.Sessions

/-!
# Faults of operations

An evaluator that catches panics differs from one that does not in the end of an evaluation only: what
the one stops with is what the other makes of its panic (`Evaluator.evaluate_catching`). Whatever was
computed before the panic is lost in both.

A fault, an error or a panic, is charged to the function that was running. `Evaluator.Reaches` and
`Evaluator.Applies` say which functions an evaluation comes to run and which operations they apply to
what, those of nested pipes included. An evaluation panics where one of these operations does, and
nowhere else (`Context.evaluate_panics_iff`); and an error that is charged to a function is one of these
operations' too, unless it is about the flag of a cond (`Context.exists_appliesIn`).
-/

namespace TagFlow

/-- What is made of a panic that is caught: an error of the function that was running. -/
def Halt.caught : Halt → Halt
  | .failed e => .failed e
  | .panicked function message => .failed (.functionExecution function (.panicked message))

/-- What a fault of an operation stops an evaluation with that does not catch panics. -/
def Fault.halt (function : FunctionId) : Fault → Halt
  | .error e => .failed (.functionExecution function e)
  | .panic message => .panicked function message

theorem Fault.halt_inj {f function : FunctionId} {fault fault' : Fault} :
    fault.halt f = fault'.halt function ↔ f = function ∧ fault = fault' := by
  cases fault <;> cases fault' <;> simp [halt]

/-! ### Results without faults -/

/-- The result is not a fault of an operation. -/
def Calm {α : Type} : Except Halt α → Prop
  | .error (.panicked _ _) | .error (.failed (.functionExecution _ _)) => False
  | .error (.failed _) | .ok _ => True

section calm

variable {α β : Type} {x : Except Halt α} {f : α → Except Halt β}

theorem Calm.bind (first : Calm x) (rest : ∀ a, Calm (f a)) : Calm (x >>= f) := by
  match x with
  | .ok a => exact rest a
  | .error (.failed e) => cases e <;> exact first
  | .error (.panicked function message) => exact first

theorem calm_mapM (all : ∀ a, Calm (f a)) : ∀ items : List α, Calm (items.mapM f)
  | [] => trivial
  | item :: rest => by
    rw [List.mapM_cons]
    exact (all item).bind fun _ => (calm_mapM all rest).bind fun _ => trivial

theorem calm_foldlM {step : β → α → Except Halt β} (all : ∀ b a, Calm (step b a)) :
    ∀ (items : List α) (start : β), Calm (items.foldlM step start)
  | [], _ => trivial
  | item :: rest, start => by
    rw [List.foldlM_cons]
    exact (all start item).bind fun _ => calm_foldlM all rest _

/-- Catching panics changes nothing where there are none. -/
theorem Calm.mapError_caught (calm : Calm x) : x.mapError .caught = x := by
  match x with
  | .ok a | .error (.failed e) => rfl
  | .error (.panicked function message) => exact calm.elim

theorem mapError_caught_ne_panicked (x : Except Halt α) (function : FunctionId) (message : String) :
    x.mapError Halt.caught ≠ .error (.panicked function message) := by
  match x with
  | .ok a | .error (.failed e) | .error (.panicked f m) => exact fun same => nomatch same

theorem not_calm {fault : Fault} {function : FunctionId} (stopped : x = .error (fault.halt function)) :
    ¬ Calm x := by
  rintro calm
  rw [stopped] at calm
  cases fault <;> exact calm

end calm

namespace Evaluator

variable {m : Evaluator} {function : FunctionId} {d : PipeDefinition} {outer scope : ValueTable}
  {scratch : Scratch}

theorem calm_readRow (table : ValueTable) (id : ValueId) : Calm (readRow table id) := by
  unfold readRow
  split <;> trivial

/-- Making something of a row does not panic. -/
theorem calm_ofRow {α : Type} (table : ValueTable) (id : ValueId) (f : Value → α) :
    Calm (do
      let value ← readRow table id
      return f value) :=
  (calm_readRow table id).bind fun _ => trivial

theorem calm_readRows (table : ValueTable) (ids : List ValueId) : Calm (readRows table ids) :=
  calm_mapM (calm_readRow table) ids

theorem calm_inputScope (given : List (String × Value)) : Calm (inputScope function d given) := by
  unfold inputScope
  split
  · trivial
  · apply calm_foldlM
    intro scope input
    split <;> trivial

theorem calm_readArguments (s : PipeProgress) (step : PipeStep) :
    Calm (readArguments function d outer s step) := by
  apply calm_mapM
  rintro ⟨name, source⟩
  refine Calm.bind ?_ fun _ => trivial
  cases source with
  | input name =>
    unfold readSource
    dsimp only
    split <;> trivial
  | step index =>
    unfold readSource
    dsimp only
    split <;> trivial
  | value id =>
    unfold readSource
    dsimp only
    split
    · trivial
    · exact calm_readRow outer id

/-! ### Catching panics -/

/-- The evaluator, but panics are caught. -/
def catching (m : Evaluator) : Evaluator := { m with catchPanics := true }

@[simp] theorem context_catching : m.catching.context = m.context := rfl

@[simp] theorem registry_catching : m.catching.registry = m.registry := rfl

theorem combine_catching (d : CombineDefinition) (left right : Value) :
    m.catching.combine function d left right =
      (m.combine function d left right).mapError .caught := by
  unfold combine charge
  rw [registry_catching]
  cases applyDefinition m.registry d left right with
  | ok value => rfl
  | error fault =>
    cases fault with
    | error e => rfl
    | panic message => cases m.catchPanics <;> rfl

/-- The results of nested pipes, with their panics caught. -/
def nestedCaught (nested : Nested) : Nested :=
  fun scratch id given => (nested scratch id given).mapError .caught

theorem runStep_catching {nested : Nested} (s : PipeProgress) (step : PipeStep) :
    m.catching.runStep function (nestedCaught nested) d outer scratch s step =
      (m.runStep function nested d outer scratch s step).mapError .caught := by
  unfold runStep
  rw [Result.mapError_bind, (calm_readArguments s step).mapError_caught]
  congr 1
  funext args
  cases step.body with
  | pipe id => rfl
  | combine id =>
    dsimp only
    rw [context_catching]
    cases m.context.combines[id]? with
    | none => rfl
    | some definition =>
      match args with
      | [left, right] =>
        dsimp only
        rw [combine_catching, Result.mapError_bind]
        rfl
      | [] | [_] | _ :: _ :: _ :: _ => rfl

theorem runSteps_catching {nested : Nested} : ∀ (steps : List PipeStep) (s : PipeProgress),
      m.catching.runSteps function (nestedCaught nested) d outer scratch s steps =
        (m.runSteps function nested d outer scratch s steps).mapError .caught
  | [], _ => rfl
  | step :: rest, s => by
    rw [runSteps, runSteps, runStep_catching, Result.mapError_bind]
    simp only [runSteps_catching rest]

theorem runPipe_catching : ∀ levels : Nat,
    m.catching.runPipe function outer levels = nestedCaught (m.runPipe function outer levels)
  | 0 => by
    funext scratch id given
    rfl
  | levels + 1 => by
    funext scratch id given
    unfold nestedCaught
    rw [runPipe, runPipe, context_catching]
    cases m.context.pipes[id]? with
    | none => rfl
    | some d =>
      dsimp only
      split
      · rfl
      · rw [Result.mapError_bind, (calm_inputScope given).mapError_caught]
        congr 1
        funext scope
        rw [runPipe_catching levels, runSteps_catching, Result.mapError_bind]
        congr 1
        funext result
        split <;> rfl

theorem runFunction_catching (id : FunctionId) (entry : FunctionEntry) (p : Progress) :
    m.catching.runFunction id entry p = (m.runFunction id entry p).mapError .caught := by
  cases entry with
  | cond definition returns => rfl
  | combine definition args returns =>
    unfold runFunction
    dsimp only
    rw [context_catching]
    cases m.context.combines[definition]? with
    | none => rfl
    | some d =>
      dsimp only
      rw [Result.mapError_bind, (calm_readRows p.table args.values).mapError_caught]
      congr 1
      funext values
      match values with
      | [left, right] =>
        dsimp only
        rw [combine_catching, Result.mapError_bind]
        rfl
      | [] | [_] | _ :: _ :: _ :: _ => rfl
  | pipe definition args returns =>
    unfold runFunction
    dsimp only
    rw [Result.mapError_bind, (calm_readRows p.table args.values).mapError_caught]
    congr 1
    funext values
    rw [Result.mapError_bind, runPipe_catching]
    rfl

theorem runChosen_catching {id : FunctionId} {returns : ValueId} {branch : Tree} {p : Progress}
    (run : m.catching.runTree branch p = (m.runTree branch p).mapError .caught) :
    m.catching.runChosen id returns branch p = (m.runChosen id returns branch p).mapError .caught := by
  unfold runChosen
  rw [run, Result.mapError_bind]
  congr 1
  funext q
  exact (calm_ofRow q.table branch.output _).mapError_caught.symm

mutual

theorem runTree_catching : ∀ (tree : Tree) (p : Progress),
    m.catching.runTree tree p = (m.runTree tree p).mapError .caught
  | .value id, p => by
    rw [runTree, runTree]
    split <;> rfl
  | .function id entry children, p => by
    by_cases done : id ∈ p.completed
    · rw [runTree_of_done rfl done, runTree_of_done rfl done]
      rfl
    · rw [runTree_function_of_new done, runTree_function_of_new done, Result.mapError_bind,
        runTrees_catching children]
      simp only [runFunction_catching]
  | .cond id returns condition thenBranch elseBranch, p => by
    by_cases done : id ∈ p.completed
    · rw [runTree_of_done rfl done, runTree_of_done rfl done]
      rfl
    · rw [runTree_cond_of_new done, runTree_cond_of_new done, Result.mapError_bind,
        runTree_catching condition]
      congr 1
      funext p
      rw [Result.mapError_bind, (calm_readRow p.table condition.output).mapError_caught]
      congr 1
      funext flag
      cases flag.asBool? with
      | none => rfl
      | some choice =>
        cases choice with
        | true => exact runChosen_catching (runTree_catching thenBranch p)
        | false => exact runChosen_catching (runTree_catching elseBranch p)

theorem runTrees_catching : ∀ (trees : List Tree) (p : Progress),
    m.catching.runTrees trees p = (m.runTrees trees p).mapError .caught
  | [], p => by
    rw [runTrees, runTrees]
    rfl
  | tree :: rest, p => by
    rw [runTrees, runTrees, Result.mapError_bind, runTree_catching tree]
    simp only [runTrees_catching rest]

end

/-- Catching panics changes what an evaluation stops with, and nothing else. -/
theorem evaluate_catching (root : Node) (session : Nat) :
    m.catching.evaluate root session = (m.evaluate root session).mapError .caught := by
  unfold evaluate
  rw [context_catching]
  cases Plan.build m.context root with
  | error e => rfl
  | ok plan =>
    unfold evaluateTree
    dsimp only
    rw [Result.mapError_bind, runTree_catching, context_catching]
    congr 1
    funext p
    exact (calm_ofRow p.table _ _).mapError_caught.symm

/-! ### Where an operation is applied -/

/-- In the run of a pipe for a function, with a table around it, a definition is applied to two values:
by a step of this pipe or of one that it nests. -/
inductive PipeApplies (m : Evaluator) (function : FunctionId) (outer : ValueTable) :
    (levels : Nat) → Scratch → PipeId → List (String × Value) → CombineDefinition → Value → Value → Prop
  | step {levels scratch id given d scope before step after s combine definition left right} :
      m.Starts function id given d scope → d.steps = before ++ step :: after →
      m.runSteps function (m.runPipe function outer levels) d outer scratch (.start scope) before =
        .ok s →
      step.body = .combine combine → m.context.combines[combine]? = some definition →
      readArguments function d outer s step = .ok [left, right] →
      PipeApplies m function outer (levels + 1) scratch id given definition left.2 right.2
  | nested {levels scratch id given d scope before step after s inner args definition left right} :
      m.Starts function id given d scope → d.steps = before ++ step :: after →
      m.runSteps function (m.runPipe function outer levels) d outer scratch (.start scope) before =
        .ok s →
      step.body = .pipe inner → readArguments function d outer s step = .ok args →
      PipeApplies m function outer levels (scratch.skip s.count) inner args definition left right →
      PipeApplies m function outer (levels + 1) scratch id given definition left right

/-- While the entry of a function is run from a progress, a definition is applied to two values: that of
a combine to its arguments, those of a pipe in its steps. -/
inductive Applies (m : Evaluator) (function : FunctionId) :
    FunctionEntry → Progress → CombineDefinition → Value → Value → Prop
  | combine {combine args returns p definition left right} :
      m.context.combines[combine]? = some definition →
      readRows p.table args.values = .ok [left, right] →
      Applies m function (.combine combine args returns) p definition left right
  | pipe {pipe args returns p values definition left right} :
      readRows p.table args.values = .ok values →
      m.PipeApplies function p.table (pipeLevels m.context) p.scratch pipe (args.names.zip values)
        definition left right →
      Applies m function (.pipe pipe args returns) p definition left right

/-- The run of a tree from a progress comes to run the entry of a function, from a later progress. -/
inductive Reaches (m : Evaluator) :
    Tree → Progress → FunctionId → FunctionEntry → Progress → Prop
  | here {id entry children p q} : id ∉ p.completed → m.runTrees children p = .ok q →
      Reaches m (.function id entry children) p id entry q
  | child {id entry before child after p p' f found q} : id ∉ p.completed →
      m.runTrees before p = .ok p' → Reaches m child p' f found q →
      Reaches m (.function id entry (before ++ child :: after)) p f found q
  | condition {id returns condition thenBranch elseBranch p f found q} : id ∉ p.completed →
      Reaches m condition p f found q →
      Reaches m (.cond id returns condition thenBranch elseBranch) p f found q
  | branch {id returns condition thenBranch elseBranch p p' flag choice f found q} :
      id ∉ p.completed → m.runTree condition p = .ok p' →
      readRow p'.table condition.output = .ok flag → flag.asBool? = some choice →
      Reaches m (if choice then thenBranch else elseBranch) p' f found q →
      Reaches m (.cond id returns condition thenBranch elseBranch) p f found q

/-- Of all that is applied, something has this fault. -/
def Faulty (m : Evaluator) (applies : CombineDefinition → Value → Value → Prop) (fault : Fault) :
    Prop :=
  ∃ d left right, applies d left right ∧ applyDefinition m.registry d left right = .error fault

/-! ### Pipes that stop -/

section pipes

variable {levels : Nat} {id : PipeId} {given : List (String × Value)} {s : PipeProgress} {halt : Halt}
  {f : FunctionId} {fault : Fault}

theorem combine_eq_halt (lets : m.catchPanics = false) {d : CombineDefinition} {left right : Value} :
    m.combine function d left right = .error (fault.halt f) ↔
      f = function ∧ applyDefinition m.registry d left right = .error fault := by
  have charged : ∀ other : Fault, m.charge function (.error other) = .error (other.halt function) := by
    intro other
    unfold charge
    cases other with
    | error e => rfl
    | panic message =>
      rw [lets]
      rfl
  unfold combine
  cases applyDefinition m.registry d left right with
  | ok value => exact iff_of_false (fun same => nomatch same) fun same => nomatch same.2
  | error other =>
    rw [charged, Except.error.injEq, Except.error.injEq, Fault.halt_inj]
    exact and_congr eq_comm .rfl

/-- Steps that stop have run up to one that stops. -/
theorem exists_failing_step {nested : Nested} : ∀ {steps : List PipeStep} {s : PipeProgress},
      m.runSteps function nested d outer scratch s steps = .error halt →
      ∃ before step after s', steps = before ++ step :: after ∧
        m.runSteps function nested d outer scratch s before = .ok s' ∧
        m.runStep function nested d outer scratch s' step = .error halt
  | [], _, stopped => by cases stopped
  | step :: rest, s, stopped => by
    rw [runSteps] at stopped
    rcases Result.bind_eq_error.1 stopped with here | ⟨⟨value, inside⟩, ran, later⟩
    · exact ⟨[], step, rest, s, rfl, rfl, here⟩
    · obtain ⟨before, step', after, s', rfl, ranBefore, there⟩ := exists_failing_step later
      refine ⟨step :: before, step', after, s', rfl, ?_, there⟩
      rw [runSteps, ran]
      exact ranBefore

/-- A pipe stops where one of its steps does. -/
theorem Starts.stops {before after : List PipeStep} {step : PipeStep}
    (starts : m.Starts function id given d scope) (split : d.steps = before ++ step :: after)
    (ranBefore : m.runSteps function (m.runPipe function outer levels) d outer scratch (.start scope)
      before = .ok s)
    (stopped : m.runStep function (m.runPipe function outer levels) d outer scratch s step =
      .error halt) :
    m.runPipe function outer (levels + 1) scratch id given = .error halt := by
  have nonempty : ¬ d.steps.isEmpty := fun empty => starts.nonempty (List.isEmpty_iff.1 empty)
  have steps : m.runSteps function (m.runPipe function outer levels) d outer scratch (.start scope)
      d.steps = .error halt := by
    rw [split, runSteps_append, ranBefore]
    show m.runSteps function _ d outer scratch s (step :: after) = _
    rw [runSteps, stopped]
    rfl
  rw [runPipe, starts.found]
  dsimp only
  rw [if_neg nonempty, starts.made]
  show (m.runSteps function _ d outer scratch (.start scope) d.steps >>= _) = _
  rw [steps]
  rfl

/-- A step has the fault of its operation, or of the pipe that it nests. -/
theorem runStep_eq_halt (lets : m.catchPanics = false) {nested : Nested} {step : PipeStep} :
    m.runStep function nested d outer scratch s step = .error (fault.halt f) ↔
      (∃ combine definition left right, step.body = .combine combine ∧
        m.context.combines[combine]? = some definition ∧
        readArguments function d outer s step = .ok [left, right] ∧ f = function ∧
        applyDefinition m.registry definition left.2 right.2 = .error fault) ∨
      ∃ inner args, step.body = .pipe inner ∧
        readArguments function d outer s step = .ok args ∧
        nested (scratch.skip s.count) inner args = .error (fault.halt f) := by
  constructor
  · intro stopped
    unfold runStep at stopped
    rcases Result.bind_eq_error.1 stopped with unread | ⟨args, read, stopped⟩
    · exact (not_calm unread (calm_readArguments s step)).elim
    · split at stopped
      · next combine body =>
        split at stopped
        · exact (not_calm stopped trivial).elim
        · next definition known =>
          split at stopped
          · next left right =>
            rcases Result.bind_eq_error.1 stopped with here | ⟨_, _, ran⟩
            · obtain ⟨rfl, faulty⟩ := (combine_eq_halt lets).1 here
              exact .inl ⟨combine, definition, left, right, body, known, read, rfl, faulty⟩
            · cases ran
          · exact (not_calm stopped trivial).elim
      · next inner body => exact .inr ⟨inner, args, body, read, stopped⟩
  · unfold runStep
    rintro (⟨combine, definition, left, right, body, known, read, rfl, faulty⟩ |
      ⟨inner, args, body, read, stopped⟩)
    · have stopped : m.combine f definition left.2 right.2 = .error (fault.halt f) :=
        (combine_eq_halt lets).2 ⟨rfl, faulty⟩
      rw [read, body]
      dsimp only [bind, Except.bind]
      rw [known]
      dsimp only
      rw [stopped]
    · rw [read, body]
      exact stopped

theorem faulty_of_runPipe (lets : m.catchPanics = false) : ∀ {levels : Nat} {scratch : Scratch}
    {id : PipeId} {given : List (String × Value)},
    m.runPipe function outer levels scratch id given = .error (fault.halt f) →
      f = function ∧ m.Faulty (m.PipeApplies function outer levels scratch id given) fault
  | 0, _, _, _, stopped => (not_calm stopped trivial).elim
  | levels + 1, scratch, id, given, stopped => by
    rw [runPipe] at stopped
    split at stopped
    · exact (not_calm stopped trivial).elim
    · next d found =>
      split at stopped
      · exact (not_calm stopped trivial).elim
      · next nonempty =>
        rcases Result.bind_eq_error.1 stopped with unmade | ⟨scope, made, stopped⟩
        · exact (not_calm unmade (calm_inputScope given)).elim
        have starts : m.Starts function id given d scope := by
          refine ⟨found, ?_, made⟩
          intro empty
          exact nonempty (List.isEmpty_iff.2 empty)
        rcases Result.bind_eq_error.1 stopped with stopped | ⟨s, -, last⟩
        · -- the run can be cut at the step that stopped it
          obtain ⟨before, step, after, s, split, ranBefore, stopped⟩ := exists_failing_step stopped
          rcases (runStep_eq_halt lets).1 stopped with
            ⟨combine, definition, left, right, body, known, read, rfl, faulty⟩ |
            ⟨inner, args, body, read, stopped⟩
          · exact ⟨rfl, definition, left.2, right.2,
              .step starts split ranBefore body known read, faulty⟩
          · obtain ⟨rfl, definition, left, right, applies, faulty⟩ := faulty_of_runPipe lets stopped
            exact ⟨rfl, definition, left, right, .nested starts split ranBefore body read applies,
              faulty⟩
        · split at last
          · cases last
          · exact (not_calm last trivial).elim

/-- A pipe has the faults of the operations that it applies. -/
theorem runPipe_eq_halt (lets : m.catchPanics = false) :
    m.runPipe function outer levels scratch id given = .error (fault.halt f) ↔
      f = function ∧ m.Faulty (m.PipeApplies function outer levels scratch id given) fault := by
  refine ⟨faulty_of_runPipe lets, ?_⟩
  rintro ⟨rfl, definition, left, right, applies, faulty⟩
  induction applies with
  | step starts split ranBefore body known read =>
    exact starts.stops split ranBefore ((runStep_eq_halt lets).2
      (.inl ⟨_, _, _, _, body, known, read, rfl, faulty⟩))
  | nested starts split ranBefore body read _ ih =>
    exact starts.stops split ranBefore ((runStep_eq_halt lets).2
      (.inr ⟨_, _, body, read, ih faulty⟩))

end pipes

/-! ### Functions and trees that stop -/

section trees

variable {id f : FunctionId} {entry : FunctionEntry} {p q : Progress} {tree : Tree} {halt : Halt}
  {fault : Fault}

/-- A function has the faults of the operations that it applies. -/
theorem runFunction_eq_halt (fault : Fault) (lets : m.catchPanics = false) :
    m.runFunction id entry p = .error (fault.halt f) ↔
      f = id ∧ m.Faulty (m.Applies id entry p) fault := by
  constructor
  · intro stopped
    cases entry with
    | cond definition returns => exact (not_calm stopped trivial).elim
    | combine definition args returns =>
      unfold runFunction at stopped
      dsimp only at stopped
      split at stopped
      · exact (not_calm stopped trivial).elim
      · next d known =>
        rcases Result.bind_eq_error.1 stopped with unread | ⟨values, read, stopped⟩
        · exact (not_calm unread (calm_readRows p.table args.values)).elim
        · split at stopped
          · next left right =>
            rcases Result.bind_eq_error.1 stopped with here | ⟨_, _, ran⟩
            · obtain ⟨rfl, faulty⟩ := (combine_eq_halt lets).1 here
              exact ⟨rfl, d, left, right, .combine known read, faulty⟩
            · cases ran
          · exact (not_calm stopped trivial).elim
    | pipe definition args returns =>
      rcases Result.bind_eq_error.1 stopped with unread | ⟨values, read, stopped⟩
      · exact (not_calm unread (calm_readRows p.table args.values)).elim
      · rcases Result.bind_eq_error.1 stopped with here | ⟨_, _, ran⟩
        · obtain ⟨rfl, d, left, right, applies, faulty⟩ := (runPipe_eq_halt lets).1 here
          exact ⟨rfl, d, left, right, .pipe read applies, faulty⟩
        · cases ran
  · rintro ⟨rfl, d, left, right, applies, faulty⟩
    cases applies with
    | combine known read =>
      unfold runFunction
      dsimp only
      rw [known]
      dsimp only
      rw [read]
      show (m.combine f d left right >>= _) = _
      rw [(combine_eq_halt lets).2 ⟨rfl, faulty⟩]
      rfl
    | pipe read applies =>
      unfold runFunction
      dsimp only
      rw [read]
      show (m.runPipe f p.table (pipeLevels m.context) _ _ _ >>= _) = _
      rw [(runPipe_eq_halt lets).2 ⟨rfl, d, left, right, applies, faulty⟩]
      rfl

/-- Trees run one after the other. -/
theorem runTrees_append : ∀ (before after : List Tree) (p : Progress),
    m.runTrees (before ++ after) p = m.runTrees before p >>= m.runTrees after
  | [], after, p => by
    rw [runTrees]
    rfl
  | tree :: before, after, p => by
    rw [List.cons_append, runTrees, runTrees, bind_assoc]
    congr 1
    funext p
    exact runTrees_append before after p

/-- Trees that stop have run up to one that stops. -/
theorem exists_failing_tree : ∀ {trees : List Tree} {p : Progress},
    m.runTrees trees p = .error halt → ∃ before tree after q, trees = before ++ tree :: after ∧
      m.runTrees before p = .ok q ∧ m.runTree tree q = .error halt
  | [], p, stopped => by
    rw [runTrees] at stopped
    cases stopped
  | tree :: rest, p, stopped => by
    rw [runTrees] at stopped
    rcases Result.bind_eq_error.1 stopped with here | ⟨q, ran, later⟩
    · refine ⟨[], tree, rest, p, rfl, ?_, here⟩
      rw [runTrees]
    · obtain ⟨before, other, after, q', rfl, ranBefore, there⟩ := exists_failing_tree later
      refine ⟨tree :: before, other, after, q', rfl, ?_, there⟩
      rw [runTrees, ran]
      exact ranBefore

/-- A run stops where it reaches a function that stops. -/
theorem Reaches.stops (reaches : m.Reaches tree p f entry q)
    (stopped : m.runFunction f entry q = .error halt) : m.runTree tree p = .error halt := by
  induction reaches with
  | here new ran =>
    rw [runTree_function_of_new new, ran]
    exact stopped
  | child new ran _ ih =>
    rw [runTree_function_of_new new, runTrees_append, ran]
    show (m.runTrees (_ :: _) _ >>= _) = _
    rw [runTrees, ih stopped]
    rfl
  | condition new _ ih =>
    rw [runTree_cond_of_new new, ih stopped]
    rfl
  | @branch id returns condition thenBranch elseBranch p p' flag choice f found q new ran read choose
      _ ih =>
    rw [runTree_cond_of_new new, ran]
    show (readRow p'.table condition.output >>= _) = _
    rw [read]
    dsimp only [bind, Except.bind]
    rw [choose]
    show m.runChosen id returns _ p' = _
    unfold runChosen
    rw [ih stopped]
    rfl

/-- The fault of a cond whose flag is no boolean. -/
def NoFlag (fault : Fault) : Prop := ∃ ty, fault = .error (.typeMismatch "cond" .boolean ty)

/-- Where a tree stops with a fault, the run has reached the function that is charged, and this function
stops with the fault; or a cond is charged, because of its flag. -/
theorem exists_reaches (lets : m.catchPanics = false) (unfolds : tree.Unfolds m.context) :
    ∀ {p : Progress}, m.runTree tree p = .error (fault.halt f) →
      NoFlag fault ∨ ∃ entry q, m.context.functions[f]? = some entry ∧
        m.Reaches tree p f entry q ∧ m.runFunction f entry q = .error (fault.halt f) := by
  induction unfolds with
  | value unproduced =>
    intro p stopped
    rw [runTree] at stopped
    split at stopped
    · cases stopped
    · exact (not_calm stopped trivial).elim
  | @function id entry children known isArgs nodes unfold ih =>
    intro p stopped
    by_cases done : id ∈ p.completed
    · cases (runTree_of_done rfl done).symm.trans stopped
    · rw [runTree_function_of_new done] at stopped
      rcases Result.bind_eq_error.1 stopped with below | ⟨q, ran, here⟩
      · obtain ⟨before, child, after, q, rfl, ranBefore, there⟩ := exists_failing_tree below
        refine (ih child (by simp) there).imp_right ?_
        rintro ⟨entry', q', known', reaches, stops⟩
        exact ⟨entry', q', known', .child done ranBefore reaches, stops⟩
      · -- all below has run, so the function itself is charged
        obtain ⟨rfl, -⟩ := (runFunction_eq_halt _ lets).1 here
        exact .inr ⟨entry, q, known, .here done ran, here⟩
  | @cond id definition returns d condition thenBranch elseBranch known found _ _ _ _ _ _ ihCondition
      ihThen ihElse =>
    intro p stopped
    by_cases done : id ∈ p.completed
    · cases (runTree_of_done rfl done).symm.trans stopped
    · rw [runTree_cond_of_new done] at stopped
      rcases Result.bind_eq_error.1 stopped with below | ⟨q, ran, stopped⟩
      · refine (ihCondition below).imp_right ?_
        rintro ⟨entry, q', known', reaches, stops⟩
        exact ⟨entry, q', known', .condition done reaches, stops⟩
      rcases Result.bind_eq_error.1 stopped with unread | ⟨flag, read, stopped⟩
      · exact (not_calm unread (calm_readRow q.table condition.output)).elim
      split at stopped
      · have same : (Fault.error (.typeMismatch "cond" .boolean flag.baseType)).halt id =
            fault.halt f := Except.error.inj stopped
        exact .inl ⟨flag.baseType, (Fault.halt_inj.1 same).2.symm⟩
      · next choice choose =>
        rcases Result.bind_eq_error.1 stopped with below | ⟨q', -, later⟩
        · have branch : NoFlag fault ∨ ∃ entry q', m.context.functions[f]? = some entry ∧
              m.Reaches (if choice then thenBranch else elseBranch) q f entry q' ∧
              m.runFunction f entry q' = .error (fault.halt f) := by
            cases choice with
            | true => exact ihThen below
            | false => exact ihElse below
          refine branch.imp_right ?_
          rintro ⟨entry, q', known', reaches, stops⟩
          exact ⟨entry, q', known', .branch done ran read choose reaches, stops⟩
        · exact (not_calm later (calm_ofRow q'.table _ _)).elim

end trees

end Evaluator

namespace Context

variable {c : Context} {registry : Registry} {root : Node} {session : Nat} {function : FunctionId}
  {message : String}

/-- The evaluation of a node comes to run a function of the table, and there a definition is applied to
two values. -/
def AppliesIn (c : Context) (registry : Registry) (root : Node) (session : Nat) (function : FunctionId)
    (d : CombineDefinition) (left right : Value) : Prop :=
  let m : Evaluator := ⟨c, registry, false⟩
  ∃ plan entry p, Plan.build c root = .ok plan ∧ c.functions[function]? = some entry ∧
    m.Reaches plan.tree (.start session c.values) function entry p ∧
    m.Applies function entry p d left right

/-- The evaluation of a node comes to run a function of the table, and an operation that is applied
there, or one of its adapters, panics with this message. -/
def PanicsIn (c : Context) (registry : Registry) (root : Node) (session : Nat) (function : FunctionId)
    (message : String) : Prop :=
  ∃ d left right, c.AppliesIn registry root session function d left right ∧
    Evaluator.applyDefinition registry d left right = .error (.panic message)

/-- An evaluation that stops with a fault of a function has applied an operation there that has the
fault; or the function is a cond, and the fault is about its flag. -/
theorem exists_appliesIn (fault : Fault)
    (stopped : c.evaluate registry root session = .error (fault.halt function)) :
    Evaluator.NoFlag fault ∨
      ∃ d left right, c.AppliesIn registry root session function d left right ∧
        Evaluator.applyDefinition registry d left right = .error fault := by
  let m : Evaluator := ⟨c, registry, false⟩
  have stopped : m.evaluate root session = _ := stopped
  unfold Evaluator.evaluate at stopped
  have built := Plan.build_spec m.context root
  cases planned : Plan.build m.context root with
  | error e =>
    -- planning runs no operations
    rw [planned] at stopped built
    refine (not_calm stopped ?_).elim
    cases built <;> trivial
  | ok plan =>
    rw [planned] at stopped built
    rcases Result.bind_eq_error.1 stopped with below | ⟨q, -, later⟩
    · refine (Evaluator.exists_reaches rfl built.1 below).imp_right ?_
      rintro ⟨entry, p, known, reaches, stops⟩
      obtain ⟨-, d, left, right, applies, faulty⟩ := (Evaluator.runFunction_eq_halt _ rfl).1 stops
      exact ⟨d, left, right, ⟨plan, entry, p, planned, known, reaches, applies⟩, faulty⟩
    · exact (not_calm later (Evaluator.calm_ofRow q.table _ _)).elim

/-- An evaluation panics where an operation does that one of its functions applies. -/
theorem evaluate_panics_iff :
    c.evaluate registry root session = .error (.panicked function message) ↔
      c.PanicsIn registry root session function message := by
  constructor
  · intro stopped
    rcases exists_appliesIn (.panic message) stopped with ⟨ty, same⟩ | found
    · cases same
    · exact found
  · let m : Evaluator := ⟨c, registry, false⟩
    rintro ⟨d, left, right, ⟨plan, entry, p, planned, -, reaches, applies⟩, panics⟩
    have stops : m.runFunction function entry p = .error (.panicked function message) :=
      (Evaluator.runFunction_eq_halt (.panic message) rfl).2
        ⟨rfl, d, left, right, applies, panics⟩
    have stopped := reaches.stops stops
    show m.evaluate root session = _
    unfold Evaluator.evaluate
    rw [planned]
    show (m.runTree plan.tree (.start session c.values) >>= _) = _
    rw [stopped]
    rfl

/-- Evaluation that never panics agrees with evaluation that may, each with fresh scratch identifiers of
its own: the same value and table, or the same error and the table of the graph; and where the one
panics, the other gives the table of the graph and charges the function that was running. In no session
does a panic escape the evaluator that catches them. -/
theorem evaluateSafe_agrees {c : Context} {session session' : Nat} (fresh : c.FreshIn session)
    (fresh' : c.FreshIn session') (registry : Registry) (root : Node) :
    (∀ session function message,
      (Evaluator.mk c registry true).evaluate root session ≠ .error (.panicked function message)) ∧
    match c.evaluate registry root session with
    | .ok evaluation =>
      c.evaluateSafe registry root session' = ⟨some evaluation.value, evaluation.values, []⟩
    | .error (.failed e) => c.evaluateSafe registry root session' = ⟨none, c.values, [e]⟩
    | .error (.panicked function message) =>
      c.evaluateSafe registry root session' =
        ⟨none, c.values, [.functionExecution function (.panicked message)]⟩ ∧
      c.PanicsIn registry root session function message := by
  have caught : ∀ session, (Evaluator.mk c registry true).evaluate root session =
      (c.evaluate registry root session).mapError Halt.caught :=
    Evaluator.evaluate_catching (m := ⟨c, registry, false⟩) root
  refine ⟨fun session function message => ?_, ?_⟩
  · rw [caught]
    exact mapError_caught_ne_panicked _ function message
  · unfold evaluateSafe
    rw [caught, evaluate_session fresh fresh']
    match ran : c.evaluate registry root session with
    | .ok evaluation | .error (.failed e) => rfl
    | .error (.panicked function message) => exact ⟨rfl, evaluate_panics_iff.1 ran⟩

/-- Operations of which one always panics. -/
def Diamond.panicking : Registry :=
  .extend .empty [("generic::equals", fun _ _ => .error (.panic "boom"))]
    [("generic::pass", .ok), ("boolean::pass", .ok)]

open Diamond in
/-- A panic two pipes deep is charged to the function that called the outer pipe. -/
theorem evaluateSafe_agrees_diamond :
    (diamond.FreshIn 1 ∧ diamond.FreshIn 2) ∧
    diamond.evaluate panicking (.function choose) 1 = .error (.panicked check "boom") ∧
    diamond.evaluateSafe panicking (.function choose) 2 =
      ⟨none, diamond.values, [.functionExecution check (.panicked "boom")]⟩ ∧
    diamond.PanicsIn panicking (.function choose) 1 check "boom" := by
  have panics : diamond.evaluate panicking (.function choose) 1 =
      .error (.panicked check "boom") := by
    rfl
  have agrees := (evaluateSafe_agrees (freshIn 1) (freshIn 2) panicking (.function choose)).2
  rw [panics] at agrees
  exact ⟨⟨freshIn 1, freshIn 2⟩, panics, agrees⟩

/-! ### Scratch identifiers in a graph

A graph that was written by hand may have an absolute value that looks like a scratch identifier. In the
session of that identifier, the second step reads what the first has given; in any other session there is
no such value. -/

namespace Echo

def scratch : ValueId := ⟨"v:f:p.step0#1.1", by decide⟩
def echoed : ValueId := ⟨"v:echoed", by decide⟩
def run : FunctionId := ⟨"f:p", by decide⟩
def pipe : PipeId := ⟨"pd:p", by decide⟩

end Echo

open Diamond Echo in
def echo : Context :=
  empty.insertValue flag (.boolean true)
    |>.insertCombine same ⟨"generic::equals", ⟨left, "generic::pass"⟩, ⟨right, "generic::pass"⟩⟩
    |>.insertPipe pipe ⟨[], [⟨.combine same, [("a", .value flag), ("b", .value flag)], output⟩,
      ⟨.combine same, [("a", .value scratch), ("b", .value flag)], output⟩]⟩
    |>.insertFunction run (.pipe pipe (.ofList []) echoed)

open Echo in
/-- Without fresh scratch identifiers, evaluation that never panics may fail where evaluation that may
panic gives a value. -/
theorem evaluateSafe_disagrees_echo :
    echo.Reachable ∧ echo.NestingAcyclic ∧
    (∃ evaluation, echo.evaluate .standard (.function run) 1 = .ok evaluation ∧
      evaluation.value = .boolean true) ∧
    echo.evaluateSafe .standard (.function run) 2 = ⟨none, echo.values, [.missingValue scratch]⟩ := by
  have reachable : echo.Reachable :=
    .insertFunction _ _ <| .insertPipe _ _ <| .insertCombine _ _ <| .insertValue _ _ .empty
  have acyclic : echo.NestingAcyclic := by
    apply nestingAcyclic_of_listed (fun _ => 0)
    decide +kernel
  exact ⟨reachable, acyclic, ⟨_, rfl, rfl⟩, rfl⟩

end Context

end TagFlow
