import TagFlow.Proofs.Evaluation.Coupling

/-!
# Sessions do not matter

Two evaluations of one node that take their scratch identifiers from different sessions give the same,
with the same table and the same counts, or stop for the same reason (`Context.evaluate_session`). This
rests on scratch identifiers being fresh: a graph with an absolute value that looks like a scratch
identifier of the one session can tell the two evaluations apart.

The scopes of a pipe in the two runs differ in their scratch identifiers. They have the same rows by all
other identifiers, and the outputs of their steps are the same, which is all that a step can read
(`Twins`). Outside of pipes there are no scratch identifiers, so the two runs have the same table there
(`Alongside`).
-/

namespace TagFlow

namespace Evaluator

open Coupling

variable {m : Evaluator} {function : FunctionId} {outer : ValueTable} {d : PipeDefinition}
  {scratch scratch' : Scratch} {s s' : PipeProgress}

/-! ### Pipes -/

/-- The identifier is a scratch identifier in neither session. -/
def Foreign (scratch scratch' : Scratch) (id : ValueId) : Prop :=
  ¬ id.OfSession scratch.session ∧ ¬ id.OfSession scratch'.session

/-- Two runs of a pipe have come equally far, each with scratch identifiers of its own, and their scopes
hold the same. -/
structure Twins (function : FunctionId) (scratch scratch' : Scratch) (s s' : PipeProgress) : Prop where
  issued : Issued function scratch s
  issued' : Issued function scratch' s'
  outputs : List.Forall₂ (fun id id' => s'.scope[id']? = s.scope[id]?) s.outputs s'.outputs
  others : ∀ id, Foreign scratch scratch' id → s'.scope[id]? = s.scope[id]?
  count : s'.count = s.count

namespace Twins

theorem start (scope : ValueTable) : Twins function scratch scratch' (.start scope) (.start scope) where
  issued := .start scope
  issued' := .start scope
  outputs := .nil
  others _ _ := rfl
  count := rfl

/-- Both runs add what the next step has given. -/
theorem advance (twins : Twins function scratch scratch' s s') (value : Value) (inside : Nat) :
    Twins function scratch scratch' (Evaluator.advance function scratch s value inside)
      (Evaluator.advance function scratch' s' value inside) where
  issued := twins.issued.advance
  issued' := twins.issued'.advance
  outputs := by
    -- first in the one scope, then in the other
    have first := twins.issued.forall₂_advance (R := fun row id' => s'.scope[id']? = row)
      twins.outputs value inside
    have both := twins.issued'.forall₂_advance (R := fun row id =>
      row = (Evaluator.advance function scratch s value inside).scope[id]?)
        first.flip value inside
    exact List.rel_append both.flip
      (.cons (Table.getElem?_insert_self.trans Table.getElem?_insert_self.symm) .nil)
  others id foreign := by
    rw [getElem?_advance_of_fresh foreign.1, getElem?_advance_of_fresh foreign.2]
    exact twins.others id foreign
  count := congrArg (· + 1 + inside) twins.count

theorem output? (twins : Twins function scratch scratch' s s') (index : Nat) :
    s'.output? index = s.output? index :=
  (Result.bind_getElem?_of_forall₂ (twins.outputs.imp fun _ _ => Eq.symm) index).symm

theorem last? (twins : Twins function scratch scratch' s s') : s'.last? = s.last? := by
  rw [PipeProgress.last?_eq_output?, PipeProgress.last?_eq_output?, ← twins.outputs.length_eq,
    twins.output?]

end Twins

/-- What a pipe looks up in its scope by an identifier of its own is no scratch identifier. -/
theorem foreign_of_freshIn (scratch scratch' : Scratch) (fresh : m.context.FreshIn scratch.session)
    (fresh' : m.context.FreshIn scratch'.session) {id : PipeId} (known : m.context.pipes[id]? = some d) :
    (∀ input ∈ d.inputs, Foreign scratch scratch' input.slot) ∧
      ∀ step ∈ d.steps, ∀ name value, (name, Source.value value) ∈ step.args →
        Foreign scratch scratch' value :=
  ⟨fun input isInput => ⟨fresh.slots known input isInput, fresh'.slots known input isInput⟩,
    fun step isStep name value isArg => ⟨fresh.absolute known step isStep name value isArg,
      fresh'.absolute known step isStep name value isArg⟩⟩

theorem readSource_twins (twins : Twins function scratch scratch' s s') {source : Source}
    (slots : ∀ input ∈ d.inputs, Foreign scratch scratch' input.slot)
    (absolute : ∀ id, source = .value id → Foreign scratch scratch' id) :
    readSource function d outer s' source = readSource function d outer s source := by
  cases source with
  | input name =>
    have same : ((d.input? name).bind fun input => s'.scope[input.slot]?) =
        (d.input? name).bind fun input => s.scope[input.slot]? := by
      cases declared : d.input? name with
      | none => rfl
      | some input => exact twins.others _ (slots input (List.mem_of_find?_eq_some declared))
    unfold readSource
    dsimp only
    rw [same]
  | step index =>
    unfold readSource
    dsimp only
    rw [twins.output?]
  | value id =>
    unfold readSource
    dsimp only
    rw [twins.others id (absolute id rfl)]

theorem readArguments_twins (twins : Twins function scratch scratch' s s') {step : PipeStep}
    (slots : ∀ input ∈ d.inputs, Foreign scratch scratch' input.slot)
    (absolute : ∀ name id, (name, Source.value id) ∈ step.args → Foreign scratch scratch' id) :
    readArguments function d outer s' step = readArguments function d outer s step := by
  unfold readArguments
  apply Result.mapM_congr
  rintro ⟨name, source⟩ isArg
  rw [readSource_twins twins slots]
  rintro id rfl
  exact absolute name id isArg

section steps

variable {nested nested' : Nested}

theorem runStep_twins (twins : Twins function scratch scratch' s s') {step : PipeStep}
    (slots : ∀ input ∈ d.inputs, Foreign scratch scratch' input.slot)
    (absolute : ∀ name id, (name, Source.value id) ∈ step.args → Foreign scratch scratch' id)
    (inner : ∀ issued id args,
      nested' ⟨scratch'.session, scratch'.issued + issued⟩ id args =
        nested ⟨scratch.session, scratch.issued + issued⟩ id args) :
    m.runStep function nested' d outer scratch' s' step =
      m.runStep function nested d outer scratch s step := by
  unfold runStep
  rw [readArguments_twins twins slots absolute, ← twins.outputs.length_eq, twins.count]
  simp only [Scratch.skip, inner]

theorem runSteps_twins (m : Evaluator) (outer : ValueTable)
    (slots : ∀ input ∈ d.inputs, Foreign scratch scratch' input.slot)
    (inner : ∀ issued id args,
      nested' ⟨scratch'.session, scratch'.issued + issued⟩ id args =
        nested ⟨scratch.session, scratch.issued + issued⟩ id args) :
    ∀ (steps : List PipeStep) {s s' : PipeProgress},
      (∀ step ∈ steps, ∀ name id, (name, Source.value id) ∈ step.args →
        Foreign scratch scratch' id) →
      Twins function scratch scratch' s s' →
      same.Results (Twins function scratch scratch')
        (m.runSteps function nested d outer scratch s steps)
        (m.runSteps function nested' d outer scratch' s' steps)
  | [], _, _, _, twins => twins
  | step :: rest, s, s', absolute, twins => by
    rw [runSteps, runSteps, runStep_twins twins slots (absolute step List.mem_cons_self) inner]
    refine (results_same _).bind ?_
    rintro result _ rfl
    exact runSteps_twins m outer slots inner rest
      (fun other isStep => absolute other (List.mem_cons_of_mem _ isStep)) (twins.advance _ _)

end steps

/-- Where the scratch identifiers of a pipe come from does not matter. -/
theorem runPipe_session {session session' : Nat} (fresh : m.context.FreshIn session)
    (fresh' : m.context.FreshIn session') : ∀ (levels issued issued' : Nat) (id : PipeId)
      (given : List (String × Value)),
      m.runPipe function outer levels ⟨session', issued'⟩ id given =
        m.runPipe function outer levels ⟨session, issued⟩ id given
  | 0, _, _, _, _ => rfl
  | levels + 1, issued, issued', id, given => by
    rw [runPipe, runPipe]
    cases known : m.context.pipes[id]? with
    | none => rfl
    | some d =>
      dsimp only
      split
      · rfl
      · congr 1
        funext scope
        obtain ⟨slots, absolute⟩ :=
          foreign_of_freshIn ⟨session, issued⟩ ⟨session', issued'⟩ fresh fresh' known
        have start : Twins function ⟨session, issued⟩ ⟨session', issued'⟩ (.start scope) (.start scope) :=
          .start scope
        have steps := runSteps_twins m outer slots
          (fun more inner args => runPipe_session fresh fresh' levels (issued + more)
            (issued' + more) inner args) d.steps absolute start
        apply Eq.symm
        apply eq_of_results_same
        refine steps.bind fun s s' twins => ?_
        rw [twins.last?, twins.count]
        exact results_same _

/-! ### Trees -/

/-- Two runs, each with scratch identifiers of its own, have come equally far. -/
structure Alongside (c : Context) (p p' : Progress) : Prop where
  fresh : c.FreshIn p.session
  fresh' : c.FreshIn p'.session
  table : p'.table = p.table
  completed : p'.completed = p.completed
  stats : p'.stats = p.stats

section trees

variable {p p' : Progress}

theorem Alongside.complete (alongside : Alongside m.context p p') (id : FunctionId)
    (returns : ValueId) (value : Value) :
    Alongside m.context (p.complete id returns value) (p'.complete id returns value) where
  fresh := alongside.fresh
  fresh' := alongside.fresh'
  table := congrArg (·.insert returns value) alongside.table
  completed := congrArg (·.insert id) alongside.completed
  stats := by
    unfold Progress.complete
    rw [alongside.stats]

theorem Alongside.countSteps (alongside : Alongside m.context p p') (steps : Nat) :
    Alongside m.context (p.countSteps steps) (p'.countSteps steps) where
  fresh := alongside.fresh
  fresh' := alongside.fresh'
  table := alongside.table
  completed := alongside.completed
  stats := by
    unfold Progress.countSteps
    rw [alongside.stats]

theorem Alongside.readValue (alongside : Alongside m.context p p') :
    Alongside m.context p.readValue p'.readValue where
  fresh := alongside.fresh
  fresh' := alongside.fresh'
  table := alongside.table
  completed := alongside.completed
  stats := by
    unfold Progress.readValue
    rw [alongside.stats]

theorem runFunction_alongside (alongside : Alongside m.context p p') (id : FunctionId)
    (entry : FunctionEntry) :
    same.Results (Alongside m.context) (m.runFunction id entry p) (m.runFunction id entry p') := by
  cases entry with
  | cond definition returns => exact results_error _
  | combine definition args returns =>
    unfold runFunction
    dsimp only
    rw [alongside.table]
    cases m.context.combines[definition]? with
    | none => exact results_error _
    | some d =>
      refine (results_same _).bind ?_
      rintro values _ rfl
      split
      · refine (results_same _).bind ?_
        rintro value _ rfl
        exact alongside.complete id returns value
      · exact results_error _
  | pipe definition args returns =>
    unfold runFunction
    dsimp only
    rw [alongside.table]
    refine (results_same _).bind ?_
    rintro values _ rfl
    have same : m.runPipe id p.table (pipeLevels m.context) p'.scratch definition
        (args.names.zip values) = m.runPipe id p.table (pipeLevels m.context) p.scratch definition
        (args.names.zip values) :=
      runPipe_session alongside.fresh alongside.fresh' _ _ _ definition _
    rw [same]
    refine (results_same _).bind ?_
    rintro result _ rfl
    exact (alongside.countSteps result.2).complete id returns result.1

/-- Handing on the value of the branch that a cond takes. -/
theorem runChosen_alongside {id : FunctionId} {returns : ValueId} {branch : Tree}
    (ran : same.Results (Alongside m.context) (m.runTree branch p) (m.runTree branch p')) :
    same.Results (Alongside m.context) (m.runChosen id returns branch p)
      (m.runChosen id returns branch p') := by
  refine ran.bind fun q q' alongside => ?_
  rw [alongside.table]
  refine (results_same _).bind ?_
  rintro value _ rfl
  exact alongside.complete id returns value

mutual

theorem runTree_alongside : ∀ (tree : Tree) {p p' : Progress}, Alongside m.context p p' →
    same.Results (Alongside m.context) (m.runTree tree p) (m.runTree tree p')
  | .value id, p, p', alongside => by
    rw [runTree, runTree, alongside.table]
    split
    · exact alongside.readValue
    · exact results_error _
  | .function id entry children, p, p', alongside => by
    rw [runTree, runTree, alongside.completed]
    split
    · exact alongside
    · refine (runTrees_alongside children alongside).bind fun q q' alongside => ?_
      exact runFunction_alongside alongside id entry
  | .cond id returns condition thenBranch elseBranch, p, p', alongside => by
    rw [runTree, runTree, alongside.completed]
    split
    · exact alongside
    · refine (runTree_alongside condition alongside).bind fun q q' alongside => ?_
      rw [alongside.table]
      refine (results_same _).bind ?_
      rintro flag _ rfl
      cases flag.asBool? with
      | none => exact results_error _
      | some choice =>
        cases choice with
        | true => exact runChosen_alongside (runTree_alongside thenBranch alongside)
        | false => exact runChosen_alongside (runTree_alongside elseBranch alongside)

theorem runTrees_alongside : ∀ (trees : List Tree) {p p' : Progress}, Alongside m.context p p' →
    same.Results (Alongside m.context) (m.runTrees trees p) (m.runTrees trees p')
  | [], p, p', alongside => by
    rw [runTrees, runTrees]
    exact alongside
  | tree :: rest, p, p', alongside => by
    rw [runTrees, runTrees]
    exact (runTree_alongside tree alongside).bind fun q q' alongside =>
      runTrees_alongside rest alongside

end

end trees

/-- Where the scratch identifiers of an evaluation come from does not matter. -/
theorem evaluate_session {session session' : Nat} (fresh : m.context.FreshIn session)
    (fresh' : m.context.FreshIn session') (root : Node) :
    m.evaluate root session' = m.evaluate root session := by
  unfold evaluate
  cases Plan.build m.context root with
  | error e => rfl
  | ok plan =>
    have start : Alongside m.context (.start session m.context.values)
        (.start session' m.context.values) := ⟨fresh, fresh', rfl, rfl, rfl⟩
    apply Eq.symm
    apply eq_of_results_same
    refine (runTree_alongside plan.tree start).bind fun p p' alongside => ?_
    rw [alongside.table, alongside.stats]
    exact results_same _

end Evaluator

namespace Context

/-- Evaluations of one node in different sessions do the same, where the scratch identifiers of both
are fresh. -/
theorem evaluate_session {c : Context} {session session' : Nat} (fresh : c.FreshIn session)
    (fresh' : c.FreshIn session') (registry : Registry) (root : Node) :
    c.evaluate registry root session' = c.evaluate registry root session :=
  Evaluator.evaluate_session (m := ⟨c, registry, false⟩) fresh fresh' root

end Context

end TagFlow
