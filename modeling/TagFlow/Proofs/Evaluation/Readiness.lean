import TagFlow.Proofs.Evaluation.Cycles
import TagFlow.Proofs.Evaluation.Panics
import TagFlow.Proofs.Evaluation.Safety

/-!
# Pipes that validation accepts and that fail

What a pipe is given by a function is checked, but not what its steps give to what they run. A step may
also read the output of any function by its identifier; such a read is no dependency of the function
that runs the pipe, so that nothing makes an evaluation run the other function first. Either way the
graph makes the pipe fail, although nothing is reported (`Context.accepted_pipes_fail`).

In a checked graph there is no other way in which the graph makes a pipe fail
(`Context.pipe_failure_of_valid`). The argument is that of `Context.evaluate_not_stuck` with more
kinds of failures. What it needs of the moment at which the pipe runs is found along the run up to there
(`Evaluator.Reaches.ready`).
-/

namespace TagFlow

namespace Tree.Unfolds

variable {c : Context} {tree child : Tree}

/-- What stands right below a node supplies something that the node depends on. -/
theorem exists_dependsOn (unfolds : tree.Unfolds c) (isChild : child ∈ tree.children) :
    ∃ next, c.DependsOn tree.node next ∧ child.node = c.supplier next := by
  cases unfolds with
  | value => cases isChild
  | function known isArgs nodes =>
    obtain ⟨value, isArg, supplies⟩ := exists_value_of_child nodes isChild
    exact ⟨.value value, .argument known isArg, supplies⟩
  | cond known found conditionNode thenNode elseNode =>
    simp only [children, List.mem_cons, List.not_mem_nil, or_false] at isChild
    rcases isChild with rfl | rfl | rfl
    · exact ⟨_, .condition known found, conditionNode⟩
    · exact ⟨_, .thenBranch known found, thenNode⟩
    · exact ⟨_, .elseBranch known found, elseNode⟩

/-- In a checked graph an evaluation can start from whatever stands right below a node. -/
theorem startable_child {registry : Registry} (unfolds : tree.Unfolds c) (exact : c.IndexExact)
    (checked : c.Checked registry) (isChild : child ∈ tree.children) : c.Startable child.node := by
  obtain ⟨next, edge, supplies⟩ := unfolds.exists_dependsOn isChild
  have startable : c.Startable tree.node := by
    cases unfolds with
    | value => cases isChild
    | function known => exact ⟨_, known⟩
    | cond known => exact ⟨_, known⟩
  rw [supplies]
  exact (startable.dependsOn exact checked edge).supplier exact

end Tree.Unfolds

namespace Evaluator

variable {m : Evaluator} {tree : Tree} {p p' q : Progress} {id function : FunctionId}
  {entry : FunctionEntry}

/-! ### Up to the function -/

/-- A function that has run has its row; how it may fail does not matter. -/
theorem supplies_of_runFunction (known : m.context.functions[id]? = some entry)
    (stocked : Stocked m.context p) :
    Fine (fun _ => True) (Supplies m.context p entry.returns) (m.runFunction id entry p) := by
  cases ran : m.runFunction id entry p with
  | error halt => trivial
  | ok p' =>
    obtain ⟨value, steps, rfl⟩ := runFunction_eq_ok ran
    have done := (stocked.countSteps steps).complete known value
    exact ⟨done.stocked, done.keeps, done.row⟩

/-- What stands right below a node leaves its row when it is run; again, it may fail. -/
theorem supplies_of_runChild (exact : m.context.IndexExact) (checked : m.context.Checked m.registry)
    (unfolds : tree.Unfolds m.context) (child : Tree) (isChild : child ∈ tree.children) (p : Progress)
    (stocked : Stocked m.context p) :
    Fine (fun _ => True) (Supplies m.context p child.output) (m.runTree child p) :=
  runTree_fine exact checked (fun _ _ => trivial)
    (fun known _ stocked _ => supplies_of_runFunction known stocked) (unfolds.child child isChild)
    (unfolds.startable_child exact checked isChild) p stocked

/-- Where a run comes to a function, it is one of the table, and its arguments have their rows. -/
theorem Reaches.ready (exact : m.context.IndexExact) (checked : m.context.Checked m.registry)
    (reaches : m.Reaches tree p function entry q) : tree.Unfolds m.context → Stocked m.context p →
      m.context.functions[function]? = some entry ∧ Stocked m.context q ∧
        ∀ value ∈ entry.args.values, ∃ content, q.table[value]? = some content := by
  induction reaches with
  | @here id entry children p q new ran =>
    intro unfolds stocked
    have below := runTrees_fine children p stocked (supplies_of_runChild exact checked unfolds)
    rw [ran] at below
    obtain ⟨stocked', -, rows⟩ := below
    cases unfolds with
    | function known isArgs nodes unfold =>
      refine ⟨known, stocked', fun value isArg => ?_⟩
      obtain ⟨child, isChild, node⟩ := Tree.exists_child_of_value nodes isArg
      exact (unfold child isChild).output_eq exact node ▸ rows child isChild
  | @child id entry before child after p p' f found q new ran _ ih =>
    intro unfolds stocked
    have earlier := runTrees_fine before p stocked fun other isBefore =>
      supplies_of_runChild exact checked unfolds other (List.mem_append_left _ isBefore)
    rw [ran] at earlier
    exact ih (unfolds.child child (List.mem_append_right _ List.mem_cons_self)) earlier.1
  | @condition id returns condition thenBranch elseBranch p f found q new _ ih =>
    intro unfolds stocked
    exact ih (unfolds.child condition List.mem_cons_self) stocked
  | @branch id returns condition thenBranch elseBranch p p' flag choice f found q new ran _ _ _ ih =>
    intro unfolds stocked
    have before := supplies_of_runChild exact checked unfolds condition List.mem_cons_self p stocked
    rw [ran] at before
    refine ih (unfolds.child _ ?_) before.stocked
    cases choice <;> simp [Tree.children]

end Evaluator

namespace Context

/-! ### The pipe -/

/-- A step of the pipe, or of one that it runs, reads the value by its identifier. -/
def ReadsAbsolute (c : Context) (pipe : PipeId) (value : ValueId) : Prop :=
  ∃ id d, c.Encloses pipe id ∧ c.pipes[id]? = some d ∧
    ∃ step ∈ d.steps, ∃ name, (name, Source.value value) ∈ step.args

/-- The value is no row but the output of a function, and no function that writes it has run. -/
structure Unwritten (c : Context) (p : Progress) (value : ValueId) : Prop where
  noRow : c.values[value]? = none
  output : ∃ writer, c.Writes writer value
  pending : ∀ writer, c.Writes writer value → writer ∉ p.completed

/-- Why running a pipe for a function may fail at this moment: an operation fails or panics, a step has
other arguments than what it runs takes, or it reads a value that is yet to be written. -/
inductive PipeFailure (c : Context) (p : Progress) (function : FunctionId) (pipe : PipeId) :
    Halt → Prop
  | operation {cause} : PipeFailure c p function pipe (.failed (.functionExecution function cause))
  | panic {message} : PipeFailure c p function pipe (.panicked function message)
  | misfit {id d step fault} : c.Encloses pipe id → c.pipes[id]? = some d → step ∈ d.steps →
      ¬ c.StepFits step →
      PipeFailure c p function pipe (.failed (.invalidNode (.function function) fault))
  | unwritten {value} : c.ReadsAbsolute pipe value → c.Unwritten p value →
      PipeFailure c p function pipe (.failed (.missingValue value))

section checked

variable {c : Context} {registry : Registry} {p : Progress} {function : FunctionId}
  {definition : PipeId} {catchPanics : Bool}

/-- Whatever a step of a checked pipe reads by its identifier is there, or is yet to be written. -/
theorem row_or_unwritten (exact : c.IndexExact) (checked : c.Checked registry)
    (stocked : Evaluator.Stocked c p) {id : PipeId} {d : PipeDefinition} {step : PipeStep}
    {name : String} {value : ValueId} (known : c.pipes[id]? = some d) (isStep : step ∈ d.steps)
    (isArg : (name, Source.value value) ∈ step.args) :
    (∃ content, p.table[value]? = some content) ∨ c.Unwritten p value := by
  by_cases here : ∃ content, p.table[value]? = some content
  · exact .inl here
  · obtain ⟨index, atIndex⟩ := List.getElem?_of_mem isStep
    have resolves : c.resolves value = true := checked.stepArguments known atIndex isArg
    have noRow : ¬ ∃ content, c.values[value]? = some content :=
      fun row => here (stocked.keeps value row)
    -- it resolves without being a row, so that some function writes it
    obtain ⟨writer, produced⟩ : ∃ writer, c.producerOf? value = some writer := by
      rcases Bool.or_eq_true_iff.1 resolves with row | produced
      · exact absurd (Table.contains_iff.1 row) noRow
      · exact Table.contains_iff.1 produced
    refine .inr ⟨?_, ⟨writer, exact.writes produced⟩, fun other writes ran => ?_⟩
    · simpa [Option.eq_none_iff_forall_ne_some] using noRow
    · obtain ⟨entry, isEntry, rfl⟩ := writes
      exact here (stocked.completed ran isEntry)

/-- A combine step fails only as its operation does. -/
theorem combine_failure (d : CombineDefinition) (left right : Value) :
    Evaluator.Fine (c.PipeFailure p function definition) (fun _ => True)
      ((Evaluator.mk c registry catchPanics).combine function d left right) := by
  unfold Evaluator.combine Evaluator.charge
  match Evaluator.applyDefinition registry d left right with
  | .ok value => trivial
  | .error (.error cause) => exact .operation
  | .error (.panic message) =>
    cases catchPanics with
    | true => exact .operation
    | false => exact .panic

theorem runnable_of_stocked (exact : c.IndexExact) (checked : c.Checked registry)
    (stocked : Evaluator.Stocked c p) :
    (Evaluator.mk c registry catchPanics).Runnable function p.table definition
      (c.PipeFailure p function definition) where
  checked := checked
  combine {_ d} _ := combine_failure d
  fits enclosed known step isStep :=
    (Classical.em (c.StepFits step)).imp_right fun misfit _ => .misfit enclosed known isStep misfit
  absolute enclosed known step isStep name _ isArg :=
    (row_or_unwritten exact checked stocked known isStep isArg).imp_right
      (.unwritten ⟨_, _, enclosed, known, step, isStep, name, isArg⟩)

end checked

/-- If a pipe fails that an evaluation in a checked graph comes to run, then an operation failed, or one
of its steps, or of the steps of the pipes that it runs, is to blame: it has other arguments than what it
runs takes, or it read the output of a function that had not run yet. -/
theorem pipe_failure_of_valid {c : Context} {registry : Registry} (reached : c.Reachable)
    (acyclic : c.NestingAcyclic) (valid : (c.validate registry).isValid = true) (catchPanics : Bool)
    {root : Node} {plan : Plan} (planned : Plan.build c root = .ok plan) {session : Nat}
    {function : FunctionId} {definition : PipeId} {args : ArgMap} {returns : ValueId} {p : Progress}
    (reaches : (Evaluator.mk c registry catchPanics).Reaches plan.tree (.start session c.values)
      function (.pipe definition args returns) p) {halt : Halt}
    (stopped : (Evaluator.mk c registry catchPanics).runFunction function
      (.pipe definition args returns) p = .error halt) :
    c.PipeFailure p function definition halt := by
  let m : Evaluator := ⟨c, registry, catchPanics⟩
  have exact := reached.indexExact
  have checked := checked_of_isValid valid
  have unfolding := Plan.build_spec c root
  rw [planned] at unfolding
  obtain ⟨known, stocked, rows⟩ := reaches.ready exact checked unfolding.1 (.start c session)
  obtain ⟨d, found⟩ := Table.contains_iff.1 (checked.definition known)
  obtain ⟨values, read, length⟩ := Evaluator.readRows_ok args.values rows
  have runnable : m.Runnable function p.table definition (c.PipeFailure p function definition) :=
    runnable_of_stocked exact checked stocked
  have runs := Evaluator.runPipe_fine runnable (Evaluator.pipeLevels c) p.scratch definition d
    (args.names.zip values) .refl (acyclic.nestedWithin definition) found
    (.inl (Evaluator.supplied_of_checked (m := m) checked known found length))
  have fails : Evaluator.Fine (c.PipeFailure p function definition) (fun _ => True)
      (m.runFunction function (.pipe definition args returns) p) := by
    unfold Evaluator.runFunction
    dsimp only
    rw [read]
    exact runs.bind fun _ _ => trivial
  rw [stopped] at fails
  exact fails

/-! ### An instance

Three pipes beside those of the diamond: the step of the first reads what the combine of the diamond
gives, that of the second has one argument, and that of the third runs a pipe without its input. -/

namespace Accepted

def seen : ValueId := ⟨"v:seen", by decide⟩
def halved : ValueId := ⟨"v:halved", by decide⟩
def opened : ValueId := ⟨"v:opened", by decide⟩
def early : FunctionId := ⟨"f:early", by decide⟩
def half : FunctionId := ⟨"f:half", by decide⟩
def loose : FunctionId := ⟨"f:loose", by decide⟩
def watch : PipeId := ⟨"pd:watch", by decide⟩
def single : PipeId := ⟨"pd:single", by decide⟩
def unbound : PipeId := ⟨"pd:unbound", by decide⟩

def entry : FunctionEntry := .pipe watch (.ofList []) seen

end Accepted

open Accepted in
def accepted : Context :=
  diamond.insertPipe watch ⟨[], [⟨.combine Diamond.same,
      [("a", .value Diamond.both), ("b", .value Diamond.flag)], Diamond.output⟩]⟩
    |>.insertPipe single ⟨[], [⟨.combine Diamond.same, [("a", .value Diamond.flag)], Diamond.output⟩]⟩
    |>.insertPipe unbound ⟨[], [⟨.pipe Diamond.inner, [], Diamond.output⟩]⟩
    |>.insertFunction early entry
    |>.insertFunction half (.pipe single (.ofList []) halved)
    |>.insertFunction loose (.pipe unbound (.ofList []) opened)

namespace Accepted

theorem reachable : accepted.Reachable :=
  .insertFunction _ _ <| .insertFunction _ _ <| .insertFunction _ _ <| .insertPipe _ _ <|
    .insertPipe _ _ <| .insertPipe _ _ Diamond.reachable

theorem nestingAcyclic : accepted.NestingAcyclic :=
  nestingAcyclic_of_listed (fun id => if id = Diamond.inner then 0 else 1) (by decide +kernel)

theorem valid : (accepted.validate .standard).isValid = true := by decide +kernel

end Accepted

open Accepted in
theorem pipe_failure_of_valid_accepted : ∃ plan p halt,
    (accepted.Reachable ∧ accepted.NestingAcyclic ∧
      (accepted.validate .standard).isValid = true ∧
      Plan.build accepted (.function early) = .ok plan ∧
      (Evaluator.mk accepted .standard false).Reaches plan.tree (.start 3 accepted.values) early entry
        p ∧
      (Evaluator.mk accepted .standard false).runFunction early entry p = .error halt) ∧
    accepted.PipeFailure p early watch halt := by
  have planned : Plan.build accepted (.function early) = .ok ⟨.function early entry [], 1⟩ := rfl
  have reaches : (Evaluator.mk accepted .standard false).Reaches (.function early entry [])
      (.start 3 accepted.values) early entry (.start 3 accepted.values) :=
    .here Std.ExtTreeSet.not_mem_empty rfl
  have stopped : (Evaluator.mk accepted .standard false).runFunction early entry
      (.start 3 accepted.values) = .error (.failed (.missingValue Diamond.both)) := rfl
  exact ⟨_, _, _, ⟨reachable, nestingAcyclic, valid, planned, reaches, stopped⟩,
    pipe_failure_of_valid reachable nestingAcyclic valid false planned reaches stopped⟩

open Accepted in
/-- In a graph without errors a pipe may fail for want of a value that one of its steps reads, since
nothing has made the function run that would write it; and it may fail because a step has too few
arguments, be it for a combine or for a pipe. -/
theorem accepted_pipes_fail : accepted.Reachable ∧ accepted.NestingAcyclic ∧
    (accepted.validate .standard).isValid = true ∧
    accepted.evaluate .standard (.function early) 3 =
      .error (.failed (.missingValue Diamond.both)) ∧
    accepted.evaluate .standard (.function half) 3 =
      .error (.failed (.invalidNode (.function half) (.stepArity 0 1))) ∧
    accepted.evaluate .standard (.function loose) 3 =
      .error (.failed (.invalidNode (.function loose) (.unboundInput "x"))) :=
  ⟨reachable, nestingAcyclic, valid, rfl, rfl, rfl⟩

end Context

end TagFlow
