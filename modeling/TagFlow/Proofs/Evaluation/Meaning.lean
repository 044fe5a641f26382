import TagFlow.Evaluation.Run

/-!
# What a graph means

The plainest reading of a graph: no plan, no table that is passed along, nothing remembered. A value
that no function writes means its row; one that a function writes means what the function means; a
combine is its operation on what its arguments mean, behind the adapters; a pipe is its last step, run
in an environment of its own; a cond is the branch that its condition selects.

On a cyclic graph this reading does not end, and then nothing is meant: hence the `Option` below the
errors.
-/

namespace TagFlow

/-- A result or a reason to stop; nothing at all if the reading does not end. -/
abbrev Meaning := ExceptT Halt Option

namespace Meaning

-- the reasons to stop do not matter here
variable {ε α β : Type} {x : ExceptT ε Option α} {f : α → ExceptT ε Option β}

theorem run_bind_ok {a : α} (h : x.run = some (.ok a)) : (x >>= f).run = (f a).run := by
  rw [ExceptT.run_bind, h]
  rfl

theorem run_bind_error {halt : ε} (h : x.run = some (.error halt)) :
    (x >>= f).run = some (.error halt) := by
  rw [ExceptT.run_bind, h]
  rfl

/-- What a successful reading went through. -/
theorem of_run_bind_ok {b : β} (h : (x >>= f).run = some (.ok b)) :
    ∃ a, x.run = some (.ok a) ∧ (f a).run = some (.ok b) := by
  rw [ExceptT.run_bind] at h
  cases first : x.run with
  | none =>
    rw [first] at h
    cases h
  | some result =>
    rw [first] at h
    cases result with
    | error halt => cases h
    | ok a => exact ⟨a, rfl, h⟩

@[simp] theorem run_lift (result : Except ε α) :
    (liftM result : ExceptT ε Option α).run = some result :=
  rfl

end Meaning

namespace Evaluator

/-! ### Pipes -/

/-- What a step reads: a named input, the output of an earlier step, or a row of the graph. -/
def denoteSource (m : Evaluator) (function : FunctionId) (inputs : List (String × Value))
    (outputs : List Value) (source : Source) : Except Halt Value :=
  match source with
  | .input name =>
    match inputs.lookup name with
    | some value => .ok value
    | none => invalid function (.unboundSource source)
  | .step index =>
    match outputs[index]? with
    | some value => .ok value
    | none => invalid function (.unboundSource source)
  | .value id => readRow m.context.values id

/-- The arguments of a step, in order. -/
def denoteArguments (m : Evaluator) (function : FunctionId) (inputs : List (String × Value))
    (outputs : List Value) (args : List (String × Source)) :
    Except Halt (List (String × Value)) :=
  args.mapM fun arg => do
    let value ← m.denoteSource function inputs outputs arg.2
    return (arg.1, value)

/-- A pipe must be given exactly the inputs that it declares. -/
def checkInputs (function : FunctionId) (d : PipeDefinition) (inputs : List (String × Value)) :
    Except Halt Unit :=
  match inputs.find? fun binding => (d.input? binding.1).isNone with
  | some binding => invalid function (.unknownInput binding.1)
  | none =>
    match d.inputs.find? fun input => (inputs.lookup input.name).isNone with
    | some input => invalid function (.unboundInput input.name)
    | none => .ok ()

/-- The operation of a combine definition on two values, behind the adapters. -/
def denoteCombine (m : Evaluator) (function : FunctionId) (id : CombineId)
    (arity : Nat → NodeFault) (values : List Value) : Except Halt Value :=
  match m.context.combines[id]? with
  | none => fail (.missingDefinition function (.combine id))
  | some d =>
    match values with
    | [left, right] => m.combine function d left right
    | _ => invalid function (arity values.length)

mutual

/-- What the last step of a pipe gives, in an environment with these inputs. -/
def denotePipe (m : Evaluator) (function : FunctionId) (id : PipeId)
    (inputs : List (String × Value)) : Meaning Value :=
  match m.context.pipes[id]? with
  | none => throw (.failed (.missingDefinition function (.pipe id)))
  | some d =>
    if d.steps.isEmpty then throw (.failed (.emptySequence id))
    else do
      liftM (checkInputs function d inputs)
      let outputs ← m |>.denoteSteps function inputs [] d.steps
      match outputs.getLast? with
      | some value => return value
      | none => throw (.failed (.emptySequence id))
partial_fixpoint

/-- The outputs of all steps, after these of the steps before. -/
def denoteSteps (m : Evaluator) (function : FunctionId) (inputs : List (String × Value))
    (outputs : List Value) (steps : List PipeStep) : Meaning (List Value) :=
  match steps with
  | [] => return outputs
  | step :: rest => do
    let args ← liftM (m.denoteArguments function inputs outputs step.args)
    match step.body with
    | .combine id => do
      let value ← liftM (m.denoteCombine function id (.stepArity outputs.length) (args.map (·.2)))
      m |>.denoteSteps function inputs (outputs ++ [value]) rest
    | .pipe id => do
      let value ← m |>.denotePipe function id args
      m |>.denoteSteps function inputs (outputs ++ [value]) rest
partial_fixpoint

end

/-- The output of the step after those whose outputs are given. -/
def denoteStep (m : Evaluator) (function : FunctionId) (inputs : List (String × Value))
    (outputs : List Value) (step : PipeStep) : Meaning Value := do
  let args ← liftM (m.denoteArguments function inputs outputs step.args)
  match step.body with
  | .combine id => liftM (m.denoteCombine function id (.stepArity outputs.length) (args.map (·.2)))
  | .pipe id => m.denotePipe function id args

section steps

variable (m : Evaluator) (function : FunctionId) (inputs : List (String × Value))

theorem denoteSteps_nil (outputs : List Value) :
    m.denoteSteps function inputs outputs [] = pure outputs := by
  rw [denoteSteps]

theorem denoteSteps_cons (outputs : List Value) (step : PipeStep) (rest : List PipeStep) :
    m.denoteSteps function inputs outputs (step :: rest) =
      m.denoteStep function inputs outputs step >>= fun value =>
        m.denoteSteps function inputs (outputs ++ [value]) rest := by
  rw [denoteSteps]
  unfold denoteStep
  rw [bind_assoc]
  refine congrArg _ (funext fun args => ?_)
  cases step.body <;> rfl

/-- The steps of a pipe run one after the other. -/
theorem denoteSteps_append : ∀ (before after : List PipeStep) (outputs : List Value),
    m.denoteSteps function inputs outputs (before ++ after) =
      m.denoteSteps function inputs outputs before >>= fun outputs =>
        m.denoteSteps function inputs outputs after
  | [], after, outputs => by
    rw [denoteSteps_nil, pure_bind]
    rfl
  | step :: before, after, outputs => by
    rw [List.cons_append, denoteSteps_cons, denoteSteps_cons, bind_assoc]
    refine congrArg _ (funext fun value => ?_)
    exact denoteSteps_append before after (outputs ++ [value])

end steps

/-! ### Nodes -/

/-- What a node of the graph means. -/
def denote (m : Evaluator) (node : Node) : Meaning Value :=
  match node with
  | .value id =>
    match m.context.producerOf? id with
    | some producer => m |>.denote (.function producer)
    | none => liftM (readRow m.context.values id)
  | .function id =>
    match m.context.functions[id]? with
    | none => throw (.failed (.missingDependency (.function id)))
    | some (.combine definition args _) => do
      let values ← args.values.mapM fun value => m |>.denote (.value value)
      liftM (m.denoteCombine id definition .combineArity values)
    | some (.pipe definition args _) => do
      let values ← args.values.mapM fun value => m |>.denote (.value value)
      m.denotePipe id definition (args.names.zip values)
    | some (.cond definition _) =>
      match m.context.conds[definition]? with
      | none => throw (.failed (.missingDefinition id (.cond definition)))
      | some d => do
        let flag ← m |>.denote d.condition
        match flag.asBool? with
        | none => throw (.failed (.functionExecution id (.typeMismatch "cond" .boolean flag.baseType)))
        | some true => m |>.denote (.function d.thenBranch)
        | some false => m |>.denote (.function d.elseBranch)
partial_fixpoint

end Evaluator

/-- What a node of the graph means under a registry. -/
def Context.denote (c : Context) (registry : Registry) (root : Node) : Meaning Value :=
  (Evaluator.mk c registry false).denote root

end TagFlow
