import TagFlow.Proofs.Spec.PipeAgreement

/-!
# Building keeps what a spec means

Under the standard registry, evaluating an entry in the graph that was built from a spec gives what
the entry means in the spec, or stops for the same reason (`Spec.build_preserves_meaning`).

Evaluation agrees with the meaning of the graph, so it is enough to relate the two readings. That an
entry agrees with its node is shown along the tree below the node (`Compiled.agrees_denote`): the
references of an entry lead to the entries of the nodes below.
-/

namespace TagFlow

namespace Spec

open Lowering Evaluator

namespace Compiled

variable {spec : Spec} {built : Built} {name function : String} {id : FunctionId}
  {returns : ValueId}

/-! ### Entries -/

/-- What the entries of the node of this tree mean agrees with what the node means. -/
def AgreesAt (spec : Spec) (built : Built) (tree : Tree) : Prop :=
  ∀ (name : String) (binding : Binding), built.names[name]? = some binding →
    tree.node = binding.node →
    Agrees built (spec.denote .standard name) ((built.evaluator false).denote tree.node)

/-- The arguments of an entry agree with the values that its function reads, once the children of the
function do. -/
theorem agrees_denoteArguments (compiled : Compiled spec built) {args : List (String × Reference)}
    {bindings : List Binding} (resolved : List.Forall₂ (fun arg binding =>
      built.names.resolve? arg.2.target = some binding) args bindings) {children : List Tree}
    (nodes : children.map Tree.node = (bindings.map (·.output)).map
      (fun value => built.context.supplier (.value value)))
    (agrees : ∀ child ∈ children, AgreesAt spec built child) :
    Agrees built (spec.denoteArguments .standard name args)
      ((bindings.map (·.output)).mapM fun value =>
        (built.evaluator false).denote (.value value)) := by
  rw [denoteArguments]
  refine .mapM ?_
  rw [List.forall₂_map_right_iff]
  induction resolved generalizing children with
  | nil => exact .nil
  | @cons arg binding args bindings head _ ih =>
    cases children with
    | nil => cases nodes
    | cons child children =>
      obtain ⟨here, nodes⟩ := List.cons.inj nodes
      refine .cons ?_ (ih nodes fun other isChild => agrees other (List.mem_cons_of_mem _ isChild))
      obtain ⟨entry, leads, found⟩ := compiled.entryOf?_of_resolve? head
      have agree := agrees child List.mem_cons_self entry binding found
        (here.trans (compiled.supplier_output found))
      rw [here] at agree
      have same : (built.evaluator false).denote (built.context.supplier (.value binding.output)) =
          (built.evaluator false).denote (.value binding.output) :=
        denote_supplier (m := built.evaluator false) _
      rw [same] at agree
      rw [leads]
      exact agree

/-- The type that is known for an argument of a function is that of the value which the argument
means. -/
theorem baseType_of_resolved (compiled : Compiled spec built) (truthful : built.context.Truthful)
    {target : Target} {binding : Binding} (resolved : built.names.resolve? target = some binding)
    {children : List Tree} (unfold : ∀ child ∈ children, child.Unfolds built.context)
    (supplied : built.context.supplier (.value binding.output) ∈ children.map Tree.node)
    {value : Value} {ty : BaseType}
    (known : bindingType ⟨built.mint, built.context⟩ binding = some ty)
    (means : ((built.evaluator false).denote (.value binding.output)).run = some (.ok value)) :
    value.baseType = ty := by
  obtain ⟨entry, -, found⟩ := compiled.entryOf?_of_resolve? resolved
  obtain ⟨child, isChild, node⟩ := List.mem_map.1 supplied
  exact compiled.baseType_of_binding truthful found (unfold child isChild) node known means

/-- A combine entry agrees with its function. -/
theorem agrees_combineEntry (compiled : Compiled spec built)
    (found : built.names[function]? = some (.function id returns)) {expr : CombineExpr}
    {body : ScopedFunction} {entry : FunctionEntry}
    (isScoped : built.names.scopeFunction function (.combine expr) = .ok body)
    (lowered : FunctionLowered ⟨built.mint, built.context⟩ function body entry)
    {children : List Tree} (nodes : children.map Tree.node =
      entry.args.values.map (fun value => built.context.supplier (.value value)))
    (unfold : ∀ child ∈ children, child.Unfolds built.context)
    (agrees : ∀ child ∈ children, AgreesAt spec built child) :
    Agrees built
      (spec.denoteArguments .standard function expr.args >>= Spec.combine .standard function expr)
      ((entry.args.values.mapM fun value => (built.evaluator false).denote (.value value)) >>=
        (built.evaluator false).denoteBody id entry) := by
  obtain ⟨a, b, first, second, isArgs, -, resolved, resolved', rfl⟩ :=
    Names.scopeFunction_combine_eq_ok isScoped
  cases lowered with
  | @combine _ _ _ combine returns d known operation different adapts adapts' =>
    have read : (ArgMap.ofList [(a.1, first.output), (b.1, second.output)]).values =
        [first, second].map (·.output) :=
      ArgMap.values_ofList (by simpa [Bindings.names] using different)
    have resolves : List.Forall₂ (fun arg binding =>
        built.names.resolve? arg.2.target = some binding) expr.args [first, second] := by
      rw [isArgs]
      exact .cons resolved (.cons resolved' .nil)
    simp only [FunctionEntry.args, FunctionEntry.args?, Option.getD_some] at nodes ⊢
    rw [read] at nodes ⊢
    apply (compiled.agrees_denoteArguments resolves nodes agrees).bind
    intro values means
    obtain ⟨left, right, rfl, here, here'⟩ : ∃ left right, values = [left, right] ∧
        ((built.evaluator false).denote (.value first.output)).run = some (.ok left) ∧
        ((built.evaluator false).denote (.value second.output)).run = some (.ok right) := by
      cases forall₂_of_mapM_denote (m := built.evaluator false) means with
      | cons here rest =>
        cases rest with
        | cons here' rest =>
          cases rest
          exact ⟨_, _, rfl, here, here'⟩
    exact agrees_combine found isArgs known operation adapts adapts'
      (fun truthful ty typed => compiled.baseType_of_resolved truthful resolved unfold
        (by simp [nodes]) typed here)
      (fun truthful ty typed => compiled.baseType_of_resolved truthful resolved' unfold
        (by simp [nodes]) typed here') _

/-- A pipe entry agrees with its function. -/
theorem agrees_pipeEntry (compiled : Compiled spec built)
    (found : built.names[function]? = some (.function id returns))
    {bindings : List (String × Reference)} {steps : List StepExpr}
    {body : ScopedFunction} {entry : FunctionEntry}
    (isScoped : built.names.scopeFunction function (.pipe bindings steps) = .ok body)
    (lowered : FunctionLowered ⟨built.mint, built.context⟩ function body entry)
    {children : List Tree} (nodes : children.map Tree.node =
      entry.args.values.map (fun value => built.context.supplier (.value value)))
    (unfold : ∀ child ∈ children, child.Unfolds built.context)
    (agrees : ∀ child ∈ children, AgreesAt spec built child) :
    Agrees built
      (spec.denoteArguments .standard function bindings >>= fun values =>
        spec.denoteSteps .standard function ((Bindings.names bindings).zip values) [] steps >>=
          lastOutput function)
      ((entry.args.values.mapM fun value => (built.evaluator false).denote (.value value)) >>=
        (built.evaluator false).denoteBody id entry) := by
  obtain ⟨bound, scopedSteps, rfl, follow, -, inner⟩ := Names.scopeFunction_pipe_eq_ok isScoped
  cases lowered with
  | @pipe _ _ pipe returns d known record distinct inputsLowered stepsLowered =>
    obtain ⟨isNames, isValues⟩ := ofList_outputs distinct
    have boundNames : bound.map (·.1) = Bindings.names bindings :=
      Result.map_eq_of_forall₂ (fun _ _ here => here.1) follow
    have inputNames : d.inputs.map (·.name) = bound.map (·.1) :=
      Result.map_eq_of_forall₂ (fun _ _ here => here.1) inputsLowered
    have resolves : List.Forall₂ (fun arg binding =>
        built.names.resolve? arg.2.target = some binding) bindings (bound.map (·.2)) :=
      List.forall₂_map_right_iff.2 (follow.imp fun _ _ here => here.2)
    have isOutputs : bound.map (·.2.output) = (bound.map (·.2)).map (·.output) := by
      rw [List.map_map]
      rfl
    simp only [FunctionEntry.args, FunctionEntry.args?, Option.getD_some] at nodes ⊢
    rw [isValues] at nodes ⊢
    rw [isOutputs] at nodes ⊢
    apply (compiled.agrees_denoteArguments resolves nodes agrees).bind
    intro values means
    rw [← isOutputs] at nodes means
    have length := (forall₂_of_mapM_denote (m := built.evaluator false) means).length_eq
    rw [List.length_map] at length
    -- the adapters of the steps were chosen by the types recorded here, so these have to be right
    have typed := fun truthful => compiled.typedScope truthful
      (Names.exists_name_of_scopeFunction isScoped) inputsLowered distinct nodes unfold means
    have runs : (built.evaluator false).denoteBody id
        (.pipe pipe (.ofList (bound.map fun binding => (binding.1, binding.2.output))) returns) values =
          (built.evaluator false).denotePipe id pipe ((bound.map (·.1)).zip values) := by
      rw [← isNames]
      rfl
    rw [runs, ← boundNames]
    refine agrees_pipe known record ?_ (compiled.agrees_denoteSteps found steps inner
      stepsLowered ⟨typed, fun name isName => ?_, rfl⟩)
    · rw [inputNames]
      exact List.map_fst_zip (by simp [length])
    · exact Bindings.exists_lookup_zip (by simp [length]) isName

/-- A cond entry agrees with its function. -/
theorem agrees_condEntry (compiled : Compiled spec built)
    (found : built.names[function]? = some (.function id returns))
    {condition thenBranch elseBranch : String} {body : ScopedFunction} {definition : CondId}
    {written : ValueId}
    (isScoped : built.names.scopeFunction function (.cond condition thenBranch elseBranch) = .ok body)
    (lowered : FunctionLowered ⟨built.mint, built.context⟩ function body (.cond definition written))
    {d : CondDefinition} (defined : built.context.conds[definition]? = some d)
    {conditionTree thenTree elseTree : Tree}
    (conditionNode : conditionTree.node = built.context.supplier d.condition)
    (thenNode : thenTree.node = .function d.thenBranch)
    (elseNode : elseTree.node = .function d.elseBranch)
    (conditionAgrees : AgreesAt spec built conditionTree)
    (thenAgrees : AgreesAt spec built thenTree) (elseAgrees : AgreesAt spec built elseTree) :
    Agrees built
      (spec.denote .standard condition >>= fun flag =>
        match flag.asBool? with
        | none => throw (.operation function (.error (.typeMismatch "cond" .boolean flag.baseType)))
        | some true => spec.denote .standard thenBranch
        | some false => spec.denote .standard elseBranch)
      ((built.evaluator false).denote d.condition >>= (built.evaluator false).denoteChoice id d) := by
  obtain ⟨binding, thenId, elseId, named, ⟨_, thenNamed⟩, ⟨_, elseNamed⟩, rfl⟩ :=
    Names.scopeFunction_cond_eq_ok isScoped
  cases lowered with
  | cond defined' =>
    cases defined.symm.trans defined'
    have flagAgrees := conditionAgrees condition binding named
      (conditionNode.trans (compiled.supplier_node named))
    rw [conditionNode, compiled.supplier_node named] at flagAgrees
    apply flagAgrees.bind
    intro flag _
    unfold denoteChoice
    cases flag.asBool? with
    | none => exact .halt rfl rfl (.error found)
    | some choice =>
      cases choice with
      | true => exact thenNode ▸ thenAgrees thenBranch _ thenNamed thenNode
      | false => exact elseNode ▸ elseAgrees elseBranch _ elseNamed elseNode

/-- What an entry of the spec means agrees with what its node means. -/
theorem agrees_denote (compiled : Compiled spec built) {tree : Tree}
    (unfolds : tree.Unfolds built.context) : AgreesAt spec built tree := by
  induction unfolds with
  | @value id unproduced =>
    intro name binding found node
    cases binding with
    | function id returns => cases node
    | literal id =>
      cases node
      obtain ⟨value, isEntry, row⟩ := compiled.get?_literal found
      refine .value ?_ (denote_row (m := built.evaluator false) (compiled.unproduced row) row)
      rw [Spec.denote]
      simp only [isEntry]
      rfl
  | @function id entry children known isArgs nodes unfold ih =>
    intro name binding found node
    cases binding with
    | literal id => cases node
    | function id returns =>
      cases node
      obtain ⟨expr, body, entry', isEntry, isScoped, known', lowered⟩ := compiled.get?_function found
      cases known.symm.trans known'
      rw [Spec.denote]
      simp only [isEntry]
      rw [show (Tree.function id entry children).node = .function id from rfl,
        denote_function (m := built.evaluator false) known isArgs]
      cases expr with
      | cond condition thenBranch elseBranch =>
        obtain ⟨_, _, _, -, -, -, rfl⟩ := Names.scopeFunction_cond_eq_ok isScoped
        cases lowered
        exact absurd rfl isArgs
      | combine expr =>
        exact compiled.agrees_combineEntry found isScoped lowered nodes unfold ih
      | pipe bindings steps =>
        exact compiled.agrees_pipeEntry found isScoped lowered nodes unfold ih
  | @cond id definition returns d condition thenBranch elseBranch known found conditionNode thenNode
      elseNode _ _ _ ihCondition ihThen ihElse =>
    intro name binding named node
    cases binding with
    | literal id => cases node
    | function id returns' =>
      cases node
      obtain ⟨expr, body, entry, isEntry, isScoped, known', lowered⟩ := compiled.get?_function named
      cases known.symm.trans known'
      rw [Spec.denote]
      simp only [isEntry]
      rw [show (Tree.cond id returns condition thenBranch elseBranch).node = .function id from rfl,
        denote_cond (m := built.evaluator false) known found]
      cases expr with
      | combine expr =>
        obtain ⟨_, _, _, _, -, -, -, -, rfl⟩ := Names.scopeFunction_combine_eq_ok isScoped
        cases lowered
      | pipe bindings steps =>
        obtain ⟨_, _, rfl, -⟩ := Names.scopeFunction_pipe_eq_ok isScoped
        cases lowered
      | cond condition thenBranch elseBranch =>
        exact compiled.agrees_condEntry named isScoped lowered found conditionNode thenNode
          elseNode ihCondition ihThen ihElse

/-- Every entry has its node. -/
theorem exists_node (compiled : Compiled spec built) {entry : SpecEntry}
    (isEntry : (name, entry) ∈ spec.entries) :
    ∃ binding : Binding, built.names[name]? = some binding := by
  cases entry with
  | literal value =>
    obtain ⟨id, found, -⟩ := compiled.registered.literal isEntry
    exact ⟨_, found⟩
  | function expr =>
    obtain ⟨id, returns, found⟩ := compiled.registered.function isEntry
    exact ⟨_, found⟩

/-- Where there is a plan for an entry, what the entry means agrees with what evaluation gives. -/
theorem agrees_evaluate (compiled : Compiled spec built) {binding : Binding}
    (found : built.names[name]? = some binding) {plan : Plan}
    (planned : Plan.build built.context binding.node = .ok plan) {session : Nat}
    (fresh : built.context.FreshIn session) :
    Agrees built (spec.denote .standard name)
      (liftM ((built.context.evaluate .standard binding.node session).map (·.value))) := by
  have unfolding := Plan.build_spec built.context binding.node
  rw [planned] at unfolding
  obtain ⟨unfolds, node⟩ := unfolding
  rw [compiled.supplier_node found] at node
  have agrees := compiled.agrees_denote unfolds name binding found node
  have evaluates : (built.evaluator false).denote plan.tree.node =
      (liftM ((built.context.evaluate .standard binding.node session).map (·.value)) :
        Meaning Value) := by
    rw [node]
    exact denote_eq_evaluate (m := built.evaluator false) compiled.orderly fresh planned
  rwa [evaluates] at agrees

end Compiled

/-! ### The whole build -/

/-- Building a graph keeps what the entries of a spec mean. Each entry has a node; and if there is a
plan for it, then evaluating the node gives a value just when the entry means that value, and fails
just when reading the entry stops, for the same reason. -/
theorem build_preserves_meaning {spec : Spec} {session scratch : Nat} {built : Built}
    (run : spec.build session = .ok built) (honest : spec.HonestLiterals)
    (branches : built.context.BranchesAgree) (apart : scratch ≠ session) {name : String}
    {entry : SpecEntry}
    (isEntry : (name, entry) ∈ spec.entries) :
    ∃ node, built.node? name = some node ∧ ∀ plan, Plan.build built.context node = .ok plan →
      (∀ value, (∃ evaluation, built.context.evaluate .standard node scratch = .ok evaluation ∧
          evaluation.value = value) ↔ (spec.denote .standard name).run = some (.ok value)) ∧
      (∀ halt, built.context.evaluate .standard node scratch = .error halt →
        ∃ stop, (spec.denote .standard name).run = some (.error stop) ∧
          built.Corresponds stop halt) ∧
      ∀ stop, (spec.denote .standard name).run = some (.error stop) →
        ∃ halt, built.context.evaluate .standard node scratch = .error halt ∧
          built.Corresponds stop halt := by
  have compiled := compiled_of_build run
  have truthful := compiled.truthful honest branches
  obtain ⟨binding, found⟩ := compiled.exists_node isEntry
  refine ⟨binding.node, Option.map_eq_some_iff.2 ⟨binding, found, rfl⟩, fun plan planned => ?_⟩
  obtain ⟨values, halts, stops⟩ := (compiled.agrees_evaluate found planned
    (freshIn_of_build run apart)).outcomes truthful (Meaning.run_lift _)
  refine ⟨?_, ?_, ?_⟩
  · intro value
    rw [← values value, Result.map_eq_ok]
  · intro halt failed
    exact halts halt (Result.map_eq_error.2 failed)
  · intro stop isStop
    obtain ⟨halt, failed, same⟩ := stops stop isStop
    exact ⟨halt, Result.map_eq_error.1 failed, same⟩

open Greeting in
theorem build_preserves_meaning_greeting :
    ∃ built, (greeting.build 7 = .ok built ∧ greeting.HonestLiterals ∧
        built.context.BranchesAgree ∧ (8 : Nat) ≠ 7 ∧
        ("choose", .function (.cond "loud" "greet" "word")) ∈ greeting.entries) ∧
      ∃ node evaluation, built.node? "choose" = some node ∧
        built.context.evaluate .standard node 8 = .ok evaluation ∧
        evaluation.value.asString? = some "AdaAdaAdaAdaAda" ∧
        (greeting.denote .standard "choose").run = some (.ok evaluation.value) := by
  obtain ⟨built, builds, agree, function, evaluation, isFunction, -, evaluated, gives⟩ := exists_built
  have agree := branchesAgree agree
  have isEntry : ("choose", .function (.cond "loud" "greet" "word")) ∈ greeting.entries :=
    List.mem_cons_self
  have apart : (8 : Nat) ≠ 7 := by decide
  obtain ⟨node, named, correct⟩ := build_preserves_meaning builds honestLiterals agree apart isEntry
  have same : node = .function function := by
    unfold Built.function? at isFunction
    rw [named, Option.bind_some] at isFunction
    cases node with
    | value id => cases isFunction
    | function id => rw [Option.some.inj isFunction]
  subst same
  obtain ⟨plan, planned⟩ := exists_plan (m := built.evaluator false) evaluated
  refine ⟨built, ⟨builds, honestLiterals, agree, apart, isEntry⟩, .function function, evaluation, named,
    evaluated, gives, ?_⟩
  exact ((correct plan planned).1 evaluation.value).1 ⟨evaluation, evaluated, rfl⟩

end Spec

end TagFlow
