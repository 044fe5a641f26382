import TagFlow.Proofs.Evaluation.Cycles
import TagFlow.Proofs.Spec.Correctness
import TagFlow.Proofs.Spec.Defaults

/-!
# The order of the entries

A spec means the same in whatever order its entries stand, but the default adapters of its graph depend
on the order: they are chosen by the types that are known when a function is lowered, so an argument
that refers to a later entry gets the adapter that passes everything. What does not depend on the order
is what an evaluation gives if it succeeds, and whether it succeeds if types are what they are inferred
to be (`order_preserves_results`). Otherwise one order may fail where another one succeeds
(`mixed_order_matters`).

That there is a plan does not depend on the order either (`Compiled.exists_plan`): what a node depends
on is what its entry mentions (`Mentions`), which is the same for both graphs.
-/

namespace TagFlow

open Lowering

/-- The arguments of a combine or a pipe. -/
def FunctionExpr.args : FunctionExpr → List (String × Reference)
  | combine expr => expr.args
  | pipe inputs _ => inputs
  | cond _ _ _ => []

/-! ### Entries in another order -/

/-- What the names of the entries stand for does not depend on their order. -/
theorem Lowering.Registered.of_perm {entries others : List (String × SpecEntry)} {names : Names}
    {draft : Draft} (same : entries.Perm others) (registered : Registered others names draft) :
    Registered entries names draft where
  literal isEntry := registered.literal (same.mem_iff.1 isEntry)
  function isEntry := registered.function (same.mem_iff.1 isEntry)
  ofLiteral found := by
    obtain ⟨value, isEntry, row⟩ := registered.ofLiteral found
    exact ⟨value, same.mem_iff.2 isEntry, row⟩
  ofFunction found := by
    obtain ⟨⟨expr, isEntry⟩, issued⟩ := registered.ofFunction found
    exact ⟨⟨expr, same.mem_iff.2 isEntry⟩, issued⟩
  distinct := registered.distinct
  rows row := by
    obtain ⟨name, isEntry, found⟩ := registered.rows row
    exact ⟨name, same.mem_iff.2 isEntry, found⟩

namespace Spec

section reordered

variable {spec other : Spec} {built : Built}

/-- A graph that was built from the entries in one order has all that is asked of a graph for the
entries in another. -/
theorem Compiled.of_perm (same : spec.entries.Perm other.entries) (compiled : Compiled other built) :
    Compiled spec built where
  consistent := compiled.consistent
  registered := compiled.registered.of_perm same
  lowered isEntry := compiled.lowered (same.mem_iff.1 isEntry)
  functions := compiled.functions
  used := compiled.used

theorem HonestLiterals.of_perm (same : spec.entries.Perm other.entries)
    (honest : other.HonestLiterals) : spec.HonestLiterals :=
  fun name value isEntry => honest name value (same.mem_iff.1 isEntry)

end reordered

/-! ### Dependencies of entries -/

/-- The first entry refers to the second, not counting the steps of pipes. -/
inductive Mentions (spec : Spec) (name : String) : String → Prop
  | argument {expr arg other} : spec.get? name = some (.function expr) → arg ∈ expr.args →
      spec.entryOf? arg.2.target = some other → Mentions spec name other
  | cond {condition thenBranch elseBranch other} :
      spec.get? name = some (.function (.cond condition thenBranch elseBranch)) →
      other ∈ [condition, thenBranch, elseBranch] → Mentions spec name other

namespace Compiled

variable {spec : Spec} {built : Built} {name : String} {id : FunctionId} {returns : ValueId}

/-- The arguments of a function are what the arguments of its entry lead to. -/
theorem exists_resolved {expr : FunctionExpr} {body : ScopedFunction} {entry : FunctionEntry}
    (isScoped : built.names.scopeFunction name expr = .ok body)
    (lowered : FunctionLowered ⟨built.mint, built.context⟩ name body entry) :
    ∃ bindings, List.Forall₂ (fun arg binding =>
        built.names.resolve? arg.2.target = some binding) expr.args bindings ∧
      entry.args.values = bindings.map (·.output) := by
  cases expr with
  | combine expr =>
    obtain ⟨a, b, first, second, isArgs, -, resolved, resolved', rfl⟩ :=
      Names.scopeFunction_combine_eq_ok isScoped
    cases lowered with
    | combine _ _ different =>
      refine ⟨[first, second], ?_, (ofList_pair different _ _).2⟩
      rw [show (FunctionExpr.combine expr).args = [a, b] from isArgs]
      exact .cons resolved (.cons resolved' .nil)
  | pipe inputs steps =>
    obtain ⟨bound, scopedSteps, rfl, follow, -, -⟩ := Names.scopeFunction_pipe_eq_ok isScoped
    cases lowered with
    | pipe _ _ distinct =>
      refine ⟨bound.map (·.2), List.forall₂_map_right_iff.2 (follow.imp fun _ _ here => here.2), ?_⟩
      rw [List.map_map]
      exact (ofList_outputs distinct).2
  | cond condition thenBranch elseBranch =>
    obtain ⟨_, _, _, -, -, -, rfl⟩ := Names.scopeFunction_cond_eq_ok isScoped
    cases lowered
    exact ⟨[], .nil, rfl⟩

/-- A function with a cond definition was lowered from a cond entry. -/
theorem exists_cond (compiled : Compiled spec built)
    (found : built.names[name]? = some (.function id returns)) {definition : CondId}
    {written : ValueId} (known : built.context.functions[id]? = some (.cond definition written)) :
    ∃ condition thenBranch elseBranch binding thenId elseId,
      spec.get? name = some (.function (.cond condition thenBranch elseBranch)) ∧
      built.names[condition]? = some binding ∧
      (∃ returns, built.names[thenBranch]? = some (.function thenId returns)) ∧
      (∃ returns, built.names[elseBranch]? = some (.function elseId returns)) ∧
      built.context.conds[definition]? = some ⟨binding.node, thenId, elseId⟩ := by
  obtain ⟨expr, body, entry, isEntry, isScoped, known', lowered⟩ := compiled.get?_function found
  cases known.symm.trans known'
  cases expr with
  | combine expr =>
    obtain ⟨_, _, _, _, -, -, -, -, rfl⟩ := Names.scopeFunction_combine_eq_ok isScoped
    cases lowered
  | pipe inputs steps =>
    obtain ⟨_, _, rfl, -⟩ := Names.scopeFunction_pipe_eq_ok isScoped
    cases lowered
  | cond condition thenBranch elseBranch =>
    obtain ⟨binding, thenId, elseId, named, isThen, isElse, rfl⟩ :=
      Names.scopeFunction_cond_eq_ok isScoped
    cases lowered with
    | cond defined => exact ⟨_, _, _, binding, thenId, elseId, isEntry, named, isThen, isElse, defined⟩

/-- What a function depends on is supplied by the node of an entry that its own entry mentions. -/
theorem exists_mentioned (compiled : Compiled spec built)
    (found : built.names[name]? = some (.function id returns)) {next : Node}
    (edge : built.context.DependsOn (.function id) next) :
    ∃ (other : String) (binding : Binding), spec.Mentions name other ∧
      built.names[other]? = some binding ∧ built.context.supplier next = binding.node := by
  cases edge with
  | argument known isArg =>
    obtain ⟨expr, body, entry, isEntry, isScoped, known', lowered⟩ := compiled.get?_function found
    cases known.symm.trans known'
    obtain ⟨bindings, resolved, values⟩ := exists_resolved isScoped lowered
    rw [values] at isArg
    obtain ⟨binding, isBinding, rfl⟩ := List.mem_map.1 isArg
    obtain ⟨arg, isArg, leads⟩ := Result.exists_of_mem_right resolved isBinding
    obtain ⟨other, isOther, named⟩ := compiled.entryOf?_of_resolve? leads
    exact ⟨other, binding, .argument isEntry isArg isOther, named, compiled.supplier_output named⟩
  | condition known defined =>
    obtain ⟨condition, _, _, binding, _, _, isEntry, named, -, -, defined'⟩ :=
      compiled.exists_cond found known
    cases defined.symm.trans defined'
    exact ⟨condition, binding, .cond isEntry (by simp), named, compiled.supplier_node named⟩
  | thenBranch known defined =>
    obtain ⟨_, thenBranch, _, _, _, _, isEntry, -, ⟨_, named⟩, -, defined'⟩ :=
      compiled.exists_cond found known
    cases defined.symm.trans defined'
    exact ⟨thenBranch, _, .cond isEntry (by simp), named, rfl⟩
  | elseBranch known defined =>
    obtain ⟨_, _, elseBranch, _, _, _, isEntry, -, -, ⟨_, named⟩, defined'⟩ :=
      compiled.exists_cond found known
    cases defined.symm.trans defined'
    exact ⟨elseBranch, _, .cond isEntry (by simp), named, rfl⟩

/-- What an entry mentions supplies something that its function depends on. -/
theorem exists_dependsOn (compiled : Compiled spec built)
    (found : built.names[name]? = some (.function id returns)) {other : String}
    (mentions : spec.Mentions name other) :
    ∃ (binding : Binding) (next : Node), built.names[other]? = some binding ∧
      built.context.DependsOn (.function id) next ∧ built.context.supplier next = binding.node := by
  obtain ⟨expr, body, entry, isEntry, isScoped, known, lowered⟩ := compiled.get?_function found
  cases mentions with
  | argument isEntry' isArg isOther =>
    cases isEntry.symm.trans isEntry'
    obtain ⟨bindings, resolved, values⟩ := exists_resolved isScoped lowered
    obtain ⟨index, here⟩ := List.getElem?_of_mem isArg
    obtain ⟨binding, isBinding, leads⟩ := Result.exists_getElem?_of_forall₂ resolved here
    obtain ⟨other', isOther', named⟩ := compiled.entryOf?_of_resolve? leads
    cases isOther.symm.trans isOther'
    refine ⟨binding, _, named, .argument known ?_, compiled.supplier_output named⟩
    rw [values]
    exact List.mem_map_of_mem (List.mem_of_getElem? isBinding)
  | cond isEntry' isOther =>
    cases isEntry.symm.trans isEntry'
    obtain ⟨binding, thenId, elseId, named, ⟨_, isThen⟩, ⟨_, isElse⟩, rfl⟩ :=
      Names.scopeFunction_cond_eq_ok isScoped
    cases lowered with
    | cond defined =>
      simp only [List.mem_cons, List.not_mem_nil, or_false] at isOther
      rcases isOther with rfl | rfl | rfl
      · exact ⟨binding, _, named, .condition known defined, compiled.supplier_node named⟩
      · exact ⟨_, _, isThen, .thenBranch known defined, rfl⟩
      · exact ⟨_, _, isElse, .elseBranch known defined, rfl⟩

/-! ### Plans -/

/-- Where the dependencies of a node end, so does what its entry mentions. -/
theorem acc_mentions (compiled : Compiled spec built) {node : Node}
    (ends : Acc (fun next node => built.context.DependsOn node next) node) :
    ∀ (name : String) (binding : Binding), built.names[name]? = some binding →
      built.context.supplier node = binding.node →
      Acc (fun other name => spec.Mentions name other) name := by
  induction ends with
  | intro node _ ih =>
    intro name binding found here
    apply Acc.intro
    intro other mentions
    cases binding with
    | literal id =>
      -- a literal mentions nothing
      obtain ⟨value, isEntry, -⟩ := compiled.get?_literal found
      cases mentions with
      | argument isEntry' => cases isEntry.symm.trans isEntry'
      | cond isEntry' => cases isEntry.symm.trans isEntry'
    | function id returns =>
      cases node with
      | value value =>
        -- the producer of the value has the same entry
        unfold Context.supplier at here
        dsimp only at here
        split at here
        · next producer produced =>
          cases here
          exact (ih _ (.producer produced) name _ found rfl).inv mentions
        · cases here
      | function function =>
        cases here
        obtain ⟨binding, next, named, edge, supplied⟩ := compiled.exists_dependsOn found mentions
        exact ih next edge other binding named supplied

/-- Where what an entry mentions ends, so do the dependencies of its node. -/
theorem acc_node (compiled : Compiled spec built)
    (ends : Acc (fun other name => spec.Mentions name other) name) : ∀ (binding : Binding),
      built.names[name]? = some binding →
      Acc (fun next node => built.context.DependsOn node next) binding.node := by
  induction ends with
  | intro name _ ih =>
    intro binding found
    apply Acc.intro
    intro next edge
    cases binding with
    | literal id =>
      obtain ⟨value, -, row⟩ := compiled.get?_literal found
      cases edge with
      | producer produced => cases (compiled.unproduced row).symm.trans produced
    | function id returns =>
      obtain ⟨other, binding, mentions, named, supplied⟩ := compiled.exists_mentioned found edge
      apply Context.acc_of_supplier
      rw [supplied]
      exact ih other mentions binding named

/-- All that stands below the node of an entry is supplied by nodes of entries. -/
theorem exists_name_of_reaches (compiled : Compiled spec built) {binding : Binding} {node : Node}
    (found : built.names[name]? = some binding) (path : built.context.Reaches binding.node node) :
    ∃ (other : String) (binding : Binding), built.names[other]? = some binding ∧
      built.context.supplier node = binding.node := by
  induction path with
  | refl => exact ⟨name, binding, found, compiled.supplier_node found⟩
  | @tail node next _ edge ih =>
    obtain ⟨other, binding, named, supplied⟩ := ih
    cases node with
    | value value =>
      cases edge with
      | producer produced =>
        rw [Context.supplier_of_producerOf? produced] at supplied
        exact ⟨other, binding, named, supplied⟩
    | function id =>
      cases binding with
      | literal id => cases supplied
      | function id returns =>
        cases supplied
        obtain ⟨other, binding, -, named, supplied⟩ := compiled.exists_mentioned named edge
        exact ⟨other, binding, named, supplied⟩

/-- Nothing is missing below the node of an entry. -/
theorem completeBelow (compiled : Compiled spec built) {binding : Binding}
    (found : built.names[name]? = some binding) : built.context.CompleteBelow binding.node where
  entry path := by
    obtain ⟨other, binding, named, supplied⟩ := compiled.exists_name_of_reaches found path
    cases binding with
    | literal id => cases supplied
    | function id returns =>
      cases supplied
      obtain ⟨_, _, entry, -, -, known, -⟩ := compiled.get?_function named
      exact ⟨entry, known⟩
  definition _ known := by
    obtain ⟨_, named⟩ := compiled.functions known
    obtain ⟨_, _, _, _, _, _, -, -, -, -, defined⟩ := compiled.exists_cond named known
    exact ⟨_, defined⟩

/-- If one graph that was built from a spec has a plan for an entry, so has any other. -/
theorem exists_plan {other : Built} (compiled : Compiled spec built)
    (compiled' : Compiled spec other) {binding binding' : Binding}
    (found : built.names[name]? = some binding) (found' : other.names[name]? = some binding')
    {plan : Plan} (planned : Plan.build built.context binding.node = .ok plan) :
    ∃ plan, Plan.build other.context binding'.node = .ok plan := by
  have unfolding := Plan.build_spec built.context binding.node
  rw [planned] at unfolding
  obtain ⟨unfolds, here⟩ := unfolding
  have mentions := compiled.acc_mentions (unfolds.acc binding.node here) name binding found
    (compiled.supplier_node found)
  exact Plan.exists_build (Context.acyclicBelow_of_acc (compiled'.acc_node mentions binding' found'))
    (compiled'.completeBelow found')

end Compiled

/-! ### Results -/

/-- The order of the entries does not affect what evaluating an entry gives if it succeeds in both
graphs. If it succeeds in one, it succeeds in the other, provided that the literals have the element
types that they declare and that in the other graph both branches of each cond have one type. (The two
graphs may be exchanged.) -/
theorem order_preserves_results {spec other : Spec} (same : spec.entries.Perm other.entries)
    {session session' scratch scratch' : Nat} {built built' : Built}
    (builds : spec.build session = .ok built) (builds' : other.build session' = .ok built')
    (apart : scratch ≠ session) (apart' : scratch' ≠ session') {name : String} {node node' : Node}
    (named : built.node? name = some node) (named' : built'.node? name = some node') :
    (∀ evaluation evaluation', built.context.evaluate .standard node scratch = .ok evaluation →
      built'.context.evaluate .standard node' scratch' = .ok evaluation' →
      evaluation.value = evaluation'.value) ∧
    (other.HonestLiterals → built'.context.BranchesAgree →
      (∃ evaluation, built.context.evaluate .standard node scratch = .ok evaluation) →
      ∃ evaluation', built'.context.evaluate .standard node' scratch' = .ok evaluation') := by
  have compiled := compiled_of_build builds
  have compiled' := (compiled_of_build builds').of_perm same
  obtain ⟨binding, found, rfl⟩ := Option.map_eq_some_iff.1 named
  obtain ⟨binding', found', rfl⟩ := Option.map_eq_some_iff.1 named'
  -- what evaluation gives in a graph for these entries is what the entry means
  have means : ∀ {built : Built} {binding : Binding} {scratch : Nat} {evaluation : Evaluation},
      Compiled spec built → built.context.FreshIn scratch → built.names[name]? = some binding →
      built.context.evaluate .standard binding.node scratch = .ok evaluation →
      (spec.denote .standard name).run = some (.ok evaluation.value) := by
    intro built binding scratch evaluation compiled fresh found ran
    obtain ⟨plan, planned⟩ := Evaluator.exists_plan (m := built.evaluator false) ran
    refine (compiled.agrees_evaluate found planned fresh).of_ok ?_
    rw [ran]
    rfl
  have fresh := freshIn_of_build builds apart
  have fresh' := freshIn_of_build builds' apart'
  refine ⟨fun evaluation evaluation' ran ran' => ?_, fun honest branches => ?_⟩
  · have both := (means compiled fresh found ran).symm.trans (means compiled' fresh' found' ran')
    simpa using both
  · rintro ⟨evaluation, ran⟩
    obtain ⟨plan, planned⟩ := Evaluator.exists_plan (m := built.evaluator false) ran
    obtain ⟨plan', planned'⟩ := compiled.exists_plan compiled' found found' planned
    obtain ⟨values, -⟩ := (compiled'.agrees_evaluate found' planned' fresh').outcomes
      (compiled'.truthful (honest.of_perm same) branches) (Meaning.run_lift _)
    obtain ⟨evaluation', ran', -⟩ :=
      Result.map_eq_ok.1 ((values evaluation.value).2 (means compiled fresh found ran))
    exact ⟨evaluation', ran'⟩

/-! ### Instances -/

/-- The entries from the last to the first. -/
def reversed (spec : Spec) : Spec where
  entries := spec.entries.reverse
  nodup := by
    rw [Bindings.names, List.map_reverse, List.nodup_reverse]
    exact spec.nodup

open Greeting in
theorem order_preserves_results_greeting : ∃ built built',
    (greeting.reversed.entries.Perm greeting.entries ∧ greeting.reversed.build 7 = .ok built ∧
      greeting.build 7 = .ok built' ∧ (8 : Nat) ≠ 7 ∧ greeting.HonestLiterals ∧
      built'.context.BranchesAgree) ∧
    ∃ node node' evaluation evaluation', built.node? "choose" = some node ∧
      built'.node? "choose" = some node' ∧
      built.context.evaluate .standard node 8 = .ok evaluation ∧
      built'.context.evaluate .standard node' 8 = .ok evaluation' ∧
      evaluation.value = evaluation'.value := by
  have holds : ((greeting.reversed.build 7).toOption.any fun built =>
      (built.node? "choose").any fun node =>
        (built.context.evaluate .standard node 8).toOption.isSome) = true := by
    decide +kernel
  obtain ⟨built, builds, holds⟩ := (Option.any_eq_true _ _).1 holds
  obtain ⟨node, named, holds⟩ := (Option.any_eq_true _ _).1 holds
  obtain ⟨evaluation, ran⟩ := Option.isSome_iff_exists.1 holds
  have builds := Result.eq_ok_of_toOption builds
  have ran := Result.eq_ok_of_toOption ran
  obtain ⟨built', builds', agree, function, _, isFunction, -⟩ := exists_built
  obtain ⟨returns, found⟩ := Compiled.exists_returns isFunction
  have named' : built'.node? "choose" = some (.function function) :=
    Option.map_eq_some_iff.2 ⟨_, found, rfl⟩
  have same : greeting.reversed.entries.Perm greeting.entries := List.reverse_perm _
  have apart : (8 : Nat) ≠ 7 := by decide
  obtain ⟨values, succeeds⟩ := order_preserves_results same builds builds' apart apart named named'
  obtain ⟨evaluation', ran'⟩ := succeeds honestLiterals (branchesAgree agree) ⟨evaluation, ran⟩
  exact ⟨built, built', ⟨same, builds, builds', apart, honestLiterals, branchesAgree agree⟩, node, _,
    evaluation, evaluation', named, named', ran, ran', values _ _ ran ran'⟩

/-- The order does matter where a cond gives a value of another type than is inferred for it. What
refers to the cond fails if it was lowered after it, and succeeds if it was lowered before. -/
theorem mixed_order_matters : ∃ built built', mixed.build 7 = .ok built ∧
    mixed.reversed.build 7 = .ok built' ∧ mixed.reversed.entries.Perm mixed.entries ∧
    ∃ node node', built.node? "same" = some node ∧ built'.node? "same" = some node' ∧
      (∀ evaluation, built.context.evaluate .standard node 8 ≠ .ok evaluation) ∧
      ∃ evaluation, built'.context.evaluate .standard node' 8 = .ok evaluation := by
  have succeeds : ((mixed.reversed.build 7).toOption.any fun built =>
      (built.node? "same").any fun node =>
        (built.context.evaluate .standard node 8).toOption.isSome) = true := by
    decide +kernel
  obtain ⟨built', builds', succeeds⟩ := (Option.any_eq_true _ _).1 succeeds
  obtain ⟨node', named', succeeds⟩ := (Option.any_eq_true _ _).1 succeeds
  obtain ⟨evaluation, ran⟩ := Option.isSome_iff_exists.1 succeeds
  obtain ⟨built, builds, outcome⟩ := Mixed.exists_built
  obtain ⟨node, named, fails⟩ := outcome.same
  exact ⟨built, built', builds, Result.eq_ok_of_toOption builds', List.reverse_perm _, node, node',
    named, named', fails, evaluation, Result.eq_ok_of_toOption ran⟩

end Spec

end TagFlow
