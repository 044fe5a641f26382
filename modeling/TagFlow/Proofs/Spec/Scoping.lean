import TagFlow.Proofs.Result
import TagFlow.Proofs.Spec.Lowering

/-!
# Scoped entries

What a successful scoping has checked, form by form: a combine has two arguments of different names,
the inputs of a pipe have different names, and each reference was followed in the scope where it
stands. Inside of pipes the absolute values are literals (`grounded_of_scopeFunction`).
-/

namespace TagFlow.Names

open Result Lowering

variable {names : Names} {function : String} {inputs : List String} {index : Nat}

/-! ### References -/

theorem resolveLiteral_eq_ok {site : Site} {target : Target} {name : String} {source : Source}
    (run : names.resolveLiteral site target name = .ok source) :
    (∀ name, target ≠ .output name) ∧
      ∃ id, names[name]? = some (.literal id) ∧ source = .value id := by
  unfold resolveLiteral at run
  split at run
  · cases run
  · cases run
  · next id found noOutput =>
    cases run
    exact ⟨noOutput, id, found, rfl⟩
  · cases run

/-- Inside of a pipe a reference leads to an input, to an earlier step or to a literal. -/
theorem resolveInPipe_eq_ok {site : Site} {target : Target} {source : Source}
    (run : names.resolveInPipe inputs site target = .ok source) :
    (∃ name, target = .input name ∧ name ∈ inputs ∧ source = .input name) ∨
      (∃ index, target = .step index ∧ index < site.step ∧ source = .step index) ∨
      ∃ name id, (target = .value name ∨ target = .name name) ∧
        names[name]? = some (.literal id) ∧ source = .value id := by
  cases target with
  | input name =>
    rw [resolveInPipe] at run
    split at run
    · next isInput =>
      cases run
      exact .inl ⟨name, rfl, isInput, rfl⟩
    · cases run
  | step index =>
    rw [resolveInPipe] at run
    split at run
    · next earlier =>
      cases run
      exact .inr (.inl ⟨index, rfl, earlier, rfl⟩)
    · cases run
  | value name =>
    obtain ⟨-, id, found, same⟩ := resolveLiteral_eq_ok run
    exact .inr (.inr ⟨name, id, .inl rfl, found, same⟩)
  | name name =>
    obtain ⟨-, id, found, same⟩ := resolveLiteral_eq_ok run
    exact .inr (.inr ⟨name, id, .inr rfl, found, same⟩)
  | output name =>
    obtain ⟨noOutput, -⟩ := resolveLiteral_eq_ok run
    exact absurd rfl (noOutput name)

theorem twoArguments_eq_ok {expr : CombineExpr} {a b : String × Reference}
    (run : twoArguments function expr = .ok (a, b)) : expr.args = [a, b] ∧ a.1 ≠ b.1 := by
  unfold twoArguments at run
  split at run
  · next a b args =>
    split at run
    · cases run
    · next different =>
      cases run
      exact ⟨args, different⟩
  · cases run

/-- Inputs keep their names, which are different, and their references have been followed. -/
theorem scopeInputs_eq_ok {α : Type} {resolve : String → Target → Except BuildError α} :
    ∀ {bindings : List (String × Reference)} {seen : List String} {bound : List (String × α)},
      scopeInputs function resolve seen bindings = .ok bound →
      List.Forall₂ (fun binding input => input.1 = binding.1 ∧
        resolve binding.1 binding.2.target = .ok input.2) bindings bound ∧
        (bound.map (·.1)).Nodup ∧ ∀ name ∈ bound.map (·.1), name ∉ seen
  | [], seen, bound, run => by
    cases run
    exact ⟨.nil, List.nodup_nil, fun _ h => nomatch h⟩
  | (name, reference) :: rest, seen, bound, run => by
    rw [scopeInputs] at run
    split at run
    · cases run
    · next new =>
      obtain ⟨source, resolved, run⟩ := bind_eq_ok.1 run
      obtain ⟨others, scoped', run⟩ := bind_eq_ok.1 run
      cases run
      obtain ⟨follow, distinct, unseen⟩ := scopeInputs_eq_ok scoped'
      refine ⟨.cons ⟨rfl, resolved⟩ follow, ?_, fun other isName => ?_⟩
      · exact List.nodup_cons.2 ⟨fun again => unseen name again List.mem_cons_self, distinct⟩
      · rcases List.mem_cons.1 isName with rfl | isName
        · exact new
        · exact fun old => unseen other isName (List.mem_cons_of_mem _ old)

/-! ### Steps -/

theorem scopeStep_combine_eq_ok {expr : CombineExpr} {given : ScopedStep}
    (run : names.scopeStep function inputs index (.combine expr) = .ok given) :
    ∃ a b first second, expr.args = [a, b] ∧ a.1 ≠ b.1 ∧
      names.resolveInPipe inputs ⟨function, index, a.1⟩ a.2.target = .ok first ∧
      names.resolveInPipe inputs ⟨function, index, b.1⟩ b.2.target = .ok second ∧
      given = .combine expr.operation ⟨a.1, first, a.2.adapter⟩ ⟨b.1, second, b.2.adapter⟩ := by
  rw [scopeStep] at run
  obtain ⟨⟨a, b⟩, two, run⟩ := bind_eq_ok.1 run
  obtain ⟨first, resolved, run⟩ := bind_eq_ok.1 run
  obtain ⟨second, resolved', run⟩ := bind_eq_ok.1 run
  cases run
  obtain ⟨args, different⟩ := twoArguments_eq_ok two
  exact ⟨a, b, first, second, args, different, resolved, resolved', rfl⟩

theorem scopeStep_pipe_eq_ok {bindings : List (String × Reference)} {steps : List StepExpr}
    {given : ScopedStep}
    (run : names.scopeStep function inputs index (.pipe bindings steps) = .ok given) :
    ∃ bound scopedSteps, given = .pipe bound scopedSteps ∧
      List.Forall₂ (fun binding input => input.1 = binding.1 ∧
        names.resolveInPipe inputs ⟨function, index, binding.1⟩ binding.2.target = .ok input.2)
        bindings bound ∧ (bound.map (·.1)).Nodup ∧
      names.scopeSteps function (bound.map (·.1)) 0 steps = .ok scopedSteps := by
  rw [scopeStep] at run
  obtain ⟨bound, inputs, run⟩ := bind_eq_ok.1 run
  obtain ⟨scopedSteps, inner, run⟩ := bind_eq_ok.1 run
  cases run
  obtain ⟨follow, distinct, -⟩ := scopeInputs_eq_ok inputs
  exact ⟨bound, scopedSteps, rfl, follow, distinct, inner⟩

theorem scopeSteps_cons_eq_ok {step : StepExpr} {rest : List StepExpr} {given : List ScopedStep}
    (run : names.scopeSteps function inputs index (step :: rest) = .ok given) :
    ∃ first others, given = first :: others ∧
      names.scopeStep function inputs index step = .ok first ∧
      names.scopeSteps function inputs (index + 1) rest = .ok others := by
  rw [scopeSteps] at run
  obtain ⟨first, here, run⟩ := bind_eq_ok.1 run
  obtain ⟨others, later, run⟩ := bind_eq_ok.1 run
  cases run
  exact ⟨first, others, rfl, here, later⟩

theorem scopeSteps_nil_eq_ok {given : List ScopedStep}
    (run : names.scopeSteps function inputs index [] = .ok given) : given = [] := by
  rw [scopeSteps] at run
  cases run
  rfl

/-! ### Functions -/

theorem resolve?_eq_some {target : Target} {binding : Binding}
    (found : names.resolve? target = some binding) :
    ∃ name, (target = .value name ∨ target = .name name ∨ target = .output name) ∧
      names[name]? = some binding := by
  unfold resolve? at found
  split at found
  · next name =>
    split at found
    · next id known =>
      cases found
      exact ⟨name, .inl rfl, known⟩
    · cases found
  · next name => exact ⟨name, .inr (.inl rfl), found⟩
  · next name =>
    split at found
    · next id returns known =>
      cases found
      exact ⟨name, .inr (.inr rfl), known⟩
    · cases found
  · cases found
  · cases found

theorem resolveOr_eq_ok {target : Target} {error : BuildError} {binding : Binding}
    (run : names.resolveOr target error = .ok binding) : names.resolve? target = some binding := by
  unfold resolveOr at run
  split at run
  · next found =>
    cases run
    exact found
  · cases run

theorem resolveBranch_eq_ok {branch : Branch} {target : String} {id : FunctionId}
    (run : names.resolveBranch function branch target = .ok id) :
    ∃ returns, names[target]? = some (.function id returns) := by
  unfold resolveBranch at run
  split at run
  · next found =>
    cases run
    exact ⟨_, found⟩
  · cases run

theorem scopeFunction_combine_eq_ok {expr : CombineExpr} {body : ScopedFunction}
    (run : names.scopeFunction function (.combine expr) = .ok body) :
    ∃ a b first second, expr.args = [a, b] ∧ a.1 ≠ b.1 ∧
      names.resolve? a.2.target = some first ∧ names.resolve? b.2.target = some second ∧
      body = .combine expr.operation ⟨a.1, first, a.2.adapter⟩ ⟨b.1, second, b.2.adapter⟩ := by
  unfold scopeFunction at run
  obtain ⟨⟨a, b⟩, two, run⟩ := bind_eq_ok.1 run
  obtain ⟨first, resolved, run⟩ := bind_eq_ok.1 run
  obtain ⟨second, resolved', run⟩ := bind_eq_ok.1 run
  cases run
  obtain ⟨args, different⟩ := twoArguments_eq_ok two
  exact ⟨a, b, first, second, args, different, resolveOr_eq_ok resolved, resolveOr_eq_ok resolved',
    rfl⟩

theorem scopeFunction_pipe_eq_ok {bindings : List (String × Reference)} {steps : List StepExpr}
    {body : ScopedFunction}
    (run : names.scopeFunction function (.pipe bindings steps) = .ok body) :
    ∃ bound scopedSteps, body = .pipe bound scopedSteps ∧
      List.Forall₂ (fun binding input => input.1 = binding.1 ∧
        names.resolve? binding.2.target = some input.2) bindings bound ∧
      (bound.map (·.1)).Nodup ∧
      names.scopeSteps function (bound.map (·.1)) 0 steps = .ok scopedSteps := by
  unfold scopeFunction at run
  obtain ⟨bound, inputs, run⟩ := bind_eq_ok.1 run
  obtain ⟨scopedSteps, inner, run⟩ := bind_eq_ok.1 run
  cases run
  obtain ⟨follow, distinct, -⟩ := scopeInputs_eq_ok inputs
  refine ⟨bound, scopedSteps, rfl, follow.imp ?_, distinct, inner⟩
  exact fun binding input here => ⟨here.1, resolveOr_eq_ok here.2⟩

/-- What the inputs of a pipe are bound to are names of the spec. -/
theorem exists_name_of_scopeFunction {expr : FunctionExpr} {bound : List (String × Binding)}
    {steps : List ScopedStep} (run : names.scopeFunction function expr = .ok (.pipe bound steps)) :
    ∀ input ∈ bound, ∃ name : String, names[name]? = some input.2 := by
  intro input isInput
  cases expr with
  | combine expr =>
    obtain ⟨_, _, _, _, -, -, -, -, same⟩ := scopeFunction_combine_eq_ok run
    cases same
  | cond condition thenBranch elseBranch =>
    unfold scopeFunction at run
    dsimp only at run
    split at run
    · cases run
    · obtain ⟨_, -, run⟩ := bind_eq_ok.1 run
      obtain ⟨_, -, run⟩ := bind_eq_ok.1 run
      cases run
  | pipe bindings given =>
    obtain ⟨_, _, same, follow, -, -⟩ := scopeFunction_pipe_eq_ok run
    cases same
    obtain ⟨_, -, -, resolved⟩ := exists_of_mem_right follow isInput
    obtain ⟨name, -, found⟩ := resolve?_eq_some resolved
    exact ⟨name, found⟩

theorem scopeFunction_cond_eq_ok {condition thenBranch elseBranch : String}
    {body : ScopedFunction}
    (run : names.scopeFunction function (.cond condition thenBranch elseBranch) = .ok body) :
    ∃ binding thenId elseId, names[condition]? = some binding ∧
      (∃ returns, names[thenBranch]? = some (.function thenId returns)) ∧
      (∃ returns, names[elseBranch]? = some (.function elseId returns)) ∧
      body = .cond binding.node thenId elseId := by
  unfold scopeFunction at run
  dsimp only at run
  split at run
  · cases run
  · next binding found =>
    obtain ⟨thenId, isThen, run⟩ := bind_eq_ok.1 run
    obtain ⟨elseId, isElse, run⟩ := bind_eq_ok.1 run
    cases run
    exact ⟨binding, thenId, elseId, found, resolveBranch_eq_ok isThen, resolveBranch_eq_ok isElse,
      rfl⟩

/-! ### Absolute values are literals -/

/-- Literals of these names are rows. -/
def LiteralsIn (names : Names) (values : ValueTable) : Prop :=
  ∀ (name : String) (id : ValueId), names[name]? = some (.literal id) →
    ∃ value, values[id]? = some value

variable {values : ValueTable}

theorem grounded_of_resolveInPipe (literals : names.LiteralsIn values) {site : Site}
    {target : Target} {source : Source}
    (run : names.resolveInPipe inputs site target = .ok source) : SourceGrounded values source := by
  rintro id rfl
  rcases resolveInPipe_eq_ok run with ⟨_, -, -, h⟩ | ⟨_, -, -, h⟩ | ⟨name, _, -, found, h⟩
  · cases h
  · cases h
  · cases h
    exact literals name id found

mutual

theorem grounded_of_scopeStep (literals : names.LiteralsIn values) : ∀ (step : StepExpr)
    {inputs : List String} {index : Nat} {given : ScopedStep},
    names.scopeStep function inputs index step = .ok given →
      StepGrounded values given
  | .combine expr, inputs, index, given, run => by
    obtain ⟨a, b, first, second, -, -, resolved, resolved', rfl⟩ := scopeStep_combine_eq_ok run
    rw [StepGrounded]
    exact ⟨grounded_of_resolveInPipe literals resolved, grounded_of_resolveInPipe literals resolved'⟩
  | .pipe bindings steps, inputs, index, given, run => by
    obtain ⟨bound, scopedSteps, rfl, follow, distinct, inner⟩ := scopeStep_pipe_eq_ok run
    rw [StepGrounded]
    refine ⟨distinct, fun binding isBound => ?_, grounded_of_scopeSteps literals steps inner⟩
    obtain ⟨_, -, -, resolved⟩ := exists_of_mem_right follow isBound
    exact grounded_of_resolveInPipe literals resolved

theorem grounded_of_scopeSteps (literals : names.LiteralsIn values) : ∀ (steps : List StepExpr)
    {inputs : List String} {index : Nat} {given : List ScopedStep},
    names.scopeSteps function inputs index steps = .ok given →
      StepsGrounded values given
  | [], inputs, index, given, run => by
    rw [scopeSteps_nil_eq_ok run, StepsGrounded]
    trivial
  | step :: rest, inputs, index, given, run => by
    obtain ⟨first, others, rfl, here, later⟩ := scopeSteps_cons_eq_ok run
    rw [StepsGrounded]
    exact ⟨grounded_of_scopeStep literals step here, grounded_of_scopeSteps literals rest later⟩

end

theorem grounded_of_scopeFunction (literals : names.LiteralsIn values) {expr : FunctionExpr}
    {body : ScopedFunction}
    (run : names.scopeFunction function expr = .ok body) : FunctionGrounded values body := by
  cases expr with
  | combine expr =>
    obtain ⟨a, b, first, second, -, different, -, -, rfl⟩ := scopeFunction_combine_eq_ok run
    exact different
  | pipe bindings steps =>
    obtain ⟨bound, scopedSteps, rfl, -, distinct, inner⟩ := scopeFunction_pipe_eq_ok run
    exact ⟨distinct, grounded_of_scopeSteps literals steps inner⟩
  | cond condition thenBranch elseBranch =>
    obtain ⟨binding, thenId, elseId, -, -, -, rfl⟩ := scopeFunction_cond_eq_ok run
    trivial

end TagFlow.Names
