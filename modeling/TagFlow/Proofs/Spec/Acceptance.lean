import TagFlow.Proofs.Spec.Built

/-!
# Which specs build

`Spec.WellScoped` says in terms of the spec alone which references are allowed where, and
`Spec.build_ok_iff_wellScoped` that a spec builds just when it is well scoped, whatever the order of
its entries. What does not build is blamed on the first entry that breaks a rule.

A part of the scoping pass is described by the rule it decides (`Judges`): it succeeds where the rule
holds, and fails where it does not, with an error that names the function entry at hand. Each part has
one such lemma; they are put together along the sequence of the pass (`Judges.bind`).
-/

namespace TagFlow

/-! ### The rules -/

/-- What a spec has names for. -/
structure Vocabulary where
  literal : String → Prop
  function : String → Prop

namespace Vocabulary

variable (words : Vocabulary)

/-- What a reference outside of pipes may point at. -/
def Sees : Target → Prop
  | .value name => words.literal name
  | .name name => words.literal name ∨ words.function name
  | .output name => words.function name
  | .input _ => False
  | .step _ => False

/-- What a reference inside of a pipe with these inputs may point at, from the step with this
index. -/
def SeesInPipe (inputs : List String) (index : Nat) : Target → Prop
  | .value name => words.literal name
  | .name name => words.literal name
  | .output _ => False
  | .input name => name ∈ inputs
  | .step earlier => earlier < index

/-- No name is bound twice, and references point at what can be seen. -/
def Bound (sees : Target → Prop) (args : List (String × Reference)) : Prop :=
  (Bindings.names args).Nodup ∧ ∀ arg ∈ args, sees arg.2.target

mutual

/-- A step of a pipe with these inputs, the one with this index. -/
def StepScoped (inputs : List String) (index : Nat) : StepExpr → Prop
  | .combine expr => expr.args.length = 2 ∧ Bound (words.SeesInPipe inputs index) expr.args
  | .pipe bindings steps =>
    Bound (words.SeesInPipe inputs index) bindings ∧ StepsScoped (Bindings.names bindings) 0 steps

/-- The steps of a pipe from the one with this index on. -/
def StepsScoped (inputs : List String) (index : Nat) : List StepExpr → Prop
  | [] => True
  | step :: rest => StepScoped inputs index step ∧ StepsScoped inputs (index + 1) rest

end

/-- A function entry: what it reads can be seen from outside of pipes, and steps keep to their pipe. -/
def FunctionScoped : FunctionExpr → Prop
  | .combine expr => expr.args.length = 2 ∧ Bound words.Sees expr.args
  | .pipe bindings steps =>
    Bound words.Sees bindings ∧ words.StepsScoped (Bindings.names bindings) 0 steps
  | .cond condition thenBranch elseBranch =>
    (words.literal condition ∨ words.function condition) ∧ words.function thenBranch ∧
      words.function elseBranch

/-- An entry of a spec: it has a name, and a function entry keeps the rules of its form. -/
def EntryScoped (entry : String × SpecEntry) : Prop :=
  entry.1 ≠ "" ∧ ∀ expr, entry.2 = .function expr → words.FunctionScoped expr

end Vocabulary

namespace Spec

/-- The names of a spec, by what they stand for. -/
def vocabulary (spec : Spec) : Vocabulary where
  literal name := ∃ value, (name, .literal value) ∈ spec.entries
  function name := ∃ expr, (name, .function expr) ∈ spec.entries

/-- Every entry keeps the rules. -/
def WellScoped (spec : Spec) : Prop := ∀ entry ∈ spec.entries, spec.vocabulary.EntryScoped entry

theorem vocabulary_of_perm {spec other : Spec} (same : other.entries.Perm spec.entries) :
    other.vocabulary = spec.vocabulary := by
  unfold vocabulary
  simp only [same.mem_iff]

/-- The rules do not depend on the order of the entries. -/
theorem wellScoped_of_perm {spec other : Spec} (same : other.entries.Perm spec.entries) :
    other.WellScoped ↔ spec.WellScoped := by
  unfold WellScoped
  simp only [vocabulary_of_perm same, same.mem_iff]

end Spec

/-! ### Deciding a rule -/

/-- A computation decides a rule: it fails just where the rule does not hold, with an error found in
this function. -/
def Judges (function : String) (rule : Prop) {α : Type} : Except BuildError α → Prop
  | .ok _ => rule
  | .error e => ¬ rule ∧ e.function? = some function

namespace Judges

variable {α β : Type} {function : String} {rule rule' : Prop} {x : Except BuildError α}

theorem congr (judges : Judges function rule x) (same : rule ↔ rule') :
    Judges function rule' x := by
  rw [propext same] at judges
  exact judges

/-- The second rule need only be decided where the first holds. -/
theorem bind {next : α → Except BuildError β} (first : Judges function rule x)
    (rest : ∀ a, x = .ok a → Judges function rule' (next a)) :
    Judges function (rule ∧ rule') (x >>= next) := by
  cases x with
  | error e =>
    obtain ⟨broken, blamed⟩ := first
    exact ⟨fun both => broken both.1, blamed⟩
  | ok a =>
    have later := rest a rfl
    show Judges function (rule ∧ rule') (next a)
    cases outcome : next a with
    | error e =>
      rw [outcome] at later
      exact ⟨fun both => later.1 both.2, later.2⟩
    | ok b =>
      rw [outcome] at later
      exact ⟨first, later⟩

/-- What is made of the result does not matter. -/
theorem map (judges : Judges function rule x) (f : α → β) :
    Judges function rule (x >>= fun a => pure (f a)) := by
  cases x with
  | error e => exact judges
  | ok a => exact judges

end Judges

namespace Names

open Lowering Result Vocabulary

variable {α β : Type} {names : Names} {words : Vocabulary} {function : String}

/-! ### Names and arguments -/

/-- Names stand for what the vocabulary has them for. -/
structure Speaks (names : Names) (words : Vocabulary) : Prop where
  literal : ∀ {name : String}, words.literal name ↔ ∃ id, names[name]? = some (.literal id)
  function : ∀ {name : String},
    words.function name ↔ ∃ id returns, names[name]? = some (.function id returns)

/-- Registered names are those of the spec. -/
theorem speaks_of_registered {spec : Spec} {draft : Draft}
    (registered : Registered spec.entries names draft) : Speaks names spec.vocabulary where
  literal := by
    intro name
    constructor
    · rintro ⟨value, isEntry⟩
      obtain ⟨id, found, -⟩ := registered.literal isEntry
      exact ⟨id, found⟩
    · rintro ⟨id, found⟩
      obtain ⟨value, isEntry, -⟩ := registered.ofLiteral found
      exact ⟨value, isEntry⟩
  function := by
    intro name
    constructor
    · rintro ⟨expr, isEntry⟩
      exact registered.function isEntry
    · rintro ⟨id, returns, found⟩
      exact (registered.ofFunction found).1

namespace Speaks

variable {name : String}

theorem of_none (speaks : Speaks names words) (unknown : names[name]? = none) :
    ¬ words.literal name ∧ ¬ words.function name := by
  constructor
  · intro isLiteral
    obtain ⟨id, found⟩ := speaks.literal.1 isLiteral
    cases unknown.symm.trans found
  · intro isFunction
    obtain ⟨id, returns, found⟩ := speaks.function.1 isFunction
    cases unknown.symm.trans found

theorem of_literal (speaks : Speaks names words) {id : ValueId}
    (found : names[name]? = some (.literal id)) : words.literal name ∧ ¬ words.function name := by
  refine ⟨speaks.literal.2 ⟨id, found⟩, fun isFunction => ?_⟩
  obtain ⟨id', returns, found'⟩ := speaks.function.1 isFunction
  cases found.symm.trans found'

theorem of_function (speaks : Speaks names words) {id : FunctionId} {returns : ValueId}
    (found : names[name]? = some (.function id returns)) :
    words.function name ∧ ¬ words.literal name := by
  refine ⟨speaks.function.2 ⟨id, returns, found⟩, fun isLiteral => ?_⟩
  obtain ⟨id', found'⟩ := speaks.literal.1 isLiteral
  cases found.symm.trans found'

end Speaks

/-- A combine has two arguments of different names. -/
theorem judges_twoArguments (function : String) (expr : CombineExpr) :
    Judges function (expr.args.length = 2 ∧ (Bindings.names expr.args).Nodup)
      (twoArguments function expr) := by
  unfold twoArguments
  split
  · next a b args =>
    rw [args]
    split
    · next same =>
      refine ⟨fun both => ?_, rfl⟩
      simp [Bindings.names, same] at both
    · next different =>
      refine ⟨rfl, ?_⟩
      simpa [Bindings.names] using different
  · next other =>
    refine ⟨fun both => ?_, rfl⟩
    obtain ⟨a, b, args⟩ := List.length_eq_two.1 both.1
    exact other a b args

variable {sees : Target → Prop} {resolve : String → Target → Except BuildError α}

/-- The arguments of a combine, each followed by `resolve`. -/
theorem judges_arguments
    (follows : ∀ name target, Judges function (sees target) (resolve name target))
    (expr : CombineExpr) (result : (String × Reference) → (String × Reference) → α → α → β) :
    Judges function (expr.args.length = 2 ∧ Bound sees expr.args) (do
      let (a, b) ← twoArguments function expr
      let first ← resolve a.1 a.2.target
      let second ← resolve b.1 b.2.target
      return result a b first second) := by
  have sources : ∀ pair, twoArguments function expr = .ok pair →
      Judges function (∀ arg ∈ expr.args, sees arg.2.target) (do
        let first ← resolve pair.1.1 pair.1.2.target
        let second ← resolve pair.2.1 pair.2.2.target
        return result pair.1 pair.2 first second) := by
    rintro ⟨a, b⟩ two
    rw [(twoArguments_eq_ok two).1]
    have both := (follows a.1 a.2.target).bind fun first _ =>
      (follows b.1 b.2.target).map (result a b first)
    apply both.congr
    simp
  exact ((judges_twoArguments function expr).bind sources).congr and_assoc

/-- The inputs of a pipe, each followed by `resolve`. -/
theorem judges_scopeInputs
    (follows : ∀ name target, Judges function (sees target) (resolve name target)) :
    ∀ (bindings : List (String × Reference)) (seen : List String),
      Judges function (Bound sees bindings ∧ ∀ name ∈ Bindings.names bindings, name ∉ seen)
        (scopeInputs function resolve seen bindings)
  | [], seen => by
    refine ⟨⟨List.nodup_nil, ?_⟩, ?_⟩
    · intro arg isArg
      cases isArg
    · intro name isName
      cases isName
  | (name, reference) :: rest, seen => by
    rw [scopeInputs]
    split
    · next again =>
      exact ⟨fun both => both.2 name List.mem_cons_self again, rfl⟩
    · next new =>
      have judges := (follows name reference.target).bind fun source _ =>
        (judges_scopeInputs follows rest (name :: seen)).map fun rest => (name, source) :: rest
      apply judges.congr
      simp only [Bound, Bindings.names, List.map_cons, List.nodup_cons, List.mem_cons, not_or,
        forall_eq_or_imp]
      constructor
      · rintro ⟨here, ⟨distinct, later⟩, others⟩
        exact ⟨⟨⟨fun again => (others name again).1 rfl, distinct⟩, here, later⟩, new,
          fun other isName => (others other isName).2⟩
      · rintro ⟨⟨⟨unique, distinct⟩, here, later⟩, -, others⟩
        refine ⟨here, ⟨distinct, later⟩, fun other isName => ⟨?_, others other isName⟩⟩
        rintro rfl
        exact unique isName

/-- The inputs of a pipe keep their names. -/
theorem names_scopeInputs {bindings : List (String × Reference)} {seen : List String}
    {bound : List (String × α)} (run : scopeInputs function resolve seen bindings = .ok bound) :
    bound.map (·.1) = Bindings.names bindings :=
  map_eq_of_forall₂ (fun _ _ related => related.1) (scopeInputs_eq_ok run).1

/-- A pipe: its inputs, and then its steps, which are scoped under the names of the inputs. -/
theorem judges_pipe {γ : Type} {rule : Prop}
    (follows : ∀ name target, Judges function (sees target) (resolve name target))
    (bindings : List (String × Reference)) (steps : List String → Except BuildError β)
    (inner : Judges function rule (steps (Bindings.names bindings)))
    (result : List (String × α) → β → γ) :
    Judges function (Bound sees bindings ∧ rule) (do
      let bound ← scopeInputs function resolve [] bindings
      let steps ← steps (bound.map (·.1))
      return result bound steps) := by
  have inputs : Judges function (Bound sees bindings) (scopeInputs function resolve [] bindings) := by
    apply (judges_scopeInputs follows bindings []).congr
    simp
  apply inputs.bind
  intro bound run
  rw [names_scopeInputs run]
  exact inner.map (result bound)

/-! ### References inside of pipes -/

theorem judges_resolveLiteral (speaks : Speaks names words) (step : Nat) (argument name : String)
    (target : Target) :
    Judges function ((∀ name, target ≠ .output name) ∧ words.literal name)
      (names.resolveLiteral ⟨function, step, argument⟩ target name) := by
  unfold resolveLiteral
  split
  · next found => exact ⟨fun both => (speaks.of_function found).2 both.2, rfl⟩
  · next other _ => exact ⟨fun both => both.1 other rfl, rfl⟩
  · next found noOutput => exact ⟨noOutput, (speaks.of_literal found).1⟩
  · next unknown => exact ⟨fun both => (speaks.of_none unknown).1 both.2, rfl⟩

theorem judges_resolveInPipe (speaks : Speaks names words) (inputs : List String) (step : Nat)
    (argument : String) (target : Target) :
    Judges function (words.SeesInPipe inputs step target)
      (names.resolveInPipe inputs ⟨function, step, argument⟩ target) := by
  cases target with
  | input name =>
    rw [resolveInPipe]
    split
    · next isInput => exact isInput
    · next noInput => exact ⟨noInput, rfl⟩
  | step index =>
    rw [resolveInPipe]
    split
    · next earlier => exact earlier
    · next later => exact ⟨later, rfl⟩
  | value name =>
    apply (judges_resolveLiteral speaks step argument name (.value name)).congr
    simp [SeesInPipe]
  | name name =>
    apply (judges_resolveLiteral speaks step argument name (.name name)).congr
    simp [SeesInPipe]
  | output name =>
    apply (judges_resolveLiteral speaks step argument name (.output name)).congr
    simp [SeesInPipe]

/-! ### Steps -/

mutual

theorem judges_scopeStep (speaks : Speaks names words) : ∀ (step : StepExpr) (inputs : List String)
    (index : Nat),
    Judges function (words.StepScoped inputs index step)
      (names.scopeStep function inputs index step)
  | .combine expr, inputs, index => by
    rw [scopeStep, StepScoped]
    exact judges_arguments (fun name target => judges_resolveInPipe speaks inputs index name target)
      expr fun a b first second => ScopedStep.combine expr.operation ⟨a.1, first, a.2.adapter⟩
        ⟨b.1, second, b.2.adapter⟩
  | .pipe bindings steps, inputs, index => by
    rw [scopeStep, StepScoped]
    exact judges_pipe (fun name target => judges_resolveInPipe speaks inputs index name target)
      bindings (fun inner => names.scopeSteps function inner 0 steps)
      (judges_scopeSteps speaks steps _ 0) ScopedStep.pipe

theorem judges_scopeSteps (speaks : Speaks names words) : ∀ (steps : List StepExpr)
    (inputs : List String) (index : Nat),
    Judges function (words.StepsScoped inputs index steps)
      (names.scopeSteps function inputs index steps)
  | [], inputs, index => by
    rw [scopeSteps, StepsScoped]
    trivial
  | step :: rest, inputs, index => by
    rw [scopeSteps, StepsScoped]
    apply (judges_scopeStep speaks step inputs index).bind
    intro first _
    exact (judges_scopeSteps speaks rest inputs (index + 1)).map (first :: ·)

end

/-! ### Functions -/

/-- A reference outside of pipes is followed where there is something to be seen. -/
theorem isSome_resolve?_iff (speaks : Speaks names words) (target : Target) :
    (names.resolve? target).isSome ↔ words.Sees target := by
  cases target with
  | value name | name name | output name =>
    cases found : names[name]? with
    | none => simp [resolve?, Sees, found, speaks.of_none found]
    | some binding =>
      cases binding with
      | literal id => simp [resolve?, Sees, found, speaks.of_literal found]
      | function id returns => simp [resolve?, Sees, found, speaks.of_function found]
  | input _ | step _ => simp [resolve?, Sees]

theorem judges_resolveOr (speaks : Speaks names words) (target : Target) (error : BuildError)
    (blames : error.function? = some function) :
    Judges function (words.Sees target) (names.resolveOr target error) := by
  unfold resolveOr
  split
  · next found => exact (isSome_resolve?_iff speaks target).1 (Option.isSome_of_eq_some found)
  · next nothing =>
    refine ⟨fun seen => ?_, blames⟩
    have found := (isSome_resolve?_iff speaks target).2 seen
    rw [nothing] at found
    cases found

theorem judges_resolveBranch (speaks : Speaks names words) (function : String) (branch : Branch)
    (target : String) :
    Judges function (words.function target) (names.resolveBranch function branch target) := by
  unfold resolveBranch
  split
  · next found => exact (speaks.of_function found).1
  · next other =>
    refine ⟨fun isFunction => ?_, rfl⟩
    obtain ⟨id, returns, found⟩ := speaks.function.1 isFunction
    exact other id returns found

theorem judges_scopeFunction (speaks : Speaks names words) (function : String) (expr : FunctionExpr) :
    Judges function (words.FunctionScoped expr) (names.scopeFunction function expr) := by
  cases expr with
  | combine expr =>
    exact judges_arguments
      (fun name target => judges_resolveOr speaks target (.undefinedValue function name target) rfl)
      expr fun a b first second => ScopedFunction.combine expr.operation ⟨a.1, first, a.2.adapter⟩
        ⟨b.1, second, b.2.adapter⟩
  | pipe bindings steps =>
    exact judges_pipe (fun name target =>
        judges_resolveOr speaks target (.undefinedPipeArgument function name target) rfl)
      bindings (fun inputs => names.scopeSteps function inputs 0 steps)
      (judges_scopeSteps speaks steps _ 0) ScopedFunction.pipe
  | cond condition thenBranch elseBranch =>
    unfold scopeFunction FunctionScoped
    dsimp only
    have branches := fun node =>
      (judges_resolveBranch speaks function .thenBranch thenBranch).bind fun thenId _ =>
        (judges_resolveBranch speaks function .elseBranch elseBranch).map fun elseId =>
          ScopedFunction.cond node thenId elseId
    split
    · next unknown =>
      obtain ⟨noLiteral, noFunction⟩ := speaks.of_none unknown
      exact ⟨fun all => all.1.elim noLiteral noFunction, rfl⟩
    · next binding found =>
      have known : words.literal condition ∨ words.function condition := by
        cases binding with
        | literal id => exact .inl (speaks.of_literal found).1
        | function id returns => exact .inr (speaks.of_function found).1
      apply (branches binding.node).congr
      simp [known]

end Names

namespace Spec

open Lowering Names Vocabulary

variable {spec : Spec} {names : Names} {words : Vocabulary}

/-! ### All entries -/

/-- The first of these entries that breaks a rule, by its name. -/
def FirstBroken (words : Vocabulary) (entries : List (String × SpecEntry)) (name : String) : Prop :=
  ∃ before entry after, entries = before ++ (name, entry) :: after ∧
    ¬ words.EntryScoped (name, entry) ∧ ∀ other ∈ before, words.EntryScoped other

theorem FirstBroken.cons {entry : String × SpecEntry} {rest : List (String × SpecEntry)}
    {name : String} (holds : words.EntryScoped entry) (broken : FirstBroken words rest name) :
    FirstBroken words (entry :: rest) name := by
  obtain ⟨before, found, after, rfl, breaks, others⟩ := broken
  refine ⟨entry :: before, found, after, rfl, breaks, ?_⟩
  intro other isBefore
  rcases List.mem_cons.1 isBefore with rfl | isBefore
  · exact holds
  · exact others other isBefore

/-- Scoping goes through all entries if they keep the rules, and else stops at the first that does
not. -/
theorem scope_judges (speaks : Speaks names words) : ∀ {entries : List (String × SpecEntry)},
    (∀ entry ∈ entries, entry.1 ≠ "") →
    (∀ {name : String} {expr : FunctionExpr}, (name, .function expr) ∈ entries →
      ∃ id returns, names[name]? = some (.function id returns)) →
    match scope names entries with
    | .ok _ => ∀ entry ∈ entries, words.EntryScoped entry
    | .error e => ∃ name, e.function? = some name ∧ FirstBroken words entries name
  | [], _, _ => by
    intro entry isEntry
    cases isEntry
  | (name, .literal value) :: rest, named, registered => by
    have later := scope_judges speaks
      (fun entry isRest => named entry (List.mem_cons_of_mem _ isRest))
      fun isRest => registered (List.mem_cons_of_mem _ isRest)
    have here : words.EntryScoped (name, .literal value) := by
      refine ⟨named _ List.mem_cons_self, fun expr same => ?_⟩
      cases same
    rw [scope]
    cases run : scope names rest with
    | ok pending =>
      rw [run] at later
      exact List.forall_mem_cons.2 ⟨here, later⟩
    | error e =>
      rw [run] at later
      obtain ⟨other, blamed, broken⟩ := later
      exact ⟨other, blamed, broken.cons here⟩
  | (name, .function expr) :: rest, named, registered => by
    have later := scope_judges speaks
      (fun entry isRest => named entry (List.mem_cons_of_mem _ isRest))
      fun isRest => registered (List.mem_cons_of_mem _ isRest)
    have judges := judges_scopeFunction speaks name expr
    obtain ⟨id, returns, found⟩ := registered List.mem_cons_self
    rw [scope, found]
    cases first : names.scopeFunction name expr with
    | error e =>
      rw [first] at judges
      refine ⟨name, judges.2, [], _, rest, rfl, fun keeps => judges.1 (keeps.2 expr rfl), ?_⟩
      intro other isBefore
      cases isBefore
    | ok body =>
      rw [first] at judges
      have here : words.EntryScoped (name, .function expr) := by
        refine ⟨named _ List.mem_cons_self, fun expr' same => ?_⟩
        cases same
        exact judges
      cases run : scope names rest with
      | ok pending =>
        rw [run] at later
        exact List.forall_mem_cons.2 ⟨here, later⟩
      | error e =>
        rw [run] at later
        obtain ⟨other, blamed, broken⟩ := later
        exact ⟨other, blamed, broken.cons here⟩

theorem unnamed?_eq_none_iff : spec.unnamed? = none ↔ ∀ entry ∈ spec.entries, entry.1 ≠ "" := by
  unfold unnamed? Bindings.names
  rw [List.findIdx?_eq_none_iff]
  simp

/-- Where all entries have names, what scoping says is what the build says: lowering does not fail. -/
theorem build_eq_scope (session : Nat) (named : spec.unnamed? = none) :
    let registered := (register spec.entries).run (.new session)
    ∃ result : List Pending → Built,
      spec.build session = (scope registered.1 spec.entries).map result := by
  intro registered
  refine ⟨fun pending => ((pending.forM lowerEntry).run registered.2).2.finish registered.1, ?_⟩
  rw [build, assemble_eq_scope session named]
  cases scope registered.1 spec.entries with
  | ok pending => rfl
  | error e => rfl

/-- What a build says about a spec: it is well scoped, or it has an entry without a name, or the first
entry that breaks a rule is the one that the error names. -/
theorem build_judges (spec : Spec) (session : Nat) :
    match spec.build session with
    | .ok _ => spec.WellScoped
    | .error e => ¬ spec.WellScoped ∧ ((∃ position, e = .invalidName position) ∨
        ∃ name, e.function? = some name ∧ FirstBroken spec.vocabulary spec.entries name) := by
  cases unnamed : spec.unnamed? with
  | some position =>
    have build : spec.build session = .error (.invalidName position) := by
      rw [Spec.build, assemble, unnamed]
      rfl
    rw [build]
    refine ⟨fun wellScoped => ?_, .inl ⟨position, rfl⟩⟩
    have named := unnamed?_eq_none_iff.2 fun entry isEntry => (wellScoped entry isEntry).1
    cases unnamed.symm.trans named
  | none =>
    obtain ⟨-, -, -, registered⟩ := register_spec spec.nodup session
    have judges := scope_judges (speaks_of_registered registered) (unnamed?_eq_none_iff.1 unnamed)
      registered.function
    obtain ⟨result, build⟩ := build_eq_scope session unnamed
    rw [build]
    cases run : scope ((register spec.entries).run (.new session)).1 spec.entries with
    | ok pending =>
      rw [run] at judges
      exact judges
    | error e =>
      rw [run] at judges
      obtain ⟨name, blamed, before, entry, after, same, breaks, others⟩ := judges
      refine ⟨fun wellScoped => breaks (wellScoped _ ?_),
        .inr ⟨name, blamed, before, entry, after, same, breaks, others⟩⟩
      rw [same]
      exact List.mem_append_right _ List.mem_cons_self

theorem exists_build_iff (spec : Spec) (session : Nat) :
    (∃ built, spec.build session = .ok built) ↔ spec.WellScoped := by
  have judges := build_judges spec session
  split at judges
  · next built run => exact ⟨fun _ => judges, fun _ => ⟨built, run⟩⟩
  · next e run =>
    constructor
    · rintro ⟨built, builds⟩
      cases run.symm.trans builds
    · intro wellScoped
      exact absurd wellScoped judges.1

/-- A spec builds just when it is well scoped. The order of its entries does not matter for that; it
matters for which entry is blamed: unless one has no name, the first that breaks a rule. -/
theorem build_ok_iff_wellScoped (spec : Spec) (session : Nat) :
    ((∃ built, spec.build session = .ok built) ↔ spec.WellScoped) ∧
      (∀ other : Spec, other.entries.Perm spec.entries →
        ((∃ built, other.build session = .ok built) ↔ spec.WellScoped)) ∧
      ∀ e, spec.build session = .error e → (∀ position, e ≠ .invalidName position) →
        ∃ name, e.function? = some name ∧ FirstBroken spec.vocabulary spec.entries name := by
  refine ⟨exists_build_iff spec session, ?_, ?_⟩
  · intro other same
    rw [exists_build_iff other session, wellScoped_of_perm same]
  · intro e run otherwise
    have judges := build_judges spec session
    rw [run] at judges
    obtain ⟨-, ⟨position, invalid⟩ | blamed⟩ := judges
    · exact absurd invalid (otherwise position)
    · exact blamed

end Spec

end TagFlow
