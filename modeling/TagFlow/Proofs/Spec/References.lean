import TagFlow.Engine
import TagFlow.Proofs.Spec.Order
import TagFlow.Proofs.Validation.References

/-!
# Literals that nothing refers to

Checking a graph that was built from a spec gives a warning for each literal that nothing in the spec
refers to, and no other warnings (`Spec.warnings_are_unused_literals`).

A reference may stand anywhere: in an argument of a combine, in an input of a pipe, or in a step at any
depth. In the graph these become arguments of functions and sources of steps of pipe definitions that
run one another. What relates the two is the list of the sources of a scoped step. On the one side these
are what its references lead to (`Names.forall₂_scopeStep`), on the other side they are what the lowered
step reads, itself or through what it runs (`Lowering.BodyLowered.reads_iff`).
-/

namespace TagFlow

open Result Lowering Names

/-! ### References of a spec -/

/-- The name of the entry that the target points at; inputs and steps are no entries. -/
def Target.entry? : Target → Option String
  | value n => some n
  | name n => some n
  | output n => some n
  | input _ => none
  | step _ => none

mutual

/-- All references of a step and of the steps inside of it. -/
def StepExpr.references : StepExpr → List Reference
  | .combine expr => expr.args.map (·.2)
  | .pipe inputs steps => inputs.map (·.2) ++ StepExpr.referencesOf steps

/-- All references of the steps of a pipe. -/
def StepExpr.referencesOf : List StepExpr → List Reference
  | [] => []
  | step :: rest => step.references ++ StepExpr.referencesOf rest

end

/-- All references of a function entry, at any depth. -/
def FunctionExpr.references : FunctionExpr → List Reference
  | combine expr => expr.args.map (·.2)
  | pipe inputs steps => inputs.map (·.2) ++ StepExpr.referencesOf steps
  | cond _ _ _ => []

/-- The name of the condition of a cond. -/
def FunctionExpr.condition? : FunctionExpr → Option String
  | cond condition _ _ => some condition
  | _ => none

/-- The entry has the name for the target of a reference or for a condition. -/
def SpecEntry.RefersTo : SpecEntry → String → Prop
  | literal _, _ => False
  | function expr, name =>
    (∃ reference ∈ expr.references, reference.target.entry? = some name) ∨
      expr.condition? = some name

instance (entry : SpecEntry) (name : String) : Decidable (entry.RefersTo name) :=
  match entry with
  | .literal _ => inferInstanceAs (Decidable False)
  | .function _ => inferInstanceAs (Decidable (_ ∨ _))

/-- Some entry refers to the name. -/
def Spec.RefersTo (spec : Spec) (name : String) : Prop :=
  ∃ entry ∈ spec.entries, entry.2.RefersTo name

instance (spec : Spec) (name : String) : Decidable (spec.RefersTo name) :=
  inferInstanceAs (Decidable (∃ entry ∈ spec.entries, entry.2.RefersTo name))

/-! ### Sources of scoped steps -/

mutual

/-- All sources of a scoped step and of the steps inside of it. -/
def ScopedStep.sources : ScopedStep → List Source
  | .combine _ first second => [first.source, second.source]
  | .pipe inputs steps => inputs.map (·.2) ++ ScopedStep.sourcesOf steps

/-- All sources of the scoped steps of a pipe. -/
def ScopedStep.sourcesOf : List ScopedStep → List Source
  | [] => []
  | step :: rest => step.sources ++ ScopedStep.sourcesOf rest

end

namespace Names

variable {names : Names} {function name : String} {inputs : List String} {index : Nat}

/-- The target points at the name of a literal with this row. -/
def LeadsTo (names : Names) (target : Target) (id : ValueId) : Prop :=
  ∃ name, target.entry? = some name ∧ names[name]? = some (Binding.literal id)

/-- The source reads just the row that the reference leads to. -/
def Follows (names : Names) (reference : Reference) (source : Source) : Prop :=
  ∀ id, source = .value id ↔ names.LeadsTo reference.target id

theorem follows_of_resolveInPipe {site : Site} {reference : Reference} {source : Source}
    (run : names.resolveInPipe inputs site reference.target = .ok source) :
    names.Follows reference source := by
  intro id
  unfold LeadsTo
  rcases resolveInPipe_eq_ok run with ⟨_, isTarget, -, rfl⟩ | ⟨_, isTarget, -, rfl⟩ |
    ⟨name, found, isTarget | isTarget, known, rfl⟩
  · simp [isTarget, Target.entry?]
  · simp [isTarget, Target.entry?]
  · simp [isTarget, Target.entry?, known]
  · simp [isTarget, Target.entry?, known]

/-- The sources of the inputs of a pipe inside of a pipe. -/
theorem forall₂_inputs {bindings : List (String × Reference)} {bound : List (String × Source)}
    (follow : List.Forall₂ (fun binding input => input.1 = binding.1 ∧
      names.resolveInPipe inputs ⟨function, index, binding.1⟩ binding.2.target = .ok input.2)
      bindings bound) :
    List.Forall₂ names.Follows (bindings.map (·.2)) (bound.map (·.2)) := by
  rw [List.forall₂_map_left_iff, List.forall₂_map_right_iff]
  exact follow.imp fun _ _ here => follows_of_resolveInPipe here.2

mutual

/-- The sources of a scoped step are what its references lead to. -/
theorem forall₂_scopeStep : ∀ (step : StepExpr) {inputs : List String} {index : Nat}
    {given : ScopedStep}, names.scopeStep function inputs index step = .ok given →
      List.Forall₂ names.Follows step.references given.sources
  | .combine expr, inputs, index, given, run => by
    obtain ⟨a, b, first, second, args, -, resolved, resolved', rfl⟩ := scopeStep_combine_eq_ok run
    rw [StepExpr.references, ScopedStep.sources, args]
    exact .cons (follows_of_resolveInPipe resolved) (.cons (follows_of_resolveInPipe resolved') .nil)
  | .pipe bindings steps, inputs, index, given, run => by
    obtain ⟨bound, scopedSteps, rfl, follow, -, inner⟩ := scopeStep_pipe_eq_ok run
    rw [StepExpr.references, ScopedStep.sources]
    exact List.rel_append (forall₂_inputs follow) (forall₂_scopeSteps steps inner)

theorem forall₂_scopeSteps : ∀ (steps : List StepExpr) {inputs : List String} {index : Nat}
    {given : List ScopedStep}, names.scopeSteps function inputs index steps = .ok given →
      List.Forall₂ names.Follows (StepExpr.referencesOf steps) (ScopedStep.sourcesOf given)
  | [], inputs, index, given, run => by
    rw [scopeSteps_nil_eq_ok run]
    exact .nil
  | step :: rest, inputs, index, given, run => by
    obtain ⟨first, others, rfl, here, later⟩ := scopeSteps_cons_eq_ok run
    rw [StepExpr.referencesOf, ScopedStep.sourcesOf]
    exact List.rel_append (forall₂_scopeStep step here) (forall₂_scopeSteps rest later)

end

/-- A row is among the sources just if one of the references leads to it. -/
theorem mem_sources_iff {references : List Reference} {sources : List Source}
    (follow : List.Forall₂ names.Follows references sources) {id : ValueId} :
    .value id ∈ sources ↔ ∃ reference ∈ references, names.LeadsTo reference.target id := by
  induction follow with
  | nil => simp
  | cons here _ ih =>
    rw [List.mem_cons, ih, eq_comm, here id]
    simp only [List.mem_cons, exists_eq_or_imp]

end Names

/-! ### What lowered steps read -/

namespace Lowering

variable {draft : Draft} {function : String} {value : ValueId}

mutual

/-- What a lowered step reads, itself or within what it runs, are the sources of the scoped step. -/
theorem BodyLowered.reads_iff : ∀ (given : ScopedStep) {inputs : List PipeInput}
    {outputs : List ValueId} {body : StepBody} {args : List (String × Source)},
    BodyLowered draft function inputs outputs given body args →
      (.value value ∈ given.sources ↔
        .value value ∈ args.map (·.2) ∨ draft.context.ReadsWithin body.definition value)
  | .combine operation a b, inputs, outputs, body, args, lowered => by
    cases lowered with
    | @combine _ _ _ _ _ id =>
      have nothing : ¬ draft.context.ReadsWithin (.combine id) value :=
        Context.not_readsWithin (by simp)
      simp only [ScopedStep.sources, StepBody.definition, nothing, or_false, List.map_cons,
        List.map_nil]
  | .pipe bindings steps, inputs, outputs, body, args, lowered => by
    cases lowered with
    | pipe found _ _ _ lowered =>
      rw [ScopedStep.sources, List.mem_append, StepBody.definition,
        Context.readsWithin_pipe_iff found, StepsLowered.reads_iff steps lowered]

/-- What lowered steps read are the sources of the scoped steps. -/
theorem StepsLowered.reads_iff : ∀ (given : List ScopedStep) {inputs : List PipeInput}
    {outputs : List ValueId} {steps : List PipeStep},
    StepsLowered draft function inputs outputs given steps →
      (.value value ∈ ScopedStep.sourcesOf given ↔ ∃ step ∈ steps,
        .value value ∈ step.args.map (·.2) ∨ draft.context.ReadsWithin step.body.definition value)
  | [], inputs, outputs, steps, lowered => by
    cases lowered
    simp [ScopedStep.sourcesOf]
  | first :: rest, inputs, outputs, steps, lowered => by
    cases lowered with
    | cons body _ _ lowered =>
      simp only [ScopedStep.sourcesOf, List.mem_append, List.mem_cons, exists_eq_or_imp,
        BodyLowered.reads_iff first body, StepsLowered.reads_iff rest lowered]

end

end Lowering

namespace Spec

namespace Compiled

variable {spec : Spec} {built : Built} {name : String} {id : ValueId}

/-! ### Literals of a graph -/

/-- An argument outside of any pipe reads a row just if its reference leads to it. -/
theorem output_eq_iff (compiled : Compiled spec built) {value : Value}
    (row : built.context.values[id]? = some value) {target : Target} {binding : Binding}
    (resolved : built.names.resolve? target = some binding) :
    binding.output = id ↔ built.names.LeadsTo target id := by
  obtain ⟨name, isTarget, found⟩ := resolve?_eq_some resolved
  have points : target.entry? = some name := by
    rcases isTarget with rfl | rfl | rfl <;> rfl
  unfold LeadsTo
  simp only [points, Option.some.injEq, exists_eq_left', found]
  cases binding with
  | literal other => simp [Binding.output]
  | function function returns =>
    -- a row is no output of a function
    obtain ⟨⟨expr, isEntry⟩, -, -⟩ := compiled.registered.ofFunction found
    obtain ⟨_, entry, -, known, same, -⟩ := compiled.lowered isEntry found
    have apart : returns ≠ id := by
      rintro rfl
      exact compiled.not_writes_row row function ⟨entry, known, same⟩
    simp [Binding.output, apart]

/-- An argument reads a row just if one of the references leads to it. -/
theorem mem_outputs_iff (compiled : Compiled spec built) {value : Value}
    (row : built.context.values[id]? = some value) {args : List (String × Reference)}
    {bindings : List Binding} (resolved : List.Forall₂ (fun arg binding =>
      built.names.resolve? arg.2.target = some binding) args bindings) :
    id ∈ bindings.map (·.output) ↔
      ∃ reference ∈ args.map (·.2), built.names.LeadsTo reference.target id := by
  induction resolved with
  | nil => simp
  | cons here _ ih =>
    rw [List.map_cons, List.mem_cons, ih, eq_comm, compiled.output_eq_iff row here]
    simp only [List.map_cons, List.mem_cons, exists_eq_or_imp]

/-- A function reads a row just if a reference of its entry leads to the row, or its condition has
it. -/
theorem entryReads_iff (compiled : Compiled spec built) {value : Value}
    (row : built.context.values[id]? = some value) {expr : FunctionExpr} {body : ScopedFunction}
    {entry : FunctionEntry} (isScoped : built.names.scopeFunction name expr = .ok body)
    (lowered : FunctionLowered ⟨built.mint, built.context⟩ name body entry) :
    built.context.EntryReads entry id ↔
      (∃ reference ∈ expr.references, built.names.LeadsTo reference.target id) ∨
        ∃ condition, expr.condition? = some condition ∧
          built.names[condition]? = some (.literal id) := by
  obtain ⟨bindings, resolved, values⟩ := exists_resolved isScoped lowered
  have args := compiled.mem_outputs_iff row resolved
  rw [← values] at args
  unfold Context.EntryReads
  rw [args]
  cases expr with
  | combine expr =>
    obtain ⟨_, _, _, _, -, -, -, -, rfl⟩ := Names.scopeFunction_combine_eq_ok isScoped
    cases lowered with
    | @combine _ _ _ definition =>
      have nothing : ¬ built.context.ReadsWithin (.combine definition) id :=
        Context.not_readsWithin (by simp)
      simp [FunctionExpr.references, FunctionExpr.condition?, FunctionExpr.args,
        FunctionEntry.definition, nothing]
  | pipe inputs steps =>
    obtain ⟨bound, scopedSteps, rfl, -, -, inner⟩ := Names.scopeFunction_pipe_eq_ok isScoped
    cases lowered with
    | @pipe _ _ definition _ d found _ _ _ lowered =>
      have within : built.context.ReadsWithin (.pipe definition) id ↔
          ∃ reference ∈ StepExpr.referencesOf steps, built.names.LeadsTo reference.target id := by
        rw [← Names.mem_sources_iff (Names.forall₂_scopeSteps steps inner),
          StepsLowered.reads_iff scopedSteps lowered]
        exact Context.readsWithin_pipe_iff found
      simp only [FunctionEntry.definition, within]
      simp [FunctionExpr.references, FunctionExpr.condition?, FunctionExpr.args, or_and_right,
        exists_or]
  | cond condition thenBranch elseBranch =>
    obtain ⟨binding, _, _, named, -, -, rfl⟩ := Names.scopeFunction_cond_eq_ok isScoped
    cases lowered with
    | @cond _ _ _ definition _ defined =>
      have nothing : ¬ built.context.ReadsWithin (.cond definition) id :=
        Context.not_readsWithin (by simp)
      cases binding <;>
        simp [FunctionExpr.references, FunctionExpr.condition?, FunctionExpr.args,
          FunctionEntry.definition, Binding.node, nothing, named, defined]

/-- The row of a literal is referenced in the graph just if the spec refers to its name. -/
theorem referenced_iff_refersTo (compiled : Compiled spec built)
    (single : ∀ {other : String}, built.names[other]? = some (.literal id) → other = name)
    (found : built.names[name]? = some (.literal id)) :
    built.context.Referenced id ↔ spec.RefersTo name := by
  obtain ⟨value, -, row⟩ := compiled.registered.ofLiteral found
  have named : ∀ {other : String}, built.names[other]? = some (.literal id) ↔ other = name :=
    fun {other} => ⟨single, fun same => same ▸ found⟩
  have leads : ∀ {target : Target}, built.names.LeadsTo target id ↔ target.entry? = some name := by
    intro target
    unfold LeadsTo
    simp only [named, exists_eq_right]
  -- what a function reads is what its entry refers to
  have reads : ∀ {other : String} {expr : FunctionExpr} {body : ScopedFunction}
      {entry : FunctionEntry}, built.names.scopeFunction other expr = .ok body →
      FunctionLowered ⟨built.mint, built.context⟩ other body entry →
      (built.context.EntryReads entry id ↔ (SpecEntry.function expr).RefersTo name) := by
    intro other expr body entry isScoped lowered
    rw [compiled.entryReads_iff row isScoped lowered]
    simp only [leads, named, exists_eq_right, SpecEntry.RefersTo]
  rw [Context.referenced_iff compiled.used]
  constructor
  · rintro ⟨function, entry, known, isRead⟩
    obtain ⟨other, expr, body, isEntry, -, isScoped, lowered⟩ := compiled.exists_entry known
    exact ⟨_, isEntry, (reads isScoped lowered).1 isRead⟩
  · rintro ⟨⟨other, entry⟩, isEntry, refers⟩
    cases entry with
    | literal content => cases refers
    | function expr =>
      obtain ⟨function, returns, found⟩ := compiled.registered.function isEntry
      obtain ⟨body, entry, isScoped, known, -, lowered⟩ := compiled.lowered isEntry found
      exact ⟨function, entry, known, (reads isScoped lowered).2 refers⟩

end Compiled

/-! ### The warnings -/

/-- Different literals of a graph that is built have different rows. -/
theorem literal_unique {spec : Spec} {session : Nat} {built : Built}
    (builds : spec.build session = .ok built) {name other : String} {id : ValueId}
    (found : built.names[name]? = some (.literal id))
    (found' : built.names[other]? = some (.literal id)) : other = name := by
  obtain ⟨start, pending, stages⟩ := exists_stages builds
  have registered : built.names = ((register spec.entries).run (.new session)).1 := by
    rw [stages.registers]
  rw [registered] at found found'
  exact register_distinct found found'

/-- There is a warning for a literal just if the spec does not refer to its name. -/
theorem unreferencedValue_mem_iff_of_build {spec : Spec} {session : Nat} {built : Built}
    (builds : spec.build session = .ok built) {name : String} {id : ValueId}
    (found : built.names[name]? = some (.literal id)) :
    .unreferencedValue id ∈ built.context.referenceWarnings ↔ ¬ spec.RefersTo name := by
  have compiled := compiled_of_build builds
  obtain ⟨value, -, row⟩ := compiled.registered.ofLiteral found
  rw [Context.unreferencedValue_mem_iff, compiled.referenced_iff_refersTo
    (fun found' => literal_unique builds found found') found]
  exact and_iff_right ⟨value, row⟩

/-- Checking a graph that was built warns once for each literal that the spec does not refer to, and of
nothing else. So a strict engine that finds no error accepts the graph just if the spec refers to all of
its literals. -/
theorem warnings_are_unused_literals {spec : Spec} {session : Nat} {built : Built}
    (builds : spec.build session = .ok built) (engine : Engine) :
    let report := engine.validate built.context
    report.warnings.Nodup ∧
    (∀ warning ∈ report.warnings, ∃ name value id, (name, .literal value) ∈ spec.entries ∧
      built.names[name]? = some (.literal id) ∧ ¬ spec.RefersTo name ∧
      warning = .unreferencedValue id) ∧
    (∀ name value, (name, .literal value) ∈ spec.entries → ∃ id,
      built.names[name]? = some (.literal id) ∧
      (.unreferencedValue id ∈ report.warnings ↔ ¬ spec.RefersTo name)) ∧
    (engine.strict = true → report.isValid = true →
      ((∃ warnings, engine.check built.context = .ok warnings) ↔
        ∀ name value, (name, .literal value) ∈ spec.entries → spec.RefersTo name)) := by
  intro report
  have compiled := compiled_of_build builds
  have only : ∀ warning ∈ report.warnings, ∃ name value id, (name, .literal value) ∈ spec.entries ∧
      built.names[name]? = some (.literal id) ∧ ¬ spec.RefersTo name ∧
      warning = .unreferencedValue id := by
    intro warning found
    cases warning with
    | unreferencedValue id =>
      obtain ⟨⟨value, row⟩, -⟩ := Context.unreferencedValue_mem_iff.1 found
      obtain ⟨name, isEntry, named⟩ := compiled.registered.rows row
      exact ⟨name, value, id, isEntry, named,
        (unreferencedValue_mem_iff_of_build builds named).1 found, rfl⟩
    | unreferencedDefinition definition =>
      obtain ⟨here, unused⟩ := Context.unreferencedDefinition_mem_iff.1 found
      exact absurd (compiled.used definition here) unused
  have all : ∀ name value, (name, .literal value) ∈ spec.entries → ∃ id,
      built.names[name]? = some (.literal id) ∧
      (.unreferencedValue id ∈ report.warnings ↔ ¬ spec.RefersTo name) := by
    intro name value isEntry
    obtain ⟨id, named, -⟩ := compiled.registered.literal isEntry
    exact ⟨id, named, unreferencedValue_mem_iff_of_build builds named⟩
  refine ⟨Context.nodup_referenceWarnings _, only, all, fun strict valid => ?_⟩
  have accepts : (∃ warnings, engine.check built.context = .ok warnings) ↔ report.warnings = [] := by
    have unfolds : engine.check built.context =
        if report.warnings.isEmpty then .ok report.warnings else .error report := by
      unfold Engine.check
      simp only [show engine.validate built.context = report from rfl, strict, valid]
      cases report.warnings <;> rfl
    rw [unfolds]
    cases report.warnings <;> simp
  rw [accepts, List.eq_nil_iff_forall_not_mem]
  constructor
  · intro none name value isEntry
    obtain ⟨id, -, warned⟩ := all name value isEntry
    exact not_not.1 fun unused => none _ (warned.2 unused)
  · intro used warning found
    obtain ⟨name, value, _, isEntry, -, unused, -⟩ := only warning found
    exact unused (used name value isEntry)

/-! ### An instance -/

namespace Scattered

def entries : List (String × SpecEntry) :=
  [ ("pick", .function (.cond "flag" "deep" "deep"))
  , ("deep", .function (.pipe [("x", ⟨.value "word", none⟩)]
      [.pipe [("y", ⟨.input "x", none⟩)]
        [.combine ⟨"string::concat", [("a", ⟨.input "y", none⟩), ("b", ⟨.name "mark", none⟩)]⟩]]))
  , ("word", .literal (.string "now"))
  , ("mark", .literal (.string "!"))
  , ("flag", .literal (.boolean true)) ]

end Scattered

/-- References to literals in an input of a pipe, in a nested step and in a condition. -/
def scattered : Spec := ⟨Scattered.entries, by decide⟩

/-- With a literal that nothing refers to. -/
def spare : Spec := scattered.insert "spare" (.literal (.number 3))

/-- The engine with the built-in operations that accepts no warnings. -/
def pedantic : Engine := ⟨.standard, true, true⟩

/-- Where all literals are referred to, the strict engine accepts the graph. With one literal more there
is one warning, and it does not. -/
theorem warnings_are_unused_literals_scattered : ∃ built built' id,
    (scattered.build 7 = .ok built ∧ (pedantic.validate built.context).isValid = true ∧
      spare.build 7 = .ok built' ∧ (pedantic.validate built'.context).isValid = true) ∧
    (∃ warnings, pedantic.check built.context = .ok warnings) ∧
    built'.names["spare"]? = some (.literal id) ∧
    (∀ warning, warning ∈ (pedantic.validate built'.context).warnings ↔
      warning = .unreferencedValue id) ∧
    ¬ ∃ warnings, pedantic.check built'.context = .ok warnings := by
  have holds : ((scattered.build 7).toOption.any fun built =>
      (pedantic.validate built.context).isValid) = true := by
    decide +kernel
  have holds' : ((spare.build 7).toOption.any fun built =>
      (pedantic.validate built.context).isValid) = true := by
    decide +kernel
  obtain ⟨built, builds, valid⟩ := (Option.any_eq_true _ _).1 holds
  obtain ⟨built', builds', valid'⟩ := (Option.any_eq_true _ _).1 holds'
  have builds := eq_ok_of_toOption builds
  have builds' := eq_ok_of_toOption builds'
  -- the names of the literals, and which of them the entries refer to
  have literals : ∀ {name : String} {value : Value}, (name, .literal value) ∈ Scattered.entries →
      name ∈ ["word", "mark", "flag"] := by
    intro name value isEntry
    simp only [Scattered.entries, List.mem_cons, Prod.mk.injEq, reduceCtorEq, and_false,
      List.not_mem_nil, or_false, false_or] at isEntry
    rcases isEntry with isEntry | isEntry | isEntry <;> simp [isEntry]
  have used : ∀ name ∈ ["word", "mark", "flag"],
      scattered.RefersTo name ∧ spare.RefersTo name := by
    decide
  have unused : ¬ spare.RefersTo "spare" := by decide
  have entries : spare.entries = Scattered.entries ++ [("spare", .literal (.number 3))] := rfl
  have isSpare : ("spare", .literal (.number 3)) ∈ spare.entries := by simp [entries]
  obtain ⟨-, -, -, accepts⟩ := warnings_are_unused_literals builds pedantic
  obtain ⟨-, only, all, accepts'⟩ := warnings_are_unused_literals builds' pedantic
  obtain ⟨id, named, warned⟩ := all "spare" (.number 3) isSpare
  refine ⟨built, built', id, ⟨builds, valid, builds', valid'⟩, ?_, named, fun warning => ?_, ?_⟩
  · exact (accepts rfl valid).2 fun name value isEntry => (used name (literals isEntry)).1
  · refine ⟨fun found => ?_, fun same => same ▸ warned.2 unused⟩
    obtain ⟨name, value, other, isEntry, named', refers, rfl⟩ := only warning found
    rw [entries, List.mem_append, List.mem_singleton] at isEntry
    rcases isEntry with isEntry | same
    · exact absurd (used name (literals isEntry)).2 refers
    · cases same
      cases named.symm.trans named'
      rfl
  · exact fun accepted => unused ((accepts' rfl valid').1 accepted "spare" (.number 3) isSpare)

end Spec

end TagFlow
