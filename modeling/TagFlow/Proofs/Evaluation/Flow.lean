import TagFlow.Proofs.Evaluation.Coupling
import TagFlow.Proofs.Evaluation.Demand
import TagFlow.Proofs.Spec.Built
import TagFlow.Proofs.Typing.Soundness

/-!
# The tags of a result are those of its slice

The *slice* of a node are the rows that its value is computed from (`Context.Draws`): for a combine what
its two arguments are computed from, for a cond what the branch is computed from that it takes. A pipe is
computed from what its last step is computed from, which is followed backwards through steps and pipes
inside of steps (`Context.DrawsWithin`) to inputs and rows. Conditions, branches that are not taken and
steps on which the last step does not draw are not in the slice.

Values that are read are handed on as they are, and the operations unite the tags of their arguments
(`Registry.mem_tags_of_applyBinary`). So the tags of a result are the tags of the rows in the slice of the
root, all of them and no others (`Spec.tags_are_those_of_slice`). Both halves are one equivalence here
(`Value.Unites`), which is carried through the steps of a pipe and then through the graph.
-/

namespace TagFlow

/-! ### Tags that are united -/

/-- The tags of the value are those of these values together. -/
def Value.Unites (value : Value) (sources : Value → Prop) : Prop :=
  ∀ tag, tag ∈ value.tags ↔ ∃ source, sources source ∧ tag ∈ source.tags

namespace Value.Unites

variable {value : Value} {sources others : Value → Prop}

theorem self (value : Value) : value.Unites (· = value) := by
  simp [Unites]

theorem congr (unites : value.Unites sources) (same : ∀ source, sources source ↔ others source) :
    value.Unites others := by
  simpa only [Unites, same] using unites

/-- If each of the values unites the tags of what is behind its item, together they unite the tags of what
is behind all items. -/
theorem of_forall₂ {β : Type} {items : List β} {values : List Value} {behind : β → Value → Prop}
    (each : List.Forall₂ (fun item v => v.Unites (behind item)) items values)
    (all : value.Unites (· ∈ values)) :
    value.Unites fun source => ∃ item ∈ items, behind item source := by
  intro tag
  rw [all tag]
  constructor
  · rintro ⟨v, isValue, tagged⟩
    obtain ⟨item, isItem, unites⟩ := Result.exists_of_mem_right each isValue
    obtain ⟨source, isSource, tagged⟩ := (unites tag).1 tagged
    exact ⟨source, ⟨item, isItem, isSource⟩, tagged⟩
  · rintro ⟨source, ⟨item, isItem, isSource⟩, tagged⟩
    obtain ⟨v, isValue, unites⟩ := Result.exists_of_mem_right each.flip isItem
    exact ⟨v, isValue, (unites tag).2 ⟨source, isSource, tagged⟩⟩

end Value.Unites

/-! ### The slice -/

/-- The step whose output a pipe gives. -/
def PipeDefinition.result (d : PipeDefinition) : Source := .step (d.steps.length - 1)

/-- What the named bindings give for a source of the pipe that they are for: inputs are looked up, and
rows of the graph stay what they are. -/
def Source.bound? {β : Type} (row : ValueId → β) (bindings : List (String × β)) : Source → Option β
  | .input name => bindings.lookup name
  | .value id => some (row id)
  | .step _ => none

namespace Context

/-- What a source in a pipe is computed from, in terms of the inputs of the pipe and of rows. -/
inductive DrawsWithin (c : Context) : PipeDefinition → Source → Source → Prop
  | input {d : PipeDefinition} {name : String} : DrawsWithin c d (.input name) (.input name)
  | value {d : PipeDefinition} {id : ValueId} : DrawsWithin c d (.value id) (.value id)
  /-- A combine step draws on all of its arguments. -/
  | combine {d : PipeDefinition} {index : Nat} {step : PipeStep} {id : CombineId}
      {arg : String × Source} {origin : Source} :
      d.steps[index]? = some step → step.body = .combine id → arg ∈ step.args →
      DrawsWithin c d arg.2 origin → DrawsWithin c d (.step index) origin
  /-- A step that runs a pipe draws on what it gives for the inputs on which the pipe draws. -/
  | pipe {d : PipeDefinition} {index : Nat} {step : PipeStep} {id : PipeId} {inner : PipeDefinition}
      {inside source origin : Source} :
      d.steps[index]? = some step → step.body = .pipe id → c.pipes[id]? = some inner →
      DrawsWithin c inner inner.result inside → inside.bound? .value step.args = some source →
      DrawsWithin c d source origin → DrawsWithin c d (.step index) origin

/-- The value of the node is computed from the row, where conds choose as the table has it. -/
inductive Draws (c : Context) (table : ValueTable) : Node → ValueId → Prop
  | row {id : ValueId} : c.producerOf? id = none → Draws c table (.value id) id
  | producer {value origin : ValueId} {function : FunctionId} : c.producerOf? value = some function →
      Draws c table (.function function) origin → Draws c table (.value value) origin
  | combine {function : FunctionId} {definition : CombineId} {args : ArgMap}
      {returns value origin : ValueId} :
      c.functions[function]? = some (.combine definition args returns) → value ∈ args.values →
      Draws c table (.value value) origin → Draws c table (.function function) origin
  | pipe {function : FunctionId} {definition : PipeId} {args : ArgMap} {d : PipeDefinition}
      {returns value origin : ValueId} {inside : Source} :
      c.functions[function]? = some (.pipe definition args returns) → c.pipes[definition]? = some d →
      c.DrawsWithin d d.result inside → inside.bound? id args.entries = some value →
      Draws c table (.value value) origin → Draws c table (.function function) origin
  | branch {function branch : FunctionId} {definition : CondId} {d : CondDefinition}
      {returns origin : ValueId} :
      c.functions[function]? = some (.cond definition returns) → c.conds[definition]? = some d →
      c.selected? table d = some branch → Draws c table (.function branch) origin →
      Draws c table (.function function) origin

variable {c : Context} {table : ValueTable}

/-- A node draws on the same rows as the function that supplies it. -/
theorem draws_supplier_iff {node : Node} {origin : ValueId} :
    c.Draws table (c.supplier node) origin ↔ c.Draws table node origin := by
  cases node with
  | function id => rfl
  | value id =>
    cases produced : c.producerOf? id with
    | none => rw [supplier_of_unproduced produced]
    | some function =>
      rw [supplier_of_producerOf? produced]
      refine ⟨.producer produced, fun draws => ?_⟩
      cases draws with
      | row unproduced => cases unproduced.symm.trans produced
      | producer produced' draws =>
        cases produced.symm.trans produced'
        exact draws

/-- Rows on which a source in a pipe draws have no producers, if those that it stands for have none. -/
theorem DrawsWithin.unproduced (exact : c.IndexExact) (apart : c.AbsoluteApart)
    {d : PipeDefinition} {source origin : Source} (draws : c.DrawsWithin d source origin) :
    ∀ {id : PipeId}, c.pipes[id]? = some d →
      (∀ value, source = .value value → c.producerOf? value = none) →
      ∀ value, origin = .value value → c.producerOf? value = none := by
  -- a row that a step of a pipe reads is written by no function
  have read : ∀ {id : PipeId} {d : PipeDefinition} {index : Nat} {step : PipeStep} {name : String}
      {source : Source}, c.pipes[id]? = some d → d.steps[index]? = some step →
      (name, source) ∈ step.args → ∀ value, source = .value value → c.producerOf? value = none := by
    rintro id d index step name _ known isStep isArg value rfl
    cases produced : c.producerOf? value with
    | none => rfl
    | some function =>
      have unwritten := (apart id d known step (List.mem_of_getElem? isStep) name value isArg).1
      exact absurd (exact.writes produced) (unwritten function)
  induction draws with
  | input => exact fun _ _ _ same => nomatch same
  | value => exact fun _ unproduced => unproduced
  | combine isStep _ isArg _ ih => exact fun known _ => ih known (read known isStep isArg)
  | @pipe d index step _ inner inside source _ isStep _ found _ isBound _ ihInner ih =>
    intro id known _
    refine ih known fun value same => ?_
    cases inside with
    | input name => exact read known isStep (Bindings.mem_of_lookup isBound) value same
    | value row =>
      cases isBound
      exact ihInner found (fun _ same => nomatch same) value same
    | step _ => cases isBound

/-- The contents of the rows on which a node draws. -/
def Slice (c : Context) (table : ValueTable) (node : Node) (content : Value) : Prop :=
  ∃ origin, c.Draws table node origin ∧ c.values[origin]? = some content

theorem slice_supplier_iff {node : Node} (content : Value) :
    c.Slice table (c.supplier node) content ↔ c.Slice table node content :=
  exists_congr fun _ => and_congr_left fun _ => draws_supplier_iff

end Context

namespace Evaluator

variable {m : Evaluator} {function : FunctionId} {value : Value}

/-! ### Combines -/

/-- What a combine gives has the tags of both arguments. -/
theorem unites_of_denoteCombine (standard : m.registry = .standard) {id : CombineId}
    {arity : Nat → NodeFault} {values : List Value}
    (run : m.denoteCombine function id arity values = .ok value) : value.Unites (· ∈ values) := by
  obtain ⟨d, left, right, -, rfl, ran⟩ := denoteCombine_eq_ok run
  obtain ⟨first, second, adapted, adapted', applied⟩ := combine_eq_ok ran
  rw [standard] at adapted adapted' applied
  intro tag
  rw [Registry.mem_tags_of_applyBinary applied, Registry.mem_tags_of_applyAdapter adapted,
    Registry.mem_tags_of_applyAdapter adapted']
  simp

/-! ### Pipes -/

/-- The contents of the inputs and rows that a source in a pipe draws on. -/
def Origins (m : Evaluator) (function : FunctionId) (inputs : List (String × Value))
    (d : PipeDefinition) (source : Source) (content : Value) : Prop :=
  ∃ origin, m.context.DrawsWithin d source origin ∧
    m.denoteSource function inputs [] origin = .ok content

/-- The outputs of the steps so far have the tags of what the steps draw on. -/
def Traced (m : Evaluator) (function : FunctionId) (inputs : List (String × Value))
    (d : PipeDefinition) (outputs : List Value) : Prop :=
  ∀ (index : Nat) (output : Value), outputs[index]? = some output →
    output.Unites (m.Origins function inputs d (.step index))

/-- Running the pipe gives values with the tags of what its last step draws on. -/
def TracedPipe (m : Evaluator) (function : FunctionId) (id : PipeId) : Prop :=
  ∀ {inputs : List (String × Value)} {value : Value},
    (m.denotePipe function id inputs).run = some (.ok value) →
    ∃ d, m.context.pipes[id]? = some d ∧ value.Unites (m.Origins function inputs d d.result)

section pipes

variable {d : PipeDefinition} {inputs given : List (String × Value)} {outputs : List Value}

/-- An argument that is read has the tags of what it draws on, if the outputs of earlier steps have. -/
theorem unites_of_denoteSource (earlier : m.Traced function inputs d outputs) {source : Source}
    (read : m.denoteSource function inputs outputs source = .ok value) :
    value.Unites (m.Origins function inputs d source) := by
  cases source with
  | input name =>
    refine (Value.Unites.self value).congr fun content => ⟨?_, ?_⟩
    · rintro rfl
      exact ⟨_, .input, read⟩
    · rintro ⟨_, ⟨⟩, same⟩
      exact Except.ok.inj (same.symm.trans read)
  | value id =>
    refine (Value.Unites.self value).congr fun content => ⟨?_, ?_⟩
    · rintro rfl
      exact ⟨_, .value, read⟩
    · rintro ⟨_, ⟨⟩, same⟩
      exact Except.ok.inj (same.symm.trans read)
  | step index =>
    simp only [denoteSource] at read
    split at read
    · next output here =>
      cases read
      exact earlier index value here
    · cases read

/-- What a pipe draws on is found behind the bindings that it was given. -/
theorem unites_of_bindings {β : Type} (row : ValueId → β) (behind : β → Value → Prop)
    {items : List (String × β)}
    (bound : List.Forall₂ (fun item v => v.1 = item.1 ∧ v.2.Unites (behind item.2)) items given)
    {source : Source}
    (rows : ∀ {id}, m.context.DrawsWithin d source (.value id) → ∀ content,
      behind (row id) content ↔ m.context.values[id]? = some content)
    (unites : value.Unites (m.Origins function given d source)) :
    value.Unites fun content => ∃ inside item, m.context.DrawsWithin d source inside ∧
      inside.bound? row items = some item ∧ behind item content := by
  intro tag
  rw [unites tag]
  constructor
  · rintro ⟨content, ⟨inside, draws, read⟩, tagged⟩
    cases inside with
    | input name =>
      have found := Result.rel_lookup (R := fun item (v : Value) => v.Unites (behind item)) bound name
      simp only [denoteSource] at read
      split at read
      · next v here =>
        cases read
        rw [here] at found
        generalize looked : items.lookup name = item at found
        cases found with
        | @some item _ below =>
          obtain ⟨source, isSource, tagged⟩ := (below tag).1 tagged
          exact ⟨source, ⟨_, item, draws, looked, isSource⟩, tagged⟩
      · cases read
    | value id =>
      exact ⟨content, ⟨_, row id, draws, rfl, (rows draws content).2 (getElem?_of_readRow read)⟩, tagged⟩
    | step index => cases read
  · rintro ⟨content, ⟨inside, item, draws, isBound, isBehind⟩, tagged⟩
    cases inside with
    | input name =>
      have found := Result.rel_lookup (R := fun item (v : Value) => v.Unites (behind item)) bound name
      rw [show items.lookup name = some item from isBound] at found
      generalize here : given.lookup name = v at found
      cases found with
      | @some _ v below =>
        refine ⟨v, ⟨_, draws, ?_⟩, (below tag).2 ⟨content, isBehind, tagged⟩⟩
        simp only [denoteSource, here]
    | value id =>
      cases isBound
      refine ⟨content, ⟨_, draws, ?_⟩, tagged⟩
      simp only [denoteSource, readRow, (rows draws content).1 isBehind]
    | step index => cases isBound

/-- The arguments of a step have the tags of what they draw on. -/
theorem forall₂_unites_of_denoteArguments (earlier : m.Traced function inputs d outputs)
    {args : List (String × Source)} (read : m.denoteArguments function inputs outputs args = .ok given) :
    List.Forall₂ (fun arg v => v.1 = arg.1 ∧ v.2.Unites (m.Origins function inputs d arg.2)) args given :=
  (forall₂_of_denoteArguments read).imp fun _ _ here =>
    ⟨here.1, unites_of_denoteSource earlier here.2⟩

/-- A step that runs gives a value with the tags of what the step draws on. -/
theorem unites_of_denoteStep (standard : m.registry = .standard) {step : PipeStep} {index : Nat}
    (isStep : d.steps[index]? = some step)
    (inner : ∀ id, step.body = .pipe id → m.TracedPipe function id)
    (earlier : m.Traced function inputs d outputs)
    (run : (m.denoteStep function inputs outputs step).run = some (.ok value)) :
    value.Unites (m.Origins function inputs d (.step index)) := by
  cases body : step.body with
  | combine id =>
    obtain ⟨args, read, run⟩ := denoteStep_combine_ok body run
    have each := (forall₂_unites_of_denoteArguments earlier read).imp fun _ _ here => here.2
    refine (Value.Unites.of_forall₂ (List.forall₂_map_right_iff.2 each)
      (unites_of_denoteCombine standard run)).congr fun content => ⟨?_, ?_⟩
    · rintro ⟨arg, isArg, origin, draws, here⟩
      exact ⟨origin, .combine isStep body isArg draws, here⟩
    · rintro ⟨origin, draws, here⟩
      cases draws with
      | combine isStep' _ isArg draws =>
        cases isStep.symm.trans isStep'
        exact ⟨_, isArg, origin, draws, here⟩
      | pipe isStep' body' =>
        cases isStep.symm.trans isStep'
        cases body.symm.trans body'
  | pipe id =>
    obtain ⟨given, read, run⟩ := denoteStep_pipe_ok body run
    obtain ⟨nested, known, unites⟩ := inner id body run
    have rows : ∀ (id : ValueId) (content : Value),
        m.Origins function inputs d (.value id) content ↔ m.context.values[id]? = some content := by
      intro id content
      constructor
      · rintro ⟨_, ⟨⟩, here⟩
        exact getElem?_of_readRow here
      · intro here
        refine ⟨_, .value, ?_⟩
        simp only [denoteSource, readRow, here]
    refine (unites_of_bindings .value (m.Origins function inputs d)
      (forall₂_unites_of_denoteArguments earlier read) (fun _ => rows _) unites).congr fun content => ⟨?_, ?_⟩
    · rintro ⟨inside, source, draws, isBound, origin, draws', here⟩
      exact ⟨origin, .pipe isStep body known draws isBound draws', here⟩
    · rintro ⟨origin, draws, here⟩
      cases draws with
      | combine isStep' body' =>
        cases isStep.symm.trans isStep'
        cases body.symm.trans body'
      | pipe isStep' body' known' draws isBound draws' =>
        cases isStep.symm.trans isStep'
        cases body.symm.trans body'
        cases known.symm.trans known'
        exact ⟨_, _, draws, isBound, origin, draws', here⟩

/-- All steps of a pipe give values with the tags of what they draw on. -/
theorem unites_of_denoteSteps (standard : m.registry = .standard)
    (inner : ∀ step ∈ d.steps, ∀ id, step.body = .pipe id → m.TracedPipe function id) :
    ∀ {rest : List PipeStep} (before : List PipeStep) {outputs results : List Value},
      d.steps = before ++ rest →
      outputs.length = before.length → m.Traced function inputs d outputs →
      (m.denoteSteps function inputs outputs rest).run = some (.ok results) →
      results.length = d.steps.length ∧ m.Traced function inputs d results
  | [], before, outputs, results, split, same, earlier, run => by
    rw [denoteSteps_nil] at run
    cases run
    exact ⟨by rw [split, List.append_nil, same], earlier⟩
  | step :: rest, before, outputs, results, split, same, earlier, run => by
    rw [denoteSteps_cons] at run
    obtain ⟨value, ran, run⟩ := Meaning.of_run_bind_ok run
    have isStep : d.steps[outputs.length]? = some step := by
      rw [split, same, List.getElem?_append_right (Nat.le_refl _), Nat.sub_self]
      rfl
    have here := unites_of_denoteStep standard isStep
      (inner step (List.mem_of_getElem? isStep)) earlier ran
    refine unites_of_denoteSteps standard inner (before ++ [step]) (by simp [split])
      (by simp [same]) (fun index output isOutput => ?_) run
    rcases Nat.lt_trichotomy index outputs.length with old | rfl | beyond
    · rw [List.getElem?_append_left old] at isOutput
      exact earlier index output isOutput
    · rw [List.getElem?_concat_length] at isOutput
      cases isOutput
      exact here
    · rw [List.getElem?_eq_none (by simp; omega)] at isOutput
      cases isOutput

/-- The induction is on how deep definitions are nested. -/
theorem tracedPipe (standard : m.registry = .standard) : ∀ (levels : Nat) (id : PipeId),
    m.context.NestedWithin levels id → m.TracedPipe function id
  | 0, _, within, _, _, _ => within.elim
  | levels + 1, id, within, inputs, value, run => by
    obtain ⟨d, outputs, known, steps, last⟩ := denotePipe_ok run
    have inner : ∀ step ∈ d.steps, ∀ inner, step.body = .pipe inner → m.TracedPipe function inner :=
      fun step isStep inner body =>
        tracedPipe standard levels inner (within inner ⟨d, known, step, isStep, body⟩)
    have nothing : m.Traced function inputs d [] := fun _ _ here => nomatch here
    obtain ⟨length, all⟩ := unites_of_denoteSteps standard inner [] rfl rfl nothing steps
    rw [List.getLast?_eq_getElem?, length] at last
    exact ⟨d, known, all _ value last⟩

end pipes

/-! ### Nodes -/

section nodes

variable {p : Progress} {tree : Tree} {table : ValueTable}

/-- A row that no function writes is all that it draws on. -/
theorem slice_unproduced_iff {c : Context} {id : ValueId} (unproduced : c.producerOf? id = none)
    (content : Value) : c.Slice table (.value id) content ↔ c.values[id]? = some content := by
  refine ⟨?_, fun row => ⟨id, .row unproduced, row⟩⟩
  rintro ⟨origin, draws, row⟩
  cases draws with
  | row => exact row
  | producer produced => cases unproduced.symm.trans produced

/-- A combine or pipe gives a value with the tags of the rows on which it draws, if its arguments have
values with the tags of those on which they draw. -/
theorem unites_of_denoteBody (standard : m.registry = .standard) (orderly : m.context.Orderly)
    {entry : FunctionEntry} (known : m.context.functions[function]? = some entry)
    {values : List Value}
    (arguments : List.Forall₂ (fun arg v => v.Unites (m.context.Slice table (.value arg)))
      entry.args.values values)
    (run : (m.denoteBody function entry values).run = some (.ok value)) :
    value.Unites (m.context.Slice table (.function function)) := by
  cases entry with
  | cond definition returns => cases run
  | combine definition args returns =>
    have run : m.denoteCombine function definition .combineArity values = .ok value :=
      Option.some.inj run
    refine (Value.Unites.of_forall₂ arguments (unites_of_denoteCombine standard run)).congr
      fun content => ⟨?_, ?_⟩
    · rintro ⟨arg, isArg, origin, draws, row⟩
      exact ⟨origin, .combine known isArg draws, row⟩
    · rintro ⟨origin, draws, row⟩
      cases draws with
      | combine known' isArg draws =>
        cases known.symm.trans known'
        exact ⟨_, isArg, origin, draws, row⟩
      | pipe known' | branch known' => cases known.symm.trans known'
  | pipe definition args returns =>
    obtain ⟨d, found, unites⟩ :=
      tracedPipe standard _ definition (orderly.acyclic.nestedWithin definition) run
    have rows : ∀ {id}, m.context.DrawsWithin d d.result (.value id) → ∀ content,
        m.context.Slice table (.value id) content ↔ m.context.values[id]? = some content :=
      fun draws => slice_unproduced_iff
        (draws.unproduced orderly.exact orderly.apart found (fun _ same => nomatch same) _ rfl)
    refine (unites_of_bindings id (fun value => m.context.Slice table (.value value))
      (Result.forall₂_zip_of_map arguments) rows unites).congr fun content => ⟨?_, ?_⟩
    · rintro ⟨inside, value, draws, isBound, origin, draws', row⟩
      exact ⟨origin, .pipe known found draws isBound draws', row⟩
    · rintro ⟨origin, draws, row⟩
      cases draws with
      | pipe known' found' draws isBound draws' =>
        cases known.symm.trans known'
        cases found.symm.trans found'
        exact ⟨_, _, draws, isBound, origin, draws', row⟩
      | combine known' | branch known' => cases known.symm.trans known'

/-- A cond draws on what the branch draws on that it takes. -/
theorem slice_cond_iff {c : Context} {definition : CondId} {returns : ValueId} {d : CondDefinition}
    {branch : FunctionId} (known : c.functions[function]? = some (.cond definition returns))
    (found : c.conds[definition]? = some d) (selected : c.selected? table d = some branch)
    (content : Value) :
    c.Slice table (.function branch) content ↔ c.Slice table (.function function) content := by
  constructor
  · rintro ⟨origin, draws, row⟩
    exact ⟨origin, .branch known found selected draws, row⟩
  · rintro ⟨origin, draws, row⟩
    cases draws with
    | branch known' found' selected' draws =>
      cases known.symm.trans known'
      cases found.symm.trans found'
      cases selected.symm.trans selected'
      exact ⟨origin, draws, row⟩
    | combine known' | pipe known' => cases known.symm.trans known'

/-- The function of the tree, if it has one, has been completed. -/
def Completed (p : Progress) (tree : Tree) : Prop :=
  ∀ {function}, tree.node = .function function → function ∈ p.completed

/-- A node that has been completed and has a meaning has it in the row of its tree. -/
theorem row_of_denote (orderly : m.context.Orderly) (tracks : Tracks m p)
    (unfolds : tree.Unfolds m.context) (completed : Completed p tree)
    (run : (m.denote tree.node).run = some (.ok value)) : p.table[tree.output]? = some value := by
  have settled : Settled m.context p tree.node := by
    cases unfolds with
    | @value id unproduced =>
      rw [show (Tree.value id).node = .value id from rfl, denote] at run
      simp only [unproduced, Meaning.run_lift, Option.some.injEq] at run
      exact ⟨value, getElem?_of_readRow run⟩
    | function | cond => exact completed rfl
  obtain ⟨value', run', row⟩ := tracks.row orderly unfolds settled
  cases run.symm.trans run'
  exact row

/-- What has been completed has a value with the tags of its slice. -/
theorem unites_of_denote (standard : m.registry = .standard) (orderly : m.context.Orderly)
    (tracks : Tracks m p) (closed : Closed m.context p) (unfolds : tree.Unfolds m.context) :
    Completed p tree → ∀ {value : Value}, (m.denote tree.node).run = some (.ok value) →
      value.Unites (m.context.Slice p.table tree.node) := by
  induction unfolds with
  | @value id unproduced =>
    intro _ value run
    rw [show (Tree.value id).node = .value id from rfl, denote] at run
    simp only [unproduced, Meaning.run_lift, Option.some.injEq] at run
    have row := getElem?_of_readRow run
    refine (Value.Unites.self value).congr fun content => ?_
    rw [show (Tree.value id).node = .value id from rfl, slice_unproduced_iff unproduced, row,
      Option.some.injEq, eq_comm]
  | @function id entry children known isArgs nodes below ih =>
    intro completed value run
    rw [show (Tree.function id entry children).node = .function id from rfl,
      denote_function known isArgs] at run
    obtain ⟨values, meanings, run⟩ := Meaning.of_run_bind_ok run
    -- an argument is supplied by a child, and functions that supply arguments have been completed
    have each : ∀ arg ∈ entry.args.values, ∀ v, (m.denote (.value arg)).run = some (.ok v) →
        v.Unites (m.context.Slice p.table (.value arg)) := by
      intro arg isArg v means
      obtain ⟨child, isChild, supplies⟩ := Tree.exists_child_of_value nodes isArg
      have done : Completed p child := fun {function} isNode =>
        closed .refl (completed rfl) (.argument known isArg) (supplies.symm.trans isNode)
      rw [← denote_supplier, ← supplies] at means
      have unites := ih child isChild done means
      rw [supplies] at unites
      exact unites.congr fun content => Context.slice_supplier_iff content
    have arguments := (List.forall₂_and_left _ _).2 ⟨each, forall₂_of_mapM_denote meanings⟩
    exact unites_of_denoteBody standard orderly known
      (arguments.imp fun arg v here => here.1 v here.2) run
  | @cond id definition returns d condition thenBranch elseBranch known found conditionNode thenNode
      elseNode unfolds _ _ _ ihThen ihElse =>
    intro completed value run
    rw [show (Tree.cond id returns condition thenBranch elseBranch).node = .function id from rfl,
      denote_cond known found] at run
    obtain ⟨flag, means, run⟩ := Meaning.of_run_bind_ok run
    have done : Completed p condition := fun {function} isNode =>
      closed .refl (completed rfl) (.condition known found) (conditionNode.symm.trans isNode)
    rw [← denote_supplier, ← conditionNode] at means
    have row := row_of_denote orderly tracks unfolds done means
    obtain ⟨rowOf, -⟩ := Keeps.refl.row orderly.exact unfolds conditionNode fun {function} isNode =>
      done (conditionNode.trans isNode)
    -- the branch that is taken has been completed as well
    have taken : ∀ {choice : Bool}, flag.asBool? = some choice →
        m.context.selected? p.table d = some (if choice then d.thenBranch else d.elseBranch) ∧
        (if choice then d.thenBranch else d.elseBranch) ∈ p.completed := by
      intro choice choose
      have selected := Context.selected?_eq_some rowOf row choose
      exact ⟨selected, closed .refl (completed rfl) (.branch known found selected) rfl⟩
    unfold denoteChoice at run
    split at run
    · cases run
    · next choose =>
      obtain ⟨selected, done⟩ := taken choose
      refine (ihThen (fun {function} isNode => ?_) (thenNode ▸ run)).congr fun content => ?_
      · cases thenNode.symm.trans isNode
        exact done
      · rw [thenNode]
        exact slice_cond_iff known found selected content
    · next choose =>
      obtain ⟨selected, done⟩ := taken choose
      refine (ihElse (fun {function} isNode => ?_) (elseNode ▸ run)).congr fun content => ?_
      · cases elseNode.symm.trans isNode
        exact done
      · rw [elseNode]
        exact slice_cond_iff known found selected content

/-- The result of an evaluation has the tags of the slice of the root. -/
theorem unites_of_evaluate (standard : m.registry = .standard) (orderly : m.context.Orderly)
    {root : Node} {session : Nat} (fresh : m.context.FreshIn session) {evaluation : Evaluation}
    (run : m.evaluate root session = .ok evaluation) :
    evaluation.value.Unites (m.context.Slice evaluation.values root) := by
  obtain ⟨p, ends⟩ := exists_ends run
  obtain ⟨plan, planned, ran⟩ := ends.ran
  obtain ⟨batch, serves⟩ := exists_serves_of_plan orderly.exact orderly.distinct planned ran
  have built := Plan.build_spec m.context root
  rw [planned] at built
  obtain ⟨unfolds, isRoot⟩ := built
  have means : (m.denote plan.tree.node).run = some (.ok evaluation.value) := by
    have same := denote_eq_evaluate orderly fresh planned
    rw [run] at same
    rw [isRoot, denote_supplier]
    exact same
  have unites := unites_of_denote standard orderly (ends.tracks orderly fresh) serves.closed unfolds
    (fun {function} isNode => serves.settled (List.mem_singleton_self root) (isRoot.symm.trans isNode))
    means
  rw [ends.values]
  rw [isRoot] at unites
  exact unites.congr fun content => Context.slice_supplier_iff content

end nodes

end Evaluator

namespace Spec

/-- In a graph that was built, the tags of a result are those of the rows in the slice of the root: all
of them and no others. -/
theorem tags_are_those_of_slice {spec : Spec} {session scratch : Nat} {built : Built}
    (run : spec.build session = .ok built) (apart : scratch ≠ session) {root : Node}
    {evaluation : Evaluation}
    (ran : built.context.evaluate .standard root scratch = .ok evaluation) (tag : Tag) :
    tag ∈ evaluation.value.tags ↔ ∃ (id : ValueId) (literal : Value),
      built.context.Draws evaluation.values root id ∧ built.context.values[id]? = some literal ∧
        tag ∈ literal.tags := by
  have unites := Evaluator.unites_of_evaluate (m := ⟨built.context, .standard, false⟩) rfl
    (compiled_of_build run).orderly (freshIn_of_build run apart) ran
  rw [unites tag]
  constructor
  · rintro ⟨literal, ⟨id, draws, row⟩, tagged⟩
    exact ⟨id, literal, draws, row, tagged⟩
  · rintro ⟨id, literal, draws, row, tagged⟩
    exact ⟨literal, ⟨id, draws, row⟩, tagged⟩

/-! ### An instance

A pipe has a step on a secret, but its last step, which is a pipe itself, draws on a name and a title
only; a cond shows what the pipe gives, as long as it is open. -/

namespace Badge

def entries : List (String × SpecEntry) :=
  [ ("show", .function (.cond "open" "badge" "reveal"))
  , ("badge", .function (.pipe [("who", ⟨.value "name", none⟩), ("pin", ⟨.value "pin", none⟩)]
      [ .combine ⟨"string::concat", [("a", ⟨.input "pin", none⟩), ("b", ⟨.input "who", none⟩)]⟩
      , .pipe [("x", ⟨.input "who", none⟩)]
          [.combine ⟨"string::concat", [("a", ⟨.name "title", none⟩), ("b", ⟨.input "x", none⟩)]⟩] ]))
  , ("reveal", .function (.combine ⟨"string::concat",
      [("a", ⟨.value "name", none⟩), ("b", ⟨.value "pin", none⟩)]⟩))
  , ("name", .literal ((Value.string "Ada").withTag "given"))
  , ("title", .literal ((Value.string "Dr. ").withTag "staff"))
  , ("pin", .literal ((Value.string "1234").withTag "secret"))
  , ("open", .literal ((Value.boolean true).withTag "config")) ]

end Badge

def badge : Spec := ⟨Badge.entries, by decide⟩

/-- The slice of what is shown has the name and the title in it; it has neither the secret nor the
condition. -/
theorem tags_are_those_of_slice_badge : ∃ built root evaluation, (badge.build 7 = .ok built ∧
      (8 : Nat) ≠ 7 ∧ built.context.evaluate .standard root 8 = .ok evaluation) ∧
    built.node? "show" = some root ∧ evaluation.value.asString? = some "Dr. Ada" ∧
    (∀ tag ∈ ["given", "staff"], ∃ (id : ValueId) (literal : Value),
      built.context.Draws evaluation.values root id ∧ built.context.values[id]? = some literal ∧
        tag ∈ literal.tags) ∧
    ∀ tag ∈ ["secret", "config"], ¬ ∃ (id : ValueId) (literal : Value),
      built.context.Draws evaluation.values root id ∧ built.context.values[id]? = some literal ∧
        tag ∈ literal.tags := by
  have holds : ((badge.build 7).toOption.any fun built => (built.node? "show").any fun root =>
      (built.context.evaluate .standard root 8).toOption.any fun evaluation =>
        decide (evaluation.value.asString? = some "Dr. Ada" ∧
          (∀ tag ∈ ["given", "staff"], tag ∈ evaluation.value.tags) ∧
          ∀ tag ∈ ["secret", "config"], tag ∉ evaluation.value.tags)) = true := by
    decide +kernel
  obtain ⟨built, builds, holds⟩ := (Option.any_eq_true _ _).1 holds
  obtain ⟨root, isRoot, holds⟩ := (Option.any_eq_true _ _).1 holds
  obtain ⟨evaluation, ran, holds⟩ := (Option.any_eq_true _ _).1 holds
  obtain ⟨gives, tagged, untagged⟩ := of_decide_eq_true holds
  have builds := Result.eq_ok_of_toOption builds
  have ran := Result.eq_ok_of_toOption ran
  have apart : (8 : Nat) ≠ 7 := by decide
  refine ⟨built, root, evaluation, ⟨builds, apart, ran⟩, isRoot, gives, fun tag isTag => ?_,
    fun tag isTag => ?_⟩
  · exact (tags_are_those_of_slice builds apart ran tag).1 (tagged tag isTag)
  · exact fun drawn => untagged tag isTag ((tags_are_those_of_slice builds apart ran tag).2 drawn)

end Spec

end TagFlow
