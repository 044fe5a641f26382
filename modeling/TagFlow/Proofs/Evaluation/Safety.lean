import TagFlow.Proofs.Evaluation.Panics
import TagFlow.Proofs.Operation.Results
import TagFlow.Proofs.Validation.Checked

/-!
# A checked graph never gets stuck

An evaluation can stop because of the graph (something is missing, or does not fit) or because of an
operation. Where validation finds no error, and the steps of pipes have the form that building gives
them, the graph is never to blame, cycles apart: `evaluate_not_stuck`.

The two invariants are that rows never disappear from the table that is passed along, and that each
completed function has its row (`Stocked`).
-/

namespace TagFlow

namespace Registry

/-- When the definition was applied to these values, an implementation returned the error itself: one of
the adapters, or the operation for what the adapters gave. -/
inductive Returns (registry : Registry) (d : CombineDefinition) (left right : Value) (cause : OpError) :
    Prop
  | first {adapter : Adapter} : registry.adapters[d.first.adapter]? = some adapter →
      adapter left = .error (.error cause) → Returns registry d left right cause
  | second {adapter : Adapter} : registry.adapters[d.second.adapter]? = some adapter →
      adapter right = .error (.error cause) → Returns registry d left right cause
  | operation {op : Binary} {first second : Value} : registry.binaries[d.operation]? = some op →
      registry.applyAdapter d.first.adapter left = .ok first →
      registry.applyAdapter d.second.adapter right = .ok second →
      op first second = .error (.error cause) → Returns registry d left right cause

/-- No implementation panics. -/
structure NeverPanics (registry : Registry) : Prop where
  binary : ∀ {name : String} {op : Binary}, registry.binaries[name]? = some op →
    ∀ left right message, op left right ≠ .error (.panic message)
  adapter : ∀ {name : String} {adapter : Adapter}, registry.adapters[name]? = some adapter →
    ∀ value message, adapter value ≠ .error (.panic message)

theorem standard_neverPanics : standard.NeverPanics where
  binary found left right message := standard_not_panic_binary found left right message
  adapter found value message := standard_not_panic_adapter found value message

variable {registry : Registry}

theorem NeverPanics.applyAdapter (quiet : registry.NeverPanics) (name : String) (value : Value)
    (message : String) : registry.applyAdapter name value ≠ .error (.panic message) := by
  unfold Registry.applyAdapter
  split
  · next found => exact quiet.adapter found value message
  · exact fun same => nomatch same

theorem NeverPanics.applyBinary (quiet : registry.NeverPanics) (name : String) (left right : Value)
    (message : String) : registry.applyBinary name left right ≠ .error (.panic message) := by
  unfold Registry.applyBinary
  split
  · next found => exact quiet.binary found left right message
  · exact fun same => nomatch same

/-- Where nothing panics, no definition does. -/
theorem NeverPanics.applyDefinition (quiet : registry.NeverPanics) (d : CombineDefinition)
    (left right : Value) (message : String) :
    Evaluator.applyDefinition registry d left right ≠ .error (.panic message) := by
  intro panics
  rcases Result.bind_eq_error.1 panics with here | ⟨first, -, panics⟩
  · exact quiet.applyAdapter _ _ _ here
  rcases Result.bind_eq_error.1 panics with here | ⟨second, -, here⟩
  · exact quiet.applyAdapter _ _ _ here
  · exact quiet.applyBinary _ _ _ _ here

/-- An error of a definition whose names are known is one that an implementation returned. -/
theorem returns_of_applyDefinition {d : CombineDefinition} {left right : Value} {cause : OpError}
    (operation : registry.hasBinary d.operation = true)
    (adapters : registry.hasAdapter d.first.adapter = true ∧
      registry.hasAdapter d.second.adapter = true)
    (failed : Evaluator.applyDefinition registry d left right = .error (.error cause)) :
    registry.Returns d left right cause := by
  obtain ⟨op, found⟩ := Table.contains_iff.1 operation
  obtain ⟨first, found₁⟩ := Table.contains_iff.1 adapters.1
  obtain ⟨second, found₂⟩ := Table.contains_iff.1 adapters.2
  rcases Result.bind_eq_error.1 failed with here | ⟨adapted, ran, failed⟩
  · unfold applyAdapter at here
    rw [found₁] at here
    exact .first found₁ here
  rcases Result.bind_eq_error.1 failed with here | ⟨adapted', ran', here⟩
  · unfold applyAdapter at here
    rw [found₂] at here
    exact .second found₂ here
  · unfold applyBinary at here
    rw [found] at here
    exact .operation found ran ran' here

end Registry

/-- The error names an operation or adapter that is not known. -/
def OpError.IsUnknown (cause : OpError) : Prop :=
  (∃ name, cause = .unknownOperation name) ∨ ∃ name, cause = .unknownAdapter name

namespace Context

/-- Steps as building writes them. -/
structure StepsWellFormed (c : Context) : Prop where
  /-- A combine step has two arguments. -/
  pair : ∀ {id : PipeId} {d : PipeDefinition}, c.pipes[id]? = some d → ∀ step ∈ d.steps,
    ∀ combine, step.body = .combine combine → step.args.length = 2
  /-- A step that runs a pipe binds just the inputs of that pipe. -/
  names : ∀ {id : PipeId} {d : PipeDefinition}, c.pipes[id]? = some d → ∀ step ∈ d.steps,
    ∀ (inner : PipeId) (nested : PipeDefinition), step.body = .pipe inner →
      c.pipes[inner]? = some nested →
      ∀ name, name ∈ Bindings.names step.args ↔ name ∈ nested.inputs.map (·.name)
  /-- An absolute value is a row. -/
  absolute : ∀ {id : PipeId} {d : PipeDefinition}, c.pipes[id]? = some d → ∀ step ∈ d.steps,
    ∀ name value, (name, Source.value value) ∈ step.args → ∃ content, c.values[value]? = some content

/-- The step has the arguments that what it runs takes. -/
structure StepFits (c : Context) (step : PipeStep) : Prop where
  /-- A combine step has two arguments. -/
  pair : ∀ combine, step.body = .combine combine → step.args.length = 2
  /-- A step that runs a pipe binds just the inputs of that pipe. -/
  names : ∀ (inner : PipeId) (nested : PipeDefinition), step.body = .pipe inner →
    c.pipes[inner]? = some nested →
    ∀ name, name ∈ Bindings.names step.args ↔ name ∈ nested.inputs.map (·.name)

theorem StepsWellFormed.fits {c : Context} (steps : c.StepsWellFormed) {id : PipeId}
    {d : PipeDefinition} (known : c.pipes[id]? = some d) {step : PipeStep} (isStep : step ∈ d.steps) :
    c.StepFits step :=
  ⟨steps.pair known step isStep, steps.names known step isStep⟩

/-- A node that an evaluation can start from: a function of the table, or a value that resolves. -/
def Startable (c : Context) : Node → Prop
  | .value value => c.resolves value = true
  | .function function => ∃ entry, c.functions[function]? = some entry

end Context

namespace Evaluator

variable {m : Evaluator} {α β : Type}

/-! ### Results for which the graph is not to blame -/

/-- An operation failed, or the flag of a cond was no boolean. -/
def Excused (halt : Halt) : Prop :=
  ∃ function cause, halt = .failed (.functionExecution function cause)

/-- A result as `ok` says, or a failure as `bad` says. -/
def Fine (bad : Halt → Prop) (ok : α → Prop) (result : Except Halt α) : Prop :=
  match result with
  | .ok a => ok a
  | .error halt => bad halt

variable {bad : Halt → Prop} {ok : α → Prop}

theorem Fine.bind {result : Except Halt α} {next : α → Except Halt β} {after : β → Prop}
    (first : Fine bad ok result) (rest : ∀ a, ok a → Fine bad after (next a)) :
    Fine bad after (result >>= next) := by
  cases result with
  | ok a => exact rest a first
  | error halt => exact first

theorem Fine.mono {result : Except Halt α} {weaker : α → Prop} (h : Fine bad ok result)
    (implies : ∀ a, ok a → weaker a) : Fine bad weaker result := by
  cases result with
  | ok a => exact implies a h
  | error halt => exact h

/-- A combine definition gives a value or fails excusably. -/
theorem combine_fine (quiet : m.registry.NeverPanics) (function : FunctionId)
    (d : CombineDefinition) (left right : Value) :
    Fine Excused (fun _ => True) (m.combine function d left right) := by
  unfold combine
  cases applied : applyDefinition m.registry d left right with
  | ok value => trivial
  | error fault =>
    cases fault with
    | error cause => exact ⟨function, cause, rfl⟩
    | panic message => exact absurd applied (quiet.applyDefinition d left right message)

/-! ### Pipes -/

/-- What a pipe definition is given: all that it declares and nothing else. -/
structure Supplied (d : PipeDefinition) (inputs : List (String × Value)) : Prop where
  declared : ∀ binding ∈ inputs, (d.input? binding.1).isSome
  bound : ∀ input ∈ d.inputs, ∃ value, inputs.lookup input.name = some value

/-- Whatever fault is found in how a pipe is run for the function, it is a failure as `bad` says. -/
def Tolerates (bad : Halt → Prop) (function : FunctionId) : Prop :=
  ∀ fault, bad (.failed (.invalidNode (.function function) fault))

/-- Binding slots keeps what was bound before. -/
theorem foldlM_bindSlot_fine (function : FunctionId) (inputs : List (String × Value)) :
    ∀ (rest : List PipeInput) (scope : ValueTable),
      (∀ input ∈ rest, ∃ value, inputs.lookup input.name = some value) ∨ Tolerates bad function →
      Fine bad (fun bound => ∀ id, (∃ value, scope[id]? = some value) ∨ id ∈ rest.map (·.slot) →
          ∃ value, bound[id]? = some value)
        (rest.foldlM (bindSlot function inputs) scope)
  | [], scope, _ => by simp [Fine, pure, Except.pure]
  | input :: rest, scope, known => by
    rw [List.foldlM_cons]
    unfold bindSlot
    cases found : inputs.lookup input.name with
    | none =>
      rcases known with known | tolerates
      · obtain ⟨value, bound⟩ := known input List.mem_cons_self
        cases found.symm.trans bound
      · exact tolerates _
    | some value =>
      refine (foldlM_bindSlot_fine function inputs rest (scope.insert input.slot value)
        (known.imp_left fun known other m => known other (List.mem_cons_of_mem _ m))).mono ?_
      intro bound holds id here
      apply holds
      by_cases same : input.slot = id
      · subst same
        exact .inl ⟨value, Table.getElem?_insert_self⟩
      · rw [Table.getElem?_insert_of_ne same]
        refine here.imp_right fun here => ?_
        rw [List.map_cons, List.mem_cons] at here
        exact here.resolve_left (Ne.symm same)

theorem inputScope_fine (function : FunctionId) {d : PipeDefinition} {inputs : List (String × Value)}
    (supplied : Supplied d inputs ∨ Tolerates bad function) :
    Fine bad (fun scope => ∀ input ∈ d.inputs, ∃ value, scope[input.slot]? = some value)
      (inputScope function d inputs) := by
  unfold inputScope
  cases extra : inputs.find? fun binding => (d.input? binding.1).isNone with
  | some binding =>
    rcases supplied with supplied | tolerates
    · have declared := supplied.declared binding (List.mem_of_find?_eq_some extra)
      have undeclared := List.find?_some extra
      rw [Option.isNone_iff_eq_none.1 undeclared] at declared
      cases declared
    · exact tolerates _
  | none =>
    refine (foldlM_bindSlot_fine function inputs d.inputs ∅ (supplied.imp_left (·.bound))).mono ?_
    exact fun scope holds input isInput => holds _ (.inr (List.mem_map_of_mem isInput))

/-- The later table has a row wherever the earlier one has one. -/
def KeepsRows (earlier later : ValueTable) : Prop :=
  ∀ id : ValueId, (∃ value, earlier[id]? = some value) → ∃ value, later[id]? = some value

theorem KeepsRows.trans {first second third : ValueTable} (before : KeepsRows first second)
    (after : KeepsRows second third) : KeepsRows first third :=
  fun id row => after id (before id row)

theorem KeepsRows.insert (table : ValueTable) (id : ValueId) (value : Value) :
    KeepsRows table (table.insert id value) := by
  intro other row
  by_cases same : id = other
  · exact ⟨value, same ▸ Table.getElem?_insert_self⟩
  · rwa [Table.getElem?_insert_of_ne same]

/-- The scope of a running pipe has a row for each input, and for the output of each step so far. -/
structure Furnished (d : PipeDefinition) (s : PipeProgress) : Prop where
  slots : ∀ input ∈ d.inputs, ∃ value, s.scope[input.slot]? = some value
  outputs : ∀ id ∈ s.outputs, ∃ value, s.scope[id]? = some value

namespace Furnished

variable {d : PipeDefinition} {s : PipeProgress}

theorem start {scope : ValueTable}
    (slots : ∀ input ∈ d.inputs, ∃ value, scope[input.slot]? = some value) :
    Furnished d (.start scope) := ⟨slots, fun _ isOutput => nomatch isOutput⟩

theorem advance (furnished : Furnished d s) (function : FunctionId) (scratch : Scratch) (value : Value)
    (inside : Nat) : Furnished d (Evaluator.advance function scratch s value inside) where
  slots input isInput := KeepsRows.insert _ _ _ _ (furnished.slots input isInput)
  outputs id isOutput := by
    rcases List.mem_append.1 isOutput with before | here
    · exact KeepsRows.insert _ _ _ _ (furnished.outputs id before)
    · rw [List.mem_singleton.1 here]
      exact ⟨value, Table.getElem?_insert_self⟩

theorem output? (furnished : Furnished d s) {index : Nat} (earlier : index < s.outputs.length) :
    ∃ value, s.output? index = some value := by
  obtain ⟨value, row⟩ := furnished.outputs _ (List.getElem_mem earlier)
  refine ⟨value, ?_⟩
  unfold PipeProgress.output?
  rw [List.getElem?_eq_getElem earlier]
  exact row

theorem last? (furnished : Furnished d s) (ran : s.outputs ≠ []) : ∃ value, s.last? = some value := by
  rw [PipeProgress.last?_eq_output?]
  exact furnished.output? (Nat.sub_one_lt (List.length_eq_zero_iff.not.2 ran))

end Furnished

/-- A source that resolves can be read, but for an absolute value without a row. -/
theorem readSource_fine (function : FunctionId) {d : PipeDefinition} {outer : ValueTable}
    {s : PipeProgress} {source : Source} (furnished : Furnished d s)
    (resolves : m.context.sourceResolves d s.outputs.length source = true)
    (absolute : ∀ id, source = .value id →
      (∃ value, outer[id]? = some value) ∨ bad (.failed (.missingValue id))) :
    Fine bad (fun _ => True) (readSource function d outer s source) := by
  cases source with
  | input name =>
    obtain ⟨input, declared⟩ := Option.isSome_iff_exists.1 resolves
    obtain ⟨value, row⟩ := furnished.slots input (List.mem_of_find?_eq_some declared)
    simp only [readSource, declared, Option.bind_some, row]
    trivial
  | step index =>
    obtain ⟨value, here⟩ := furnished.output? (of_decide_eq_true resolves)
    simp only [readSource, here]
    trivial
  | value id =>
    unfold readSource
    dsimp only
    split
    · trivial
    · unfold readRow
      cases row : outer[id]? with
      | some value => trivial
      | none =>
        rcases absolute id rfl with ⟨value, isRow⟩ | missing
        · cases row.symm.trans isRow
        · exact missing

/-- The arguments of a step are read under the names that the step gives them. -/
theorem readArguments_fine (function : FunctionId) {d : PipeDefinition} {outer : ValueTable}
    {s : PipeProgress} (furnished : Furnished d s) (body : StepBody) (output : ValueId) :
    ∀ args : List (String × Source),
      (∀ name source, (name, source) ∈ args →
        m.context.sourceResolves d s.outputs.length source = true) →
      (∀ name id, (name, Source.value id) ∈ args →
        (∃ value, outer[id]? = some value) ∨ bad (.failed (.missingValue id))) →
      Fine bad (fun values => Bindings.names values = Bindings.names args)
        (readArguments function d outer s ⟨body, args, output⟩)
  | [], _, _ => rfl
  | (name, source) :: args, resolves, absolute => by
    have head := readSource_fine (m := m) function furnished (resolves name source List.mem_cons_self)
      fun id same => absolute name id (same ▸ List.mem_cons_self)
    have tail := readArguments_fine function furnished body output args
      (fun name source h => resolves name source (List.mem_cons_of_mem _ h))
      (fun name id h => absolute name id (List.mem_cons_of_mem _ h))
    unfold readArguments at tail ⊢
    rw [List.mapM_cons, bind_assoc]
    refine head.bind fun value _ => tail.bind fun values names => ?_
    show Bindings.names ((name, value) :: values) = Bindings.names ((name, source) :: args)
    simp only [Bindings.names, List.map_cons] at names ⊢
    rw [names]

/-- Inputs whose names are just those that a pipe declares supply it. -/
theorem Supplied.of_names {d : PipeDefinition} {inputs : List (String × Value)}
    (same : ∀ name, name ∈ Bindings.names inputs ↔ name ∈ d.inputs.map (·.name)) :
    Supplied d inputs where
  declared binding isInput := by
    obtain ⟨input, isDeclared, named⟩ :=
      List.mem_map.1 ((same binding.1).1 (List.mem_map_of_mem isInput))
    exact List.find?_isSome.2 ⟨input, isDeclared, beq_iff_eq.2 named⟩
  bound input isDeclared := by
    obtain ⟨binding, isInput, named⟩ :=
      List.mem_map.1 ((same input.name).2 (List.mem_map_of_mem isDeclared))
    cases found : inputs.lookup input.name with
    | some value => exact ⟨value, rfl⟩
    | none =>
      have different := List.lookup_eq_none_iff.1 found binding isInput
      rw [bne_iff_ne] at different
      exact absurd named.symm different

/-- What a pipe definition and those that it runs need in order to run for a function, with a table
around them: the graph was checked, and where an operation fails, a step has other arguments than what
it runs takes or an absolute value has no row, it is a failure as `bad` says. -/
structure Runnable (m : Evaluator) (function : FunctionId) (outer : ValueTable) (root : PipeId)
    (bad : Halt → Prop) : Prop where
  checked : m.context.Checked m.registry
  combine : ∀ {id : CombineId} {d : CombineDefinition}, m.context.combines[id]? = some d →
    ∀ left right, Fine bad (fun _ => True) (m.combine function d left right)
  fits : ∀ {id : PipeId} {d : PipeDefinition}, m.context.Encloses root id →
    m.context.pipes[id]? = some d → ∀ step ∈ d.steps,
      m.context.StepFits step ∨ Tolerates bad function
  absolute : ∀ {id : PipeId} {d : PipeDefinition}, m.context.Encloses root id →
    m.context.pipes[id]? = some d → ∀ step ∈ d.steps, ∀ name value,
      (name, Source.value value) ∈ step.args →
      (∃ content, outer[value]? = some content) ∨ bad (.failed (.missingValue value))

section running

variable {function : FunctionId} {outer : ValueTable} {root id : PipeId} {d : PipeDefinition}
  {scratch : Scratch} {nested : Nested}

/-- One step of a pipe: the step after those whose outputs are known. -/
theorem runStep_fine (runnable : Runnable m function outer root bad)
    (enclosed : m.context.Encloses root id) (known : m.context.pipes[id]? = some d)
    (runs : ∀ (scratch : Scratch) (inner : PipeId) (e : PipeDefinition)
      (inputs : List (String × Value)), m.context.Nests id inner → m.context.pipes[inner]? = some e →
      Supplied e inputs ∨ Tolerates bad function →
      Fine bad (fun _ => True) (nested scratch inner inputs))
    {s : PipeProgress} (furnished : Furnished d s) {step : PipeStep}
    (isStep : d.steps[s.outputs.length]? = some step) :
    Fine bad (fun _ => True) (m.runStep function nested d outer scratch s step) := by
  have member := List.mem_of_getElem? isStep
  have read := readArguments_fine function furnished step.body step.output
    step.args (fun name source => runnable.checked.stepArguments known isStep)
    (fun name value => runnable.absolute enclosed known step member name value)
  have definition := runnable.checked.stepDefinition known member
  have fits := runnable.fits enclosed known step member
  unfold runStep
  apply Fine.bind (show Fine bad _ (readArguments function d outer s step) from read)
  intro args names
  cases body : step.body with
  | combine combine =>
    rw [body] at definition
    obtain ⟨cd, found⟩ := Table.contains_iff.1 definition
    have length : args.length = step.args.length := by
      have same := congrArg List.length names
      simpa only [Bindings.names, List.length_map] using same
    dsimp only
    rw [found]
    dsimp only
    split
    · next left right => exact (runnable.combine found left.2 right.2).bind fun _ _ => trivial
    · next other =>
      rcases fits with fits | tolerates
      · obtain ⟨left, right, rfl⟩ := List.length_eq_two.1 (length.trans (fits.pair combine body))
        exact absurd rfl (other left right)
      · exact tolerates _
  | pipe inner =>
    rw [body] at definition
    obtain ⟨e, found⟩ := Table.contains_iff.1 definition
    refine runs _ inner e args ⟨d, known, step, member, body⟩ found
      (fits.imp_left fun fits => .of_names fun name => ?_)
    rw [names]
    exact fits.names inner e body found name

/-- The remaining steps of a pipe give as many outputs as there are steps. -/
theorem runSteps_fine (runnable : Runnable m function outer root bad)
    (enclosed : m.context.Encloses root id) (known : m.context.pipes[id]? = some d)
    (runs : ∀ (scratch : Scratch) (inner : PipeId) (e : PipeDefinition)
      (inputs : List (String × Value)), m.context.Nests id inner → m.context.pipes[inner]? = some e →
      Supplied e inputs ∨ Tolerates bad function →
      Fine bad (fun _ => True) (nested scratch inner inputs)) :
    ∀ (rest : List PipeStep) (s : PipeProgress), Furnished d s →
      d.steps.drop s.outputs.length = rest → s.outputs.length + rest.length = d.steps.length →
      Fine bad (fun s' => Furnished d s' ∧ s'.outputs.length = d.steps.length)
        (m.runSteps function nested d outer scratch s rest)
  | [], s, furnished, _, length => ⟨furnished, length⟩
  | step :: rest, s, furnished, remaining, length => by
    have isStep : d.steps[s.outputs.length]? = some step := by
      rw [← List.head?_drop, remaining]
      rfl
    have one : ∀ value inside,
        (advance function scratch s value inside).outputs.length = s.outputs.length + 1 :=
      fun value inside => List.length_append ..
    rw [runSteps]
    apply (runStep_fine runnable enclosed known runs furnished isStep).bind
    rintro ⟨value, inside⟩ -
    refine runSteps_fine runnable enclosed known runs rest _
      (furnished.advance function scratch value inside) ?_ ?_
    · rw [one, ← List.drop_drop, remaining]
      rfl
    · rw [one]
      simp only [List.length_cons] at length
      omega

/-- A pipe that is given what it declares runs to a value, or fails as `bad` says. If `bad` tolerates
faults, it may be given anything. -/
theorem runPipe_fine (runnable : Runnable m function outer root bad) :
    ∀ (levels : Nat) (scratch : Scratch) (id : PipeId) (d : PipeDefinition)
      (inputs : List (String × Value)), m.context.Encloses root id → m.context.NestedWithin levels id →
      m.context.pipes[id]? = some d → Supplied d inputs ∨ Tolerates bad function →
      Fine bad (fun _ => True) (m.runPipe function outer levels scratch id inputs)
  | levels + 1, scratch, id, d, inputs, enclosed, nested, known, supplied => by
    have nonempty := runnable.checked.steps known
    rw [runPipe, known]
    dsimp only
    rw [if_neg (by simpa using nonempty)]
    apply (inputScope_fine function supplied).bind
    intro scope slots
    have steps : Fine bad _ (m.runSteps function (m.runPipe function outer levels) d outer scratch
        (.start scope) d.steps) := runSteps_fine runnable enclosed known
      (fun scratch inner e inputs nests found supplied => runPipe_fine runnable levels scratch inner e
        inputs (enclosed.tail nests) (nested inner nests) found supplied)
      d.steps (.start scope) (.start slots) rfl (Nat.zero_add _)
    apply steps.bind
    rintro s ⟨furnished, length⟩
    -- each step gives an output, and a checked pipe has a step
    have ran : s.outputs ≠ [] := by
      intro none
      rw [none] at length
      exact nonempty (List.length_eq_zero_iff.1 length.symm)
    obtain ⟨value, last⟩ := furnished.last? ran
    rw [last]
    trivial

end running

/-! ### Nodes -/

/-- The table has the rows of the graph, and one for each function that was run. -/
structure Stocked (c : Context) (p : Progress) : Prop where
  keeps : KeepsRows c.values p.table
  completed : ∀ {function : FunctionId} {entry : FunctionEntry}, function ∈ p.completed →
    c.functions[function]? = some entry → ∃ value, p.table[entry.returns]? = some value

/-- What running a node does to the progress: no row is lost, and the row of the node is there. -/
structure Supplies (c : Context) (p : Progress) (output : ValueId) (p' : Progress) : Prop where
  stocked : Stocked c p'
  keeps : KeepsRows p.table p'.table
  row : ∃ value, p'.table[output]? = some value

variable {p p' : Progress} {tree : Tree}

theorem Stocked.start (c : Context) (session : Nat) : Stocked c (.start session c.values) where
  keeps _ row := row
  completed h := absurd h Std.ExtTreeSet.not_mem_empty

/-- Completing a function adds its row. -/
theorem Stocked.complete (stocked : Stocked m.context p) {function : FunctionId}
    {entry : FunctionEntry} (known : m.context.functions[function]? = some entry) (value : Value) :
    Supplies m.context p entry.returns (p.complete function entry.returns value) where
  stocked :=
    { keeps := stocked.keeps.trans (.insert _ _ _)
      completed := fun {other otherEntry} done otherKnown => by
        rcases mem_completed_complete.1 done with rfl | done
        · rw [known] at otherKnown
          cases otherKnown
          exact ⟨value, Table.getElem?_insert_self⟩
        · exact KeepsRows.insert _ _ _ _ (stocked.completed done otherKnown) }
  keeps := .insert _ _ _
  row := ⟨value, Table.getElem?_insert_self⟩

theorem Stocked.countSteps (stocked : Stocked m.context p) (steps : Nat) :
    Stocked m.context (p.countSteps steps) := ⟨stocked.keeps, stocked.completed⟩

/-- Running trees one after the other leaves a row for each. -/
theorem runTrees_fine : ∀ (trees : List Tree) (p : Progress), Stocked m.context p →
    (∀ tree ∈ trees, ∀ p, Stocked m.context p →
      Fine bad (Supplies m.context p tree.output) (m.runTree tree p)) →
    Fine bad
      (fun p' => Stocked m.context p' ∧ KeepsRows p.table p'.table ∧
        ∀ tree ∈ trees, ∃ value, p'.table[tree.output]? = some value) (m.runTrees trees p)
  | [], p, stocked, _ => ⟨stocked, fun _ row => row, by simp⟩
  | tree :: rest, p, stocked, runs => by
    rw [runTrees]
    apply (runs tree List.mem_cons_self p stocked).bind
    intro p₁ here
    refine (runTrees_fine rest p₁ here.stocked
      fun tree m => runs tree (List.mem_cons_of_mem _ m)).mono ?_
    rintro p₂ ⟨stocked, keeps, rows⟩
    refine ⟨stocked, here.keeps.trans keeps, fun other m => ?_⟩
    rcases List.mem_cons.1 m with rfl | m
    · exact keeps _ here.row
    · exact rows other m

/-- Rows that are all there can be read. -/
theorem readRows_ok {table : ValueTable} : ∀ ids : List ValueId,
    (∀ id ∈ ids, ∃ value, table[id]? = some value) →
    ∃ values, readRows table ids = .ok values ∧ values.length = ids.length
  | [], _ => ⟨[], rfl, rfl⟩
  | id :: ids, rows => by
    obtain ⟨value, row⟩ := rows id List.mem_cons_self
    obtain ⟨values, read, length⟩ := readRows_ok ids fun id m => rows id (List.mem_cons_of_mem _ m)
    have head : readRow table id = .ok value := by simp only [readRow, row]
    refine ⟨value :: values, ?_, by simp [length]⟩
    unfold readRows at read ⊢
    rw [List.mapM_cons, head, read]
    rfl

/-- The arguments of a checked pipe function supply the pipe. -/
theorem supplied_of_checked (checked : m.context.Checked m.registry) {id : FunctionId}
    {definition : PipeId} {args : ArgMap} {returns : ValueId} {d : PipeDefinition}
    (known : m.context.functions[id]? = some (.pipe definition args returns))
    (found : m.context.pipes[definition]? = some d) {values : List Value}
    (length : values.length = args.values.length) : Supplied d (args.names.zip values) := by
  obtain ⟨bound, declared⟩ := checked.pipeArguments known found
  have names : Bindings.names (args.names.zip values) = args.names := by
    apply List.map_fst_zip
    rw [length]
    simp [ArgMap.names, Bindings.names, ArgMap.values]
  refine .of_names fun name => ?_
  rw [names]
  constructor
  · intro isName
    obtain ⟨input, isInput⟩ := Option.isSome_iff_exists.1 (declared name isName)
    have named := List.find?_some isInput
    exact List.mem_map.2 ⟨input, List.mem_of_find?_eq_some isInput, beq_iff_eq.1 named⟩
  · intro isName
    obtain ⟨input, isInput, rfl⟩ := List.mem_map.1 isName
    obtain ⟨value, bound⟩ := Option.isSome_iff_exists.1 (bound input isInput)
    exact List.mem_map.2 ⟨(input.name, value), Bindings.mem_of_lookup bound, rfl⟩

/-- Running a combine or pipe whose arguments have their rows. -/
theorem runFunction_fine (quiet : m.registry.NeverPanics) (checked : m.context.Checked m.registry)
    (steps : m.context.StepsWellFormed) (acyclic : m.context.NestingAcyclic) {id : FunctionId}
    {entry : FunctionEntry} (known : m.context.functions[id]? = some entry)
    (isArgs : entry.kind ≠ .cond) (stocked : Stocked m.context p)
    (rows : ∀ value ∈ entry.args.values, ∃ content, p.table[value]? = some content) :
    Fine Excused (Supplies m.context p entry.returns) (m.runFunction id entry p) := by
  obtain ⟨values, read, length⟩ := readRows_ok entry.args.values rows
  have defined := checked.definition known
  cases entry with
  | cond => exact absurd rfl isArgs
  | combine definition args returns =>
    have read : readRows p.table args.values = .ok values := read
    obtain ⟨d, found⟩ := Table.contains_iff.1 defined
    have two : values.length = 2 := by
      rw [length]
      exact (List.length_map ..).trans (checked.combineArguments known)
    unfold runFunction
    dsimp only
    rw [found, read]
    match values, two with
    | [left, right], _ =>
      exact (combine_fine quiet id d left right).bind fun value _ => stocked.complete known value
  | pipe definition args returns =>
    have read : readRows p.table args.values = .ok values := read
    obtain ⟨d, found⟩ := Table.contains_iff.1 defined
    have runnable : Runnable m id p.table definition Excused :=
      { checked := checked
        combine := fun _ left right => combine_fine quiet id _ left right
        fits := fun _ known _ isStep => .inl (steps.fits known isStep)
        absolute := fun _ known step isStep name value isArg =>
          .inl (stocked.keeps value (steps.absolute known step isStep name value isArg)) }
    have runs := runPipe_fine runnable (pipeLevels m.context) p.scratch definition d
      (args.names.zip values) .refl (acyclic.nestedWithin definition) found
      (.inl (supplied_of_checked checked known found length))
    unfold runFunction
    dsimp only
    rw [read]
    apply runs.bind
    rintro ⟨value, count⟩ -
    have done := (stocked.countSteps count).complete known value
    exact ⟨done.stocked, done.keeps, done.row⟩

end Evaluator

namespace Context

/-! ### Plans -/

variable {c : Context} {registry : Registry}

/-- What a node depends on can be evaluated if the node can. -/
theorem Startable.dependsOn (exact : c.IndexExact) (checked : c.Checked registry) {node next : Node}
    (startable : c.Startable node) (edge : c.DependsOn node next) : c.Startable next := by
  cases edge with
  | producer produced =>
    obtain ⟨entry, known, -⟩ := exact.writes produced
    exact ⟨entry, known⟩
  | argument known isArg => exact checked.arguments known isArg
  | @condition _ _ _ d known found =>
    have resolves := checked.condition found
    cases condition : d.condition with
    | value id =>
      rw [condition] at resolves
      exact resolves
    | function id =>
      rw [condition] at resolves
      exact Table.contains_iff.1 resolves
  | thenBranch known found => exact Table.contains_iff.1 (checked.branches found).1
  | elseBranch known found => exact Table.contains_iff.1 (checked.branches found).2

theorem Startable.reaches (exact : c.IndexExact) (checked : c.Checked registry) {node next : Node}
    (startable : c.Startable node) (path : c.Reaches node next) : c.Startable next := by
  induction path with
  | refl => exact startable
  | tail _ edge ih => exact ih.dependsOn exact checked edge

theorem Startable.supplier (exact : c.IndexExact) {node : Node} (startable : c.Startable node) :
    c.Startable (c.supplier node) := by
  cases node with
  | function => exact startable
  | value id =>
    cases produced : c.producerOf? id with
    | none => rwa [supplier_of_unproduced produced]
    | some producer =>
      rw [supplier_of_producerOf? produced]
      obtain ⟨entry, known, -⟩ := exact.writes produced
      exact ⟨entry, known⟩

/-- A value that resolves and has no producer is a row. -/
theorem exists_row_of_resolves {id : ValueId} (resolves : c.resolves id = true)
    (unproduced : c.producerOf? id = none) : ∃ value, c.values[id]? = some value := by
  rcases Bool.or_eq_true_iff.1 resolves with row | produced
  · exact Table.contains_iff.1 row
  · obtain ⟨producer, produced⟩ := Table.contains_iff.1 produced
    rw [show c.producers[id]? = none from unproduced] at produced
    cases produced

/-- In a checked graph planning can fail on a cycle only. -/
theorem Plan.Failure.is_cycle (exact : c.IndexExact) (checked : c.Checked registry) {root : Node}
    (startable : c.Startable root) {e : ExecError} (failure : Plan.Failure c root e) :
    ∃ path, e = .cycle path := by
  cases failure with
  | @cycle path => exact ⟨path, rfl⟩
  | entry path missing =>
    obtain ⟨entry, known⟩ := startable.reaches exact checked path
    rw [missing] at known
    cases known
  | definition path known missing =>
    obtain ⟨d, found⟩ := Table.contains_iff.1 (checked.definition known)
    rw [missing] at found
    cases found

end Context

namespace Evaluator

variable {m : Evaluator} {bad : Halt → Prop} {p p' : Progress} {tree : Tree}

/-- Handing on the value of a branch that has run. -/
theorem handOn_fine {branch : Tree} {id : FunctionId} {definition : CondId} {returns : ValueId}
    (known : m.context.functions[id]? = some (.cond definition returns))
    (ran : Fine bad (Supplies m.context p branch.output) (m.runTree branch p)) :
    Fine bad (Supplies m.context p returns) (do
      let p ← m.runTree branch p
      let value ← readRow p.table branch.output
      return p.complete id returns value) := by
  apply ran.bind
  intro p₁ here
  obtain ⟨value, row⟩ := here.row
  have read : readRow p₁.table branch.output = .ok value := by simp only [readRow, row]
  rw [read]
  have done := here.stocked.complete known value
  exact ⟨done.stocked, here.keeps.trans done.keeps, done.row⟩

/-- Running a tree leaves a row for it, or fails as its functions may: `runs` is what is known of the
single function whose arguments have their rows. -/
theorem runTree_fine (exact : m.context.IndexExact) (checked : m.context.Checked m.registry)
    (flags : ∀ (id : FunctionId) (flag : Value),
      bad (.failed (.functionExecution id (.typeMismatch "cond" .boolean flag.baseType))))
    (runs : ∀ {id : FunctionId} {entry : FunctionEntry} {p : Progress},
      m.context.functions[id]? = some entry → entry.kind ≠ .cond → Stocked m.context p →
      (∀ value ∈ entry.args.values, ∃ content, p.table[value]? = some content) →
      Fine bad (Supplies m.context p entry.returns) (m.runFunction id entry p))
    (unfolds : tree.Unfolds m.context) :
    m.context.Startable tree.node → ∀ p, Stocked m.context p →
      Fine bad (Supplies m.context p tree.output) (m.runTree tree p) := by
  induction unfolds with
  | @value id unproduced =>
    intro startable p stocked
    -- a value that resolves without a producer is a row, and rows are never lost
    have row := stocked.keeps id (Context.exists_row_of_resolves startable unproduced)
    rw [runTree, if_pos (Table.contains_iff.2 row)]
    exact ⟨⟨stocked.keeps, stocked.completed⟩, fun _ row => row, row⟩
  | @function id entry children known isArgs nodes unfold ih =>
    intro startable p stocked
    rw [runTree]
    split
    · next done => exact ⟨stocked, fun _ row => row, stocked.completed done known⟩
    · have ran := runTrees_fine children p stocked fun child isChild p stocked => by
        obtain ⟨value, isArg, supplies⟩ := Tree.exists_value_of_child nodes isChild
        have startable : m.context.Startable (.value value) := checked.arguments known isArg
        exact ih child isChild (supplies ▸ startable.supplier exact) p stocked
      apply ran.bind
      rintro p₁ ⟨stocked₁, keeps, rows⟩
      refine (runs known isArgs stocked₁ ?_).mono ?_
      · intro value isArg
        obtain ⟨child, isChild, node⟩ := Tree.exists_child_of_value nodes isArg
        exact (unfold child isChild).output_eq exact node ▸ rows child isChild
      · exact fun p₂ here => ⟨here.stocked, keeps.trans here.keeps, here.row⟩
  | @cond id definition returns d condition thenBranch elseBranch known found conditionNode thenNode
      elseNode _ _ _ ihCondition ihThen ihElse =>
    intro startable p stocked
    rw [runTree]
    split
    · next done => exact ⟨stocked, fun _ row => row, stocked.completed done known⟩
    · have below : ∀ {next}, m.context.DependsOn (.function id) next →
          m.context.Startable (m.context.supplier next) :=
        fun edge => (startable.dependsOn exact checked edge).supplier exact
      have ran := ihCondition (conditionNode ▸ below (.condition known found)) p stocked
      apply ran.bind
      intro p₁ here
      obtain ⟨flag, row⟩ := here.row
      have read : readRow p₁.table condition.output = .ok flag := by simp only [readRow, row]
      have later : ∀ {result}, Fine bad (Supplies m.context p₁ returns) result →
          Fine bad (Supplies m.context p returns) result :=
        fun fine => fine.mono fun _ last => ⟨last.stocked, here.keeps.trans last.keeps, last.row⟩
      rw [read]
      apply later
      dsimp only [bind, Except.bind]
      cases flag.asBool? with
      | none => exact flags id flag
      | some selected =>
        cases selected with
        | true =>
          exact handOn_fine known
            (ihThen (thenNode ▸ below (.thenBranch known found)) p₁ here.stocked)
        | false =>
          exact handOn_fine known
            (ihElse (elseNode ▸ below (.elseBranch known found)) p₁ here.stocked)

theorem evaluateTree_fine (exact : m.context.IndexExact) (quiet : m.registry.NeverPanics)
    (checked : m.context.Checked m.registry) (steps : m.context.StepsWellFormed)
    (acyclic : m.context.NestingAcyclic) (unfolds : tree.Unfolds m.context)
    (startable : m.context.Startable tree.node) (session : Nat) :
    Fine Excused (fun _ => True) (m.evaluateTree tree session) := by
  have ran := runTree_fine exact checked (fun id flag => ⟨id, _, rfl⟩)
    (runFunction_fine quiet checked steps acyclic) unfolds startable (.start session m.context.values)
    (.start m.context session)
  apply ran.bind
  intro p here
  obtain ⟨value, row⟩ := here.row
  have read : readRow p.table tree.output = .ok value := by simp only [readRow, row]
  rw [read]
  trivial

/-- What is applied is a definition of the graph. -/
theorem PipeApplies.exists_combine {function : FunctionId} {outer : ValueTable} {levels : Nat}
    {scratch : Scratch} {id : PipeId} {given : List (String × Value)} {d : CombineDefinition}
    {left right : Value}
    (applies : m.PipeApplies function outer levels scratch id given d left right) :
    ∃ combine : CombineId, m.context.combines[combine]? = some d := by
  induction applies with
  | step _ _ _ _ known _ => exact ⟨_, known⟩
  | nested _ _ _ _ _ _ ih => exact ih

end Evaluator

namespace Context

variable {c : Context} {registry : Registry}

theorem AppliesIn.exists_combine {root : Node} {session : Nat} {function : FunctionId}
    {d : CombineDefinition} {left right : Value}
    (applies : c.AppliesIn registry root session function d left right) :
    ∃ combine : CombineId, c.combines[combine]? = some d := by
  obtain ⟨_, _, _, _, _, _, applies⟩ := applies
  cases applies with
  | combine known _ => exact ⟨_, known⟩
  | pipe _ applies => exact applies.exists_combine

/-- In a checked graph, an evaluation that fails for an unknown name has applied a definition of which
an implementation said so. -/
theorem exists_returns (checked : c.Checked registry) {root : Node} {session : Nat}
    {function : FunctionId} {cause : OpError}
    (failed : c.evaluate registry root session = .error (.failed (.functionExecution function cause)))
    (unknown : cause.IsUnknown) :
    ∃ d left right, c.AppliesIn registry root session function d left right ∧
      registry.Returns d left right cause := by
  rcases exists_appliesIn (.error cause) failed with ⟨ty, same⟩ | ⟨d, left, right, applies, faulty⟩
  · cases same
    rcases unknown with ⟨name, same⟩ | ⟨name, same⟩ <;> cases same
  · obtain ⟨combine, known⟩ := applies.exists_combine
    exact ⟨d, left, right, applies,
      Registry.returns_of_applyDefinition (checked.operation known) (checked.adapters known) faulty⟩

/-- An evaluation in a graph without errors gives a value, or it ends on a cycle or in a function
that failed; and if that failed for an unknown name, then a definition was applied there of which an
implementation said so. -/
theorem evaluate_not_stuck {c : Context} {registry : Registry} (reached : c.Reachable)
    (quiet : registry.NeverPanics) (valid : (c.validate registry).isValid = true)
    (steps : c.StepsWellFormed) (acyclic : c.NestingAcyclic) {root : Node}
    (startable : c.Startable root) (session : Nat) :
    (∃ evaluation, c.evaluate registry root session = .ok evaluation) ∨
      (∃ path, c.evaluate registry root session = .error (.failed (.cycle path))) ∨
      ∃ function cause,
        c.evaluate registry root session = .error (.failed (.functionExecution function cause)) ∧
          (cause.IsUnknown → ∃ d left right,
            c.AppliesIn registry root session function d left right ∧
            registry.Returns d left right cause) := by
  have exact := reached.indexExact
  have checked := checked_of_isValid valid
  have planned := Plan.build_spec c root
  cases result : c.evaluate registry root session with
  | ok evaluation => exact .inl ⟨evaluation, rfl⟩
  | error halt =>
    have failed := result
    unfold evaluate Evaluator.evaluate at failed
    dsimp only at failed
    cases built : Plan.build c root with
    | error e =>
      rw [built] at planned failed
      obtain ⟨path, rfl⟩ := Plan.Failure.is_cycle exact checked startable planned
      cases failed
      exact .inr (.inl ⟨path, rfl⟩)
    | ok plan =>
      rw [built] at planned failed
      have ran := Evaluator.evaluateTree_fine (m := ⟨c, registry, false⟩) exact quiet checked steps
        acyclic planned.1 (planned.2 ▸ startable.supplier exact) session
      have failed : (Evaluator.mk c registry false).evaluateTree plan.tree session = .error halt :=
        failed
      rw [failed] at ran
      obtain ⟨function, cause, rfl⟩ := ran
      exact .inr (.inr ⟨function, cause, rfl, exists_returns checked result⟩)

theorem Diamond.stepsWellFormed : diamond.StepsWellFormed where
  pair known step isStep combine body := by
    rcases pipes_cases known with ⟨rfl, rfl⟩ | ⟨rfl, rfl⟩
    · simp only [innerPipe, List.mem_singleton] at isStep
      subst isStep
      rfl
    · simp only [outerPipe, List.mem_cons, List.not_mem_nil, or_false] at isStep
      rcases isStep with rfl | rfl
      · cases body
      · rfl
  names known step isStep nested d body found := by
    rcases pipes_cases known with ⟨rfl, rfl⟩ | ⟨rfl, rfl⟩
    · simp only [innerPipe, List.mem_singleton] at isStep
      subst isStep
      cases body
    · simp only [outerPipe, List.mem_cons, List.not_mem_nil, or_false] at isStep
      rcases isStep with rfl | rfl
      · cases body
        rcases pipes_cases found with ⟨-, rfl⟩ | ⟨h, -⟩
        · simp [Bindings.names, innerPipe]
        · exact absurd h (by decide)
      · cases body
  absolute known step isStep name value isArg := by
    rcases pipes_cases known with ⟨rfl, rfl⟩ | ⟨rfl, rfl⟩
    · simp only [innerPipe, List.mem_singleton] at isStep
      subst isStep
      have arg : name = "b" ∧ value = flag := by simpa using isArg
      rw [arg.2]
      exact ⟨.boolean true, rfl⟩
    · simp only [outerPipe, List.mem_cons, List.not_mem_nil, or_false] at isStep
      rcases isStep with rfl | rfl <;> simp at isArg

open Diamond in
theorem evaluate_not_stuck_diamond :
    (diamond.Reachable ∧ Registry.standard.NeverPanics ∧
      (diamond.validate .standard).isValid = true ∧ diamond.StepsWellFormed ∧
      diamond.NestingAcyclic ∧ diamond.Startable (.function choose)) ∧
    ((∃ evaluation, diamond.evaluate .standard (.function choose) 3 = .ok evaluation) ∨
      (∃ path, diamond.evaluate .standard (.function choose) 3 = .error (.failed (.cycle path))) ∨
      ∃ function cause, diamond.evaluate .standard (.function choose) 3 =
        .error (.failed (.functionExecution function cause)) ∧
          (cause.IsUnknown → ∃ d left right,
            diamond.AppliesIn .standard (.function choose) 3 function d left right ∧
            Registry.standard.Returns d left right cause)) := by
  have valid : (diamond.validate .standard).isValid = true := by decide +kernel
  have startable : diamond.Startable (.function choose) := ⟨_, rfl⟩
  exact ⟨⟨reachable, Registry.standard_neverPanics, valid, stepsWellFormed, nestingAcyclic, startable⟩,
    evaluate_not_stuck reachable Registry.standard_neverPanics valid stepsWellFormed nestingAcyclic
      startable 3⟩

end Context

end TagFlow
