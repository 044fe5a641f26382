import Mathlib.Data.List.Nodup
import TagFlow.Proofs.Evaluation.Meaning
import TagFlow.Proofs.Evaluation.Scratch
import TagFlow.Proofs.Graph.Nesting
import TagFlow.Proofs.Graph.Producers
import TagFlow.Proofs.Result

/-!
# Running a pipe agrees with its meaning

A running pipe keeps its inputs in a scope by their slots and the outputs of its steps by scratch
identifiers, and looks for absolute values there before it looks in the table around it; its meaning
reads inputs by name, outputs by index and absolute values from the graph. The two agree
(`denotePipe_eq`) where slots are distinct, absolute values are neither slots nor written by functions,
and scratch identifiers are fresh, as the graphs that are built from specs have it. What the scope holds
is the invariant of the steps (`Holds`).
-/

namespace TagFlow

namespace Context

/-- No pipe definition has two inputs with the same slot. -/
def DistinctSlots (c : Context) : Prop :=
  ∀ (id : PipeId) (d : PipeDefinition), c.pipes[id]? = some d → (d.inputs.map (·.slot)).Nodup

/-- An absolute value that a step reads is not written by a function and is no slot of its pipe. -/
def AbsoluteApart (c : Context) : Prop :=
  ∀ (id : PipeId) (d : PipeDefinition), c.pipes[id]? = some d → ∀ step ∈ d.steps, ∀ name value,
    (name, Source.value value) ∈ step.args →
      (∀ function, ¬ c.Writes function value) ∧ value ∉ d.inputs.map (·.slot)

end Context

namespace Evaluator

variable {m : Evaluator} {d : PipeDefinition}

/-! ### Combines -/

/-- What a combine that gives a value went through. -/
theorem combine_eq_ok {function : FunctionId} {d : CombineDefinition} {left right value : Value}
    (run : m.combine function d left right = .ok value) :
    ∃ first second, m.registry.applyAdapter d.first.adapter left = .ok first ∧
      m.registry.applyAdapter d.second.adapter right = .ok second ∧
      m.registry.applyBinary d.operation first second = .ok value := by
  unfold combine charge at run
  split at run
  · next result applied =>
    cases run
    obtain ⟨first, adapted, rest⟩ := Result.bind_eq_ok.1 applied
    obtain ⟨second, adapted', rest⟩ := Result.bind_eq_ok.1 rest
    exact ⟨first, second, adapted, adapted', rest⟩
  · cases run
  · split at run <;> cases run

/-! ### The scope of a pipe -/

/-- The scope has what the pipe was given, each input under its slot, and nothing else but what is of
the session. -/
structure Scopes (d : PipeDefinition) (inputs : List (String × Value)) (session : Nat)
    (scope : ValueTable) : Prop where
  given : ∀ binding ∈ inputs, (d.input? binding.1).isSome
  slots : ∀ input ∈ d.inputs, scope[input.slot]? = inputs.lookup input.name
  others : ∀ id ∉ d.inputs.map (·.slot), ¬ id.OfSession session → scope[id]? = none

/-- Put the value given for an input under its slot. -/
def bindSlot (function : FunctionId) (inputs : List (String × Value)) (scope : ValueTable)
    (input : PipeInput) : Except Halt ValueTable :=
  match inputs.lookup input.name with
  | some value => .ok (scope.insert input.slot value)
  | none => invalid function (.unboundInput input.name)

/-- Binding some slots, one after the other. -/
theorem foldlM_bindSlot (function : FunctionId) (inputs : List (String × Value)) :
    ∀ (rest : List PipeInput) (scope : ValueTable), (rest.map (·.slot)).Nodup →
      match rest.find? fun input => (inputs.lookup input.name).isNone with
      | some input =>
        rest.foldlM (bindSlot function inputs) scope = invalid function (.unboundInput input.name)
      | none => ∃ bound, rest.foldlM (bindSlot function inputs) scope = .ok bound ∧
          (∀ input ∈ rest, bound[input.slot]? = inputs.lookup input.name) ∧
          ∀ id ∉ rest.map (·.slot), bound[id]? = scope[id]?
  | [], scope, _ => ⟨scope, rfl, by simp, fun _ _ => rfl⟩
  | input :: rest, scope, distinct => by
    obtain ⟨fresh, distinct⟩ := List.nodup_cons.1 distinct
    cases found : inputs.lookup input.name with
    | none =>
      simp only [List.find?_cons, found, Option.isNone_none, List.foldlM_cons, bindSlot]
      rfl
    | some value =>
      have ih := foldlM_bindSlot function inputs rest (scope.insert input.slot value) distinct
      have bound : bindSlot function inputs scope input = .ok (scope.insert input.slot value) := by
        simp only [bindSlot, found]
      simp only [List.find?_cons, found, Option.isNone_some, List.foldlM_cons, bound]
      split at ih
      · next missing h =>
        rw [h]
        exact ih
      · next h =>
        rw [h]
        obtain ⟨bound, run, slots, others⟩ := ih
        refine ⟨bound, run, ?_, ?_⟩
        · intro other m
          rcases List.mem_cons.1 m with rfl | m
          · rw [others _ fresh, found]
            exact Table.getElem?_insert_self
          · exact slots other m
        · intro id outside
          rw [List.map_cons, List.mem_cons, not_or] at outside
          rw [others id outside.2]
          exact Table.getElem?_insert_of_ne (Ne.symm outside.1)

/-- Making the scope succeeds just where the inputs are those that the pipe declares. -/
theorem inputScope_eq (function : FunctionId) (inputs : List (String × Value))
    (distinct : (d.inputs.map (·.slot)).Nodup) :
    match checkInputs function d inputs with
    | .ok () => ∃ scope, inputScope function d inputs = .ok scope ∧
        ∀ session, Scopes d inputs session scope
    | .error halt => inputScope function d inputs = .error halt := by
  unfold checkInputs inputScope
  cases extra : inputs.find? fun binding => (d.input? binding.1).isNone with
  | some binding => rfl
  | none =>
    have given : ∀ binding ∈ inputs, (d.input? binding.1).isSome := by
      intro binding m
      simpa [← Option.isSome_iff_ne_none] using List.find?_eq_none.1 extra binding m
    have bind := foldlM_bindSlot function inputs d.inputs ∅ distinct
    cases missing : d.inputs.find? fun input => (inputs.lookup input.name).isNone with
    | some input =>
      rw [missing] at bind
      exact bind
    | none =>
      rw [missing] at bind
      obtain ⟨scope, run, slots, others⟩ := bind
      refine ⟨scope, run, fun session => ⟨given, slots, fun id outside _ => ?_⟩⟩
      rw [others id outside]
      exact Std.ExtTreeMap.getElem?_empty

/-! ### Steps -/

/-- What the scope of a running pipe holds: what the pipe was given, and these outputs of its steps. -/
structure Holds (d : PipeDefinition) (inputs : List (String × Value)) (function : FunctionId)
    (scratch : Scratch) (s : PipeProgress) (outputs : List Value) : Prop where
  scopes : Scopes d inputs scratch.session s.scope
  issued : Issued function scratch s
  outputs : List.Forall₂ (fun id value => s.scope[id]? = some value) s.outputs outputs

namespace Holds

variable {inputs : List (String × Value)} {function : FunctionId} {scratch : Scratch}
  {s : PipeProgress} {outputs : List Value}

theorem start {scope : ValueTable} (scopes : Scopes d inputs scratch.session scope) :
    Holds d inputs function scratch (.start scope) [] where
  scopes := scopes
  issued := .start scope
  outputs := .nil

/-- A step adds its output, and changes nothing else. -/
theorem advance (holds : Holds d inputs function scratch s outputs)
    (fresh : ∀ input ∈ d.inputs, ¬ input.slot.OfSession scratch.session) (value : Value)
    (inside : Nat) :
    Holds d inputs function scratch (Evaluator.advance function scratch s value inside)
      (outputs ++ [value]) where
  scopes :=
    { given := holds.scopes.given
      slots := fun input isInput =>
        (getElem?_advance_of_fresh (fresh input isInput)).trans (holds.scopes.slots input isInput)
      others := fun id outside unissued =>
        (getElem?_advance_of_fresh unissued).trans (holds.scopes.others id outside unissued) }
  issued := holds.issued.advance
  outputs := by
    have earlier := holds.issued.forall₂_advance (R := fun row given => row = some given)
      holds.outputs value inside
    exact List.rel_append earlier (.cons Table.getElem?_insert_self .nil)

/-- What a step has given is found by its index. -/
theorem output? (holds : Holds d inputs function scratch s outputs) (index : Nat) :
    s.output? index = outputs[index]? :=
  (Result.bind_getElem?_of_forall₂ holds.outputs index).trans (Option.bind_fun_some _)

theorem last? (holds : Holds d inputs function scratch s outputs) :
    s.last? = outputs.getLast? := by
  rw [PipeProgress.last?_eq_output?, holds.output?, holds.outputs.length_eq, List.getLast?_eq_getElem?]

end Holds

/-- The table around a pipe shows the rows of the graph for all that no function writes. -/
def ShowsUnwritten (c : Context) (table : ValueTable) : Prop :=
  ∀ id, (∀ function, ¬ c.Writes function id) → table[id]? = c.values[id]?

theorem lookup_eq_none_of_undeclared {inputs : List (String × Value)} {name : String}
    (given : ∀ binding ∈ inputs, (d.input? binding.1).isSome) (undeclared : d.input? name = none) :
    inputs.lookup name = none := by
  rw [List.lookup_eq_none_iff]
  intro binding m
  have declared := given binding m
  rw [bne_iff_ne]
  rintro rfl
  rw [undeclared] at declared
  cases declared

section steps

variable {function : FunctionId} {inputs : List (String × Value)} {outer : ValueTable}
  {scratch : Scratch} {s : PipeProgress} {outputs : List Value}

/-- An absolute value that is neither a slot, nor a scratch identifier, nor written by a function. -/
structure ReadsOutside (m : Evaluator) (d : PipeDefinition) (session : Nat) (value : ValueId) : Prop where
  unwritten : ∀ function, ¬ m.context.Writes function value
  noSlot : value ∉ d.inputs.map (·.slot)
  fresh : ¬ value.OfSession session

theorem readSource_eq {source : Source} (holds : Holds d inputs function scratch s outputs)
    (shows : ShowsUnwritten m.context outer)
    (apart : ∀ value, source = .value value → ReadsOutside m d scratch.session value) :
    readSource function d outer s source = m.denoteSource function inputs outputs source := by
  cases source with
  | input name =>
    have bound : ((d.input? name).bind fun input => s.scope[input.slot]?) = inputs.lookup name := by
      cases declared : d.input? name with
      | none => exact (lookup_eq_none_of_undeclared holds.scopes.given declared).symm
      | some input =>
        have named : input.name = name := by simpa using List.find?_some declared
        rw [← named]
        exact holds.scopes.slots input (List.mem_of_find?_eq_some declared)
    cases found : inputs.lookup name with
    | none => simp only [readSource, denoteSource, bound, found]
    | some value => simp only [readSource, denoteSource, bound, found]
  | step index =>
    have given := holds.output? index
    cases found : outputs[index]? with
    | none => simp only [readSource, denoteSource, given, found]
    | some value => simp only [readSource, denoteSource, given, found]
  | value id =>
    have outside := apart id rfl
    simp only [readSource, denoteSource, holds.scopes.others id outside.noSlot outside.fresh, readRow,
      shows id outside.unwritten]

theorem readArguments_eq {step : PipeStep} (holds : Holds d inputs function scratch s outputs)
    (shows : ShowsUnwritten m.context outer)
    (apart : ∀ name value, (name, .value value) ∈ step.args →
      ReadsOutside m d scratch.session value) :
    readArguments function d outer s step = m.denoteArguments function inputs outputs step.args := by
  unfold readArguments denoteArguments
  apply Result.mapM_congr
  intro arg isArg
  obtain ⟨name, source⟩ := arg
  rw [readSource_eq holds shows]
  rintro value rfl
  exact apart name value isArg

/-- Running a combine step, once its arguments have been read. -/
theorem runStep_combine (step : PipeStep) (id : CombineId) (nested : Nested)
    {args : List (String × Value)} (read : readArguments function d outer s step = .ok args)
    (body : step.body = .combine id) :
    m.runStep function nested d outer scratch s step =
      (m.denoteCombine function id (.stepArity s.outputs.length) (args.map (·.2))).map (·, 0) := by
  unfold runStep denoteCombine
  rw [read, body]
  dsimp only [bind, Except.bind]
  cases m.context.combines[id]? with
  | none => rfl
  | some definition =>
    match args with
    | [] | [_] | _ :: _ :: _ :: _ =>
      simp [invalid, fail, Except.map]
    | [left, right] =>
      show (m.combine function definition left.2 right.2 >>= fun value => .ok (value, 0)) = _
      simp only [List.map_cons, List.map_nil]
      cases m.combine function definition left.2 right.2 <;> rfl

/-- Running a step agrees with its meaning, if running the pipe that it nests does. -/
theorem denoteStep_eq (nested : Nested) (holds : Holds d inputs function scratch s outputs)
    (shows : ShowsUnwritten m.context outer) {step : PipeStep}
    (apart : ∀ name value, (name, Source.value value) ∈ step.args →
      ReadsOutside m d scratch.session value)
    (agrees : ∀ id, step.body = .pipe id → ∀ args,
      (m.denotePipe function id args).run =
        some ((nested (scratch.skip s.count) id args).map (·.1))) :
    (m.denoteStep function inputs outputs step).run =
      some ((m.runStep function nested d outer scratch s step).map (·.1)) := by
  have read := readArguments_eq holds shows apart
  unfold denoteStep
  cases known : m.denoteArguments function inputs outputs step.args with
  | error halt =>
    rw [known] at read
    rw [Meaning.run_bind_error (Meaning.run_lift _)]
    unfold runStep
    rw [read]
    rfl
  | ok args =>
    rw [known] at read
    rw [Meaning.run_bind_ok (Meaning.run_lift _)]
    cases body : step.body with
    | combine id =>
      rw [runStep_combine step id nested read body, holds.outputs.length_eq]
      dsimp only
      cases m.denoteCombine function id (.stepArity outputs.length) (args.map (·.2)) <;> rfl
    | pipe id =>
      have run : m.runStep function nested d outer scratch s step =
          nested (scratch.skip s.count) id args := by
        unfold runStep
        rw [read, body]
        rfl
      rw [run]
      exact agrees id body args

/-- Running the remaining steps of a pipe agrees with their meaning, if running the pipes that they
nest does. -/
theorem denoteSteps_eq (scratch : Scratch) (nested : Nested)
    (fresh : ∀ input ∈ d.inputs, ¬ input.slot.OfSession scratch.session)
    (shows : ShowsUnwritten m.context outer) :
    ∀ (steps : List PipeStep) {s : PipeProgress} {outputs : List Value},
      Holds d inputs function scratch s outputs →
      (∀ step ∈ steps, ∀ name value, (name, Source.value value) ∈ step.args →
        ReadsOutside m d scratch.session value) →
      (∀ step ∈ steps, ∀ id, step.body = .pipe id → ∀ issued args,
        (m.denotePipe function id args).run =
          some ((nested ⟨scratch.session, issued⟩ id args).map (·.1))) →
      match m.runSteps function nested d outer scratch s steps with
      | .ok s' => ∃ outputs', (m.denoteSteps function inputs outputs steps).run =
          some (.ok outputs') ∧ Holds d inputs function scratch s' outputs'
      | .error halt => (m.denoteSteps function inputs outputs steps).run = some (.error halt)
  | [], s, outputs, holds, _, _ => by
    rw [denoteSteps_nil]
    exact ⟨outputs, rfl, holds⟩
  | step :: rest, s, outputs, holds, apart, agrees => by
    have here := denoteStep_eq nested holds shows (apart step List.mem_cons_self)
      fun id body args => agrees step List.mem_cons_self id body _ args
    rw [denoteSteps_cons, runSteps]
    cases run : m.runStep function nested d outer scratch s step with
    | error halt =>
      rw [run] at here
      exact Meaning.run_bind_error here
    | ok result =>
      rw [run] at here
      rw [Meaning.run_bind_ok here]
      exact denoteSteps_eq scratch nested fresh shows rest (holds.advance fresh result.1 result.2)
        (fun other isStep => apart other (List.mem_cons_of_mem _ isStep))
        (fun other isStep => agrees other (List.mem_cons_of_mem _ isStep))

end steps

/-! ### Pipes -/

theorem readsOutside (apart : m.context.AbsoluteApart) {session : Nat}
    (fresh : m.context.FreshIn session) {id : PipeId} (known : m.context.pipes[id]? = some d)
    {step : PipeStep} (isStep : step ∈ d.steps) {name : String} {value : ValueId}
    (isArg : (name, Source.value value) ∈ step.args) : ReadsOutside m d session value where
  unwritten := (apart id d known step isStep name value isArg).1
  noSlot := (apart id d known step isStep name value isArg).2
  fresh := fresh.absolute known step isStep name value isArg

/-- Running a pipe agrees with its meaning, given more levels than it nests definitions. -/
theorem denotePipe_eq (function : FunctionId) {outer : ValueTable} (slots : m.context.DistinctSlots)
    (apart : m.context.AbsoluteApart) (shows : ShowsUnwritten m.context outer) {session : Nat}
    (fresh : m.context.FreshIn session) :
    ∀ (levels issued : Nat) (id : PipeId) (inputs : List (String × Value)),
      m.context.NestedWithin levels id →
      (m.denotePipe function id inputs).run =
        some ((m.runPipe function outer levels ⟨session, issued⟩ id inputs).map (·.1))
  | levels + 1, issued, id, inputs, nested => by
    rw [denotePipe, runPipe]
    cases known : m.context.pipes[id]? with
    | none => rfl
    | some d =>
      dsimp only
      split
      · rfl
      · have scope := inputScope_eq function inputs (slots id d known)
        cases checked : checkInputs function d inputs with
        | error halt =>
          rw [checked] at scope
          rw [Meaning.run_bind_error (Meaning.run_lift _), scope]
          rfl
        | ok _ =>
          rw [checked] at scope
          obtain ⟨scope, made, scopes⟩ := scope
          rw [Meaning.run_bind_ok (Meaning.run_lift _), made]
          -- what the steps nest goes fewer levels down, so for it the agreement is known
          have start : Holds d inputs function ⟨session, issued⟩ (.start scope) [] :=
            .start (scopes session)
          have steps := denoteSteps_eq ⟨session, issued⟩ (m.runPipe function outer levels)
            (fresh.slots known) shows d.steps start (fun step isStep name value isArg =>
              readsOutside apart fresh known isStep isArg) (fun step isStep inner body issued args =>
              denotePipe_eq function slots apart shows fresh levels issued inner args
                (nested inner ⟨d, known, step, isStep, body⟩))
          show _ = some (((m.runSteps function (m.runPipe function outer levels) d outer
            ⟨session, issued⟩ (.start scope) d.steps >>= fun s => match s.last? with
              | some value => .ok (value, s.count)
              | none => fail (.emptySequence id)) : Except Halt (Value × Nat)).map (·.1))
          cases run : m.runSteps function (m.runPipe function outer levels) d outer ⟨session, issued⟩
              (.start scope) d.steps with
          | error halt =>
            rw [run] at steps
            rw [Meaning.run_bind_error steps]
            rfl
          | ok s =>
            rw [run] at steps
            obtain ⟨outputs, steps, holds⟩ := steps
            rw [Meaning.run_bind_ok steps]
            show _ = some (((match s.last? with
              | some value => .ok (value, s.count)
              | none => fail (.emptySequence id)) : Except Halt (Value × Nat)).map (·.1))
            rw [holds.last?]
            cases outputs.getLast? with
            | none => rfl
            | some value => rfl

end Evaluator

end TagFlow
