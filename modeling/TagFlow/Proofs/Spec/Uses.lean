import TagFlow.Proofs.Spec.Adapting
import TagFlow.Proofs.Spec.PipeAgreement
import TagFlow.Proofs.Spec.Sharing

/-!
# Uses of combine definitions

A combine of a spec stands at a place: it is an entry, or a step of a pipe that stands at a place. What
stands there in the graph is a use of a combine definition. Two uses are of the same definition if and only
if they have the same operation and the same two adapters (`Spec.combines_shared_by_signature`), where the
adapter of an argument is the one asked for, or else the pass adapter of the type that is inferred for the
argument (`Spec.typeOf?`).

The induction is on places, from the entry inwards. What it carries for a pipe is that its steps have been
lowered by the types that are inferred at the places of its inputs (`Spec.Made`).
-/

namespace TagFlow

open Result Lowering

/-! ### Places -/

/-- A place in the function entries of a spec. -/
inductive Place where
  | entry (name : String)
  /-- A step, counted from 0, of the pipe at the outer place. -/
  | step (index : Nat) (outer : Place)

/-- The name of the entry that the place is in. -/
def Place.root : Place → String
  | entry name => name
  | step _ outer => outer.root

/-! ### What stands at a place in the spec -/

/-- The inputs of a pipe. -/
def StepExpr.inputs : StepExpr → List (String × Reference)
  | combine _ => []
  | pipe inputs _ => inputs

/-- The steps of a pipe. -/
def StepExpr.steps : StepExpr → List StepExpr
  | combine _ => []
  | pipe _ steps => steps

def StepExpr.combine? : StepExpr → Option CombineExpr
  | combine expr => some expr
  | pipe _ _ => none

/-- A function entry that could be a step as well. -/
def FunctionExpr.body? : FunctionExpr → Option StepExpr
  | combine expr => some (.combine expr)
  | pipe inputs steps => some (.pipe inputs steps)
  | cond _ _ _ => none

def SpecEntry.body? : SpecEntry → Option StepExpr
  | literal _ => none
  | function expr => expr.body?

namespace Spec

/-- The combine or the pipe at a place. -/
def body? (spec : Spec) : Place → Option StepExpr
  | .entry name => (spec.get? name).bind (·.body?)
  | .step index outer => (spec.body? outer).bind (·.steps[index]?)

/-- The combine at a place. -/
def combine? (spec : Spec) (place : Place) : Option CombineExpr :=
  (spec.body? place).bind (·.combine?)

end Spec

/-! ### What stands at a place in the graph -/

/-- The steps of the pipe that a step runs. -/
def Context.stepsOf (c : Context) : StepBody → List PipeStep
  | .combine _ => []
  | .pipe id => (c.pipes[id]?.map (·.steps)).getD []

def StepBody.combine? : StepBody → Option CombineId
  | combine id => some id
  | pipe _ => none

/-- A definition that a step could run as well. -/
def DefinitionId.body? : DefinitionId → Option StepBody
  | combine id => some (.combine id)
  | pipe id => some (.pipe id)
  | cond _ => none

namespace Built

/-- What is run at a place. -/
def body? (built : Built) : Place → Option StepBody
  | .entry name => (built.definition? name).bind (·.body?)
  | .step index outer =>
    (built.body? outer).bind fun body => (built.context.stepsOf body)[index]?.map (·.body)

/-- A step of the pipe at a place. -/
def step? (built : Built) (outer : Place) (index : Nat) : Option PipeStep :=
  (built.body? outer).bind fun body => (built.context.stepsOf body)[index]?

/-- The combine definition that is used at a place. -/
def combineAt? (built : Built) (place : Place) : Option CombineId :=
  (built.body? place).bind (·.combine?)

end Built

/-! ### Signatures by inference -/

namespace Spec

/-- The type that is inferred for an entry in a graph: a literal has the type of its value. -/
def entryType? (spec : Spec) (built : Built) (c : Context) (name : String) : Option BaseType :=
  match spec.get? name with
  | some (.literal value) => some value.baseType
  | some (.function _) => (built.function? name).bind c.functionType
  | none => none

/-- The type that is inferred for what a reference at this place leads to. Other functions are those of
the entries before the one that the place is in; an input has the type of what it is bound to. -/
def typeOf? (spec : Spec) (built : Built) : Place → Target → Option BaseType
  | .step _ outer, .input name => (spec.body? outer).bind fun pipe =>
    (pipe.inputs.lookup name).bind fun reference => spec.typeOf? built outer reference.target
  | .step _ outer, .step index => (built.step? outer index).bind (built.context.stepType 1)
  | .entry _, .input _ => none
  | .entry _, .step _ => none
  | place, .value name => spec.entryType? built (built.before spec place.root) name
  | place, .name name => spec.entryType? built (built.before spec place.root) name
  | place, .output name => spec.entryType? built (built.before spec place.root) name

/-- The adapter of an argument: the one asked for, or else the pass adapter of its type. -/
def adapter (spec : Spec) (built : Built) (place : Place) (reference : Reference) : String :=
  adapterFor reference.adapter (spec.typeOf? built place reference.target)

/-- The signature of a combine that stands at this place. -/
def signature (spec : Spec) (built : Built) (place : Place) (expr : CombineExpr) : CombineSignature :=
  ⟨expr.operation, expr.args.map fun arg => spec.adapter built place arg.2⟩

/-! ### What a build makes of the combines and pipes of a spec -/

variable {spec : Spec} {built : Built}

/-- What the build has made of a combine or of a pipe at a place. -/
inductive Made (spec : Spec) (built : Built) (place : Place) : StepExpr → StepBody → Prop
  | combine {expr id} {d : CombineDefinition} :
      built.context.combines[id]? = some d → d.signature = spec.signature built place expr →
      Made spec built place (.combine expr) (.combine id)
  | pipe {inputs steps id function names given} {d : PipeDefinition} :
      built.context.pipes[id]? = some d →
      built.names.scopeSteps function names 0 steps = .ok given →
      StepsAdapted built.context
        (inputs.map fun input => (input.1, spec.typeOf? built place input.2.target)) [] given d.steps →
      Made spec built place (.pipe inputs steps) (.pipe id)

theorem entryType?_eq (compiled : Compiled spec built) {c : Context}
    (values : c.values = built.context.values) {name : String} {binding : Binding}
    (found : built.names[name]? = some binding) :
    bindingType ⟨built.mint, c⟩ binding = spec.entryType? built c name := by
  unfold entryType?
  cases binding with
  | literal id =>
    obtain ⟨value, isEntry, row⟩ := compiled.get?_literal found
    rw [isEntry]
    show c.values[id]?.map _ = _
    rw [values, row]
    rfl
  | function id returns =>
    obtain ⟨expr, -, -, isEntry, -⟩ := compiled.get?_function found
    rw [isEntry, Compiled.function?_eq_some found]
    rfl

/-- What a reference outside of any pipe leads to has the type that is inferred for it. -/
theorem bindingType_eq_typeOf? (compiled : Compiled spec built) {entry : String} {target : Target}
    {binding : Binding} (resolved : built.names.resolve? target = some binding) :
    bindingType ⟨built.mint, built.before spec entry⟩ binding =
      spec.typeOf? built (.entry entry) target := by
  obtain ⟨name, target, found⟩ := Names.resolve?_eq_some resolved
  rw [entryType?_eq (c := built.before spec entry) compiled rfl found]
  rcases target with rfl | rfl | rfl <;> rfl

/-- What a reference inside of a pipe leads to has the type that is inferred for it. -/
theorem typeIn_eq_typeOf? (compiled : Compiled spec built) {outer : Place}
    {inputs : List (String × Reference)} {steps : List StepExpr} {id : PipeId} {d : PipeDefinition}
    (isPipe : spec.body? outer = some (.pipe inputs steps)) (isBody : built.body? outer = some (.pipe id))
    (known : built.context.pipes[id]? = some d) {names : List String} {function argument : String}
    {index : Nat} {target : Target} {source : Source}
    (resolved : built.names.resolveInPipe names ⟨function, index, argument⟩ target = .ok source) :
    typeIn built.context.values
        (inputs.map fun input => (input.1, spec.typeOf? built outer input.2.target))
        ((d.steps.take index).map (built.context.stepType 1)) source =
      spec.typeOf? built (.step index outer) target := by
  rcases Names.resolveInPipe_eq_ok resolved with ⟨name, rfl, -, rfl⟩ | ⟨i, rfl, earlier, rfl⟩ |
    ⟨name, row, target, found, rfl⟩
  · show (List.lookup name _).join = _
    rw [Bindings.lookup_map (fun reference : Reference => spec.typeOf? built outer reference.target),
      typeOf?, isPipe]
    show _ = (inputs.lookup name).bind _
    cases inputs.lookup name <;> rfl
  · show ((d.steps.take index).map _)[i]?.join = _
    have step : built.step? outer i = d.steps[i]? := by
      rw [Built.step?, isBody]
      show (Option.getD (built.context.pipes[id]?.map _) [])[i]? = _
      rw [known]
      rfl
    rw [typeOf?, step, List.getElem?_map, List.getElem?_take_of_lt earlier]
    cases d.steps[i]? <;> rfl
  · have literal := entryType?_eq (c := built.before spec outer.root) compiled rfl found
    rcases target with rfl | rfl <;> exact literal

/-- The steps of a pipe, one by one: each was scoped with its index, and lowered by the types of the
steps before it. -/
theorem rel_steps {c : Context} {names : Names} {function : String} {bound : List String}
    {inputs : List (String × Option BaseType)} : ∀ {steps : List StepExpr} {given : List ScopedStep}
    {lowered : List PipeStep} {first : Nat} {outputs : List (Option BaseType)},
    names.scopeSteps function bound first steps = .ok given →
    StepsAdapted c inputs outputs given lowered → ∀ index : Nat,
      Option.Rel (fun step (step' : PipeStep) => ∃ given',
        names.scopeStep function bound (first + index) step = .ok given' ∧
          BodyAdapted c inputs (outputs ++ (lowered.take index).map (c.stepType 1)) given' step'.body)
        steps[index]? lowered[index]?
  | [], _, _, _, _, run, adapted, index => by
    rw [Names.scopeSteps_nil_eq_ok run] at adapted
    cases adapted
    exact .none
  | step :: rest, _, _, first, outputs, run, adapted, index => by
    obtain ⟨given, others, rfl, here, later⟩ := Names.scopeSteps_cons_eq_ok run
    cases adapted with
    | cons body adapted =>
      cases index with
      | zero =>
        refine .some ⟨given, here, ?_⟩
        rw [List.take_zero, List.map_nil, List.append_nil]
        exact body
      | succ index =>
        have next := rel_steps later adapted index
        rw [Nat.add_assoc, Nat.add_comm 1] at next
        rw [List.take_succ_cons, List.map_cons, List.append_cons]
        exact next

/-- Arguments that are adapted by the types that are inferred for them. -/
theorem signature_eq {place : Place} {expr : CombineExpr} {a b : String × Reference}
    (args : expr.args = [a, b]) {d : CombineDefinition} (same : d.operation = expr.operation)
    (first : d.first.adapter = spec.adapter built place a.2)
    (second : d.second.adapter = spec.adapter built place b.2) :
    d.signature = spec.signature built place expr := by
  simp only [CombineDefinition.signature, CombineDefinition.slots, signature, same, args, List.map_cons,
    List.map_nil, first, second]

/-- What was made of a step at a place where types are inferred rightly. -/
theorem made_of_step {place : Place} {names : List String} {function : String} {index : Nat}
    {inputs : List (String × Option BaseType)} {outputs : List (Option BaseType)}
    (types : ∀ {argument : String} {target : Target} {source : Source},
      built.names.resolveInPipe names ⟨function, index, argument⟩ target = .ok source →
        typeIn built.context.values inputs outputs source = spec.typeOf? built place target)
    {step : StepExpr} {given : ScopedStep} {body : StepBody}
    (isScoped : built.names.scopeStep function names index step = .ok given)
    (adapted : BodyAdapted built.context inputs outputs given body) :
    Made spec built place step body := by
  cases step with
  | combine expr =>
    obtain ⟨a, b, first, second, args, -, resolved, resolved', rfl⟩ :=
      Names.scopeStep_combine_eq_ok isScoped
    cases adapted with
    | combine found same left right =>
      rw [types resolved] at left
      rw [types resolved'] at right
      exact .combine found (signature_eq args same left right)
  | pipe bindings inner =>
    obtain ⟨bound, scopedSteps, rfl, follow, -, isInner⟩ := Names.scopeStep_pipe_eq_ok isScoped
    cases adapted with
    | pipe found adapted =>
      rw [map_eq_of_forall₂ ?_ follow] at adapted
      · exact .pipe found isInner adapted
      · rintro binding input ⟨named, resolved⟩
        rw [named, types resolved]

/-- What was made of a step of a pipe. -/
theorem Made.step (compiled : Compiled spec built) {outer : Place} {pipe : StepExpr} {body : StepBody}
    (isPipe : spec.body? outer = some pipe) (isBody : built.body? outer = some body)
    (made : Made spec built outer pipe body) (index : Nat) :
    Option.Rel (Made spec built (.step index outer)) pipe.steps[index]?
      ((built.context.stepsOf body)[index]?.map (·.body)) := by
  cases made with
  | combine => exact .none
  | @pipe inputs steps id function names given d known isScoped adapted =>
    have lowered : built.context.stepsOf (.pipe id) = d.steps := by
      rw [Context.stepsOf, known]
      rfl
    have related := rel_steps isScoped adapted index
    rw [Nat.zero_add, List.nil_append] at related
    rw [lowered, show (StepExpr.pipe inputs steps).steps = steps from rfl]
    generalize steps[index]? = step, d.steps[index]? = step' at related
    cases related with
    | none => exact .none
    | some related =>
      obtain ⟨given', isStep, adapted⟩ := related
      exact .some (made_of_step (typeIn_eq_typeOf? compiled isPipe isBody known) isStep adapted)

/-- What was made of a function entry. -/
theorem made_of_function (compiled : Compiled spec built) {name : String} {expr : FunctionExpr}
    {body : ScopedFunction} {entry : FunctionEntry}
    (isScoped : built.names.scopeFunction name expr = .ok body)
    (adapted : FunctionAdapted built.context (bindingType ⟨built.mint, built.before spec name⟩) body
      entry) :
    Option.Rel (Made spec built (.entry name)) expr.body? entry.definition.body? := by
  cases expr with
  | combine expr =>
    obtain ⟨a, b, first, second, args, -, resolved, resolved', rfl⟩ :=
      Names.scopeFunction_combine_eq_ok isScoped
    cases adapted with
    | combine found same left right =>
      rw [bindingType_eq_typeOf? compiled resolved] at left
      rw [bindingType_eq_typeOf? compiled resolved'] at right
      exact .some (.combine found (signature_eq args same left right))
  | pipe bindings steps =>
    obtain ⟨bound, scopedSteps, rfl, follow, -, isInner⟩ := Names.scopeFunction_pipe_eq_ok isScoped
    cases adapted with
    | pipe found adapted =>
      rw [map_eq_of_forall₂ ?_ follow] at adapted
      · exact .some (.pipe found isInner adapted)
      · rintro binding input ⟨named, resolved⟩
        rw [named, bindingType_eq_typeOf? compiled resolved]
  | cond condition thenBranch elseBranch =>
    obtain ⟨_, _, _, -, -, -, rfl⟩ := Names.scopeFunction_cond_eq_ok isScoped
    cases adapted
    exact .none

/-- At each place the build has made something of what stands there, and nothing else. -/
theorem made_of_build {session : Nat} (builds : spec.build session = .ok built) : ∀ place : Place,
    Option.Rel (Made spec built place) (spec.body? place) (built.body? place)
  | .step index outer => by
    have outside := made_of_build builds outer
    rw [body?, Built.body?]
    generalize isPipe : spec.body? outer = pipe, isBody : built.body? outer = body at outside
    cases outside with
    | none => exact .none
    | some made => exact made.step (compiled_of_build builds) isPipe isBody index
  | .entry name => by
    have compiled := compiled_of_build builds
    rw [body?, Built.body?, Built.definition?, Built.entry?]
    cases named : built.function? name with
    | some id =>
      obtain ⟨returns, found⟩ := Compiled.exists_returns named
      obtain ⟨⟨expr, isEntry⟩, -⟩ := compiled.registered.ofFunction found
      obtain ⟨body, entry, isScoped, known, adapted⟩ := adapted_of_build builds isEntry found
      rw [Compiled.get?_of_mem isEntry, Option.bind_some, Option.bind_some, known]
      exact made_of_function compiled isScoped adapted
    | none =>
      cases isEntry : spec.get? name with
      | none => exact .none
      | some entry =>
        cases entry with
        | literal value => exact .none
        | function expr =>
          obtain ⟨id, returns, found⟩ := compiled.registered.function (Bindings.mem_of_lookup isEntry)
          cases named.symm.trans (Compiled.function?_eq_some found)

/-- The combines of the spec and the uses of combine definitions in the graph stand at the same places,
and each use is of a definition with the signature that is inferred. -/
theorem rel_combine {session : Nat} (builds : spec.build session = .ok built) (place : Place) :
    Option.Rel (fun expr id => ∃ d, built.context.combines[id]? = some d ∧
      d.signature = spec.signature built place expr) (spec.combine? place) (built.combineAt? place) := by
  have made := made_of_build builds place
  rw [combine?, Built.combineAt?]
  generalize spec.body? place = step, built.body? place = body at made
  cases made with
  | none => exact .none
  | some made =>
    cases made with
    | combine found same => exact .some ⟨_, found, same⟩
    | pipe => exact .none

/-- Each combine of the spec uses a definition with its signature. -/
theorem exists_use {session : Nat} (builds : spec.build session = .ok built) {place : Place}
    {expr : CombineExpr} (isCombine : spec.combine? place = some expr) :
    ∃ id d, built.combineAt? place = some id ∧ built.context.combines[id]? = some d ∧
      d.signature = spec.signature built place expr := by
  have use := rel_combine builds place
  rw [isCombine] at use
  generalize built.combineAt? place = id? at use
  cases use with
  | some use =>
    obtain ⟨d, known, same⟩ := use
    exact ⟨_, d, rfl, known, same⟩

/-- Combine definitions of a graph that was built are shared exactly by signature. When the last entry has
been lowered, the builder remembers for a signature just the definition that has it in the table, and no two
definitions have the same one. Each combine of the spec, at any place, uses the definition with its operation
and its two adapters, which are those asked for or else the pass adapters of the types that are inferred for
its arguments; so that two of them use the same definition if and only if they agree in these. Slots are not
shared. -/
theorem combines_shared_by_signature {session : Nat} (builds : spec.build session = .ok built) :
    (∃ builder, spec.assemble session = .ok (built.names, builder) ∧
      builder.finish built.names = built ∧
      ∀ (signature : CombineSignature) (id : CombineId), builder.cache[signature]? = some id ↔
        ∃ d, built.context.combines[id]? = some d ∧ d.signature = signature) ∧
    (∀ (id id' : CombineId) (d d' : CombineDefinition), built.context.combines[id]? = some d →
      built.context.combines[id']? = some d' → id ≠ id' → d.signature ≠ d'.signature) ∧
    (∀ place, (∃ id, built.combineAt? place = some id) ↔ ∃ expr, spec.combine? place = some expr) ∧
    (∀ place expr, spec.combine? place = some expr → ∃ id d, built.combineAt? place = some id ∧
      built.context.combines[id]? = some d ∧ d.operation = expr.operation ∧
      d.slots.map (·.adapter) = expr.args.map fun arg =>
        arg.2.adapter.getD (passAdapter (spec.typeOf? built place arg.2.target))) ∧
    (∀ place place' expr expr', spec.combine? place = some expr → spec.combine? place' = some expr' →
      (built.combineAt? place = built.combineAt? place' ↔
        spec.signature built place expr = spec.signature built place' expr')) ∧
    (built.context.combines.toList.flatMap fun row => row.2.slots.map (·.slot)).Nodup := by
  obtain ⟨builder, assembled, finished, cached⟩ := cached_of_build builds
  have complete : builder.context = built.context := congrArg Built.context finished
  have signatures : ∀ {id id' : CombineId} {d d' : CombineDefinition},
      built.context.combines[id]? = some d → built.context.combines[id']? = some d' →
        d.signature = d'.signature → id = id' := by
    rw [← complete]
    exact cached.signatures
  refine ⟨⟨builder, assembled, finished, fun signature id => ?_⟩,
    fun id id' d d' known known' different same => ?_, fun place => ?_,
    fun place expr isCombine => ?_, fun place place' expr expr' isCombine isCombine' => ?_,
    (slotsApart_of_build builds).nodup_slots⟩
  · rw [← complete]
    exact cached signature id
  · exact different (signatures known known' same)
  · have use := rel_combine builds place
    generalize spec.combine? place = expr?, built.combineAt? place = id? at use
    cases use <;> simp
  · obtain ⟨id, d, isUse, known, same⟩ := exists_use builds isCombine
    exact ⟨id, d, isUse, known, congrArg CombineSignature.operation same,
      congrArg CombineSignature.adapters same⟩
  · obtain ⟨id, d, isUse, known, same⟩ := exists_use builds isCombine
    obtain ⟨id', d', isUse', known', same'⟩ := exists_use builds isCombine'
    rw [isUse, isUse', ← same, ← same', Option.some.injEq]
    constructor
    · rintro rfl
      cases known.symm.trans known'
      rfl
    · exact signatures known known'

/-! ### An instance

A combine that is used by an entry and, in a pipe that is nested in another, by a step as well. An entry
that refers to a later one does not share the definition, since no type is known for its argument yet. -/

namespace Doubled

def concat (first second : Target) : CombineExpr :=
  ⟨"string::concat", [("a", ⟨first, none⟩), ("b", ⟨second, none⟩)]⟩

def entries : List (String × SpecEntry) :=
  [ ("name", .literal (.string "Ada"))
  , ("early", .function (.combine (concat (.output "word") (.value "name"))))
  , ("word", .function (.combine (concat (.value "name") (.value "name"))))
  , ("late", .function (.combine (concat (.output "word") (.value "name"))))
  , ("twice", .function (.pipe [("w", ⟨.output "word", none⟩)]
      [ .pipe [("x", ⟨.input "w", none⟩)] [.combine (concat (.input "x") (.value "name"))]
      , .combine ⟨"string::concat",
          [("a", ⟨.step 0, none⟩), ("b", ⟨.input "w", some "string::upper"⟩)]⟩ ])) ]

end Doubled

def doubled : Spec := ⟨Doubled.entries, by decide⟩

namespace Doubled

/-- The step of the nested pipe. -/
def nested : Place := .step 0 (.step 0 (.entry "twice"))

/-- The signatures that are inferred. -/
theorem exists_built : ∃ built, doubled.build 7 = .ok built ∧
    doubled.signature built (.entry "early") (concat (.output "word") (.value "name")) =
      ⟨"string::concat", ["generic::pass", "string::pass"]⟩ ∧
    doubled.signature built (.entry "late") (concat (.output "word") (.value "name")) =
      ⟨"string::concat", ["string::pass", "string::pass"]⟩ ∧
    doubled.signature built nested (concat (.input "x") (.value "name")) =
      ⟨"string::concat", ["string::pass", "string::pass"]⟩ := by
  have holds : ((doubled.build 7).toOption.any fun built =>
      doubled.signature built (.entry "early") (concat (.output "word") (.value "name")) ==
        ⟨"string::concat", ["generic::pass", "string::pass"]⟩ &&
      doubled.signature built (.entry "late") (concat (.output "word") (.value "name")) ==
        ⟨"string::concat", ["string::pass", "string::pass"]⟩ &&
      doubled.signature built nested (concat (.input "x") (.value "name")) ==
        ⟨"string::concat", ["string::pass", "string::pass"]⟩) = true := by
    decide +kernel
  obtain ⟨built, builds, holds⟩ := (Option.any_eq_true _ _).1 holds
  simp only [Bool.and_eq_true, beq_iff_eq, and_assoc] at holds
  exact ⟨built, eq_ok_of_toOption builds, holds⟩

end Doubled

theorem combines_shared_by_signature_doubled : ∃ built, doubled.build 7 = .ok built ∧
    (∃ builder, doubled.assemble 7 = .ok (built.names, builder) ∧
      builder.cache[doubled.signature built Doubled.nested (Doubled.concat (.input "x") (.value "name"))]? =
        built.combineAt? Doubled.nested) ∧
    built.combineAt? (.entry "late") = built.combineAt? Doubled.nested ∧
    built.combineAt? (.entry "early") ≠ built.combineAt? Doubled.nested ∧
    ∃ id d, built.combineAt? (.entry "early") = some id ∧ built.context.combines[id]? = some d ∧
      d.operation = "string::concat" ∧
      d.slots.map (·.adapter) = ["generic::pass", "string::pass"] := by
  obtain ⟨built, builds, early, late, nested⟩ := Doubled.exists_built
  obtain ⟨⟨builder, assembled, -, cached⟩, -, -, uses, shared, -⟩ := combines_shared_by_signature builds
  obtain ⟨id, d, isUse, known, operation, adapters⟩ := uses (.entry "early") _ rfl
  obtain ⟨inner, e, isInner, defined, same⟩ := exists_use builds
    (show doubled.combine? Doubled.nested = some (Doubled.concat (.input "x") (.value "name")) from rfl)
  refine ⟨built, builds, ⟨builder, assembled, ?_⟩,
    (shared (.entry "late") Doubled.nested _ _ rfl rfl).2 (late.trans nested.symm), fun same => ?_,
    id, d, isUse, known, operation, adapters.trans (congrArg CombineSignature.adapters early)⟩
  · rw [isInner]
    exact (cached _ inner).2 ⟨e, defined, same⟩
  · have agree := (shared (.entry "early") Doubled.nested _ _ rfl rfl).1 same
    have differ := early.symm.trans (agree.trans nested)
    simp at differ

end Spec

end TagFlow
