import TagFlow.Proofs.Spec.Structure
import TagFlow.Proofs.Typing.Recorded

/-!
# Default adapters and validation

An argument without an explicit adapter goes through the pass adapter of the type that was known for
it when its function was lowered. Validation infers the type again, from the complete graph, and never
finds that it is another one: a mismatch is only reported for an adapter that was asked for
(`default_adapters_agree`).

This is where it matters that a type which is known stays the same while the graph grows. What the
checker infers starts one level further down than what the builder inferred, which is no harm, since
inference that goes down further agrees as well (`bindingType_of_valueType`).
-/

namespace TagFlow

open Lowering Names

/-- The pass adapter of a type accepts just this type. -/
theorem accepts_of_passAdapter {ty : Option BaseType} {adapter : AdapterSignature} {expects : BaseType}
    (isAdapter : AdapterSignature.find? (passAdapter ty) = some adapter)
    (accepts : adapter.input.concrete? = some expects) : ty = some expects := by
  have input : (AdapterSignature.find? (passAdapter ty)).bind (·.input.concrete?) = ty := by
    rcases ty with _ | ty
    · rfl
    · cases ty <;> rfl
  rw [isAdapter, Option.bind_some, accepts] at input
  exact input.symm

namespace Spec

namespace Compiled

variable {spec : Spec} {built : Built} {registry : Registry} {name argument adapter : String}
  {function : FunctionId} {expects got : BaseType}

/-- What is inferred for an argument in the complete graph is known for what its name stands for. -/
theorem bindingType_of_valueType (compiled : Compiled spec built) {binding : Binding} {ty : BaseType}
    (found : built.names[name]? = some binding)
    (typed : built.context.valueType binding.output = some ty) :
    bindingType ⟨built.mint, built.context⟩ binding = some ty := by
  unfold Context.valueType at typed
  cases binding with
  | literal id =>
    obtain ⟨value, -, row⟩ := compiled.registered.ofLiteral found
    have row : built.context.values[id]? = some value := row
    rw [show (Binding.literal id).output = id from rfl, row] at typed
    exact Option.map_eq_some_iff.2 ⟨value, row, Option.some.inj typed⟩
  | function id returns =>
    obtain ⟨⟨expr, isEntry⟩, -, -⟩ := compiled.registered.ofFunction found
    obtain ⟨_, entry, -, known, rfl, -⟩ := compiled.lowered isEntry found
    have noRow : built.context.values[entry.returns]? = none :=
      compiled.shaped.returns (Context.writes_of_getElem? known)
    have produced := compiled.orderly.exact.producerOf?_returns compiled.orderly.distinct known
    rw [show (Binding.function id entry.returns).output = entry.returns from rfl, noRow] at typed
    dsimp only at typed
    rw [produced, Option.bind_some] at typed
    exact Context.functionTypeWithin_mono (.refl _) _ _ id (Nat.sub_le _ _) typed

/-- An argument behind a default adapter has no other type than the one that the adapter accepts. -/
theorem got_eq_of_default (compiled : Compiled spec built) {binding : Binding}
    {signature : AdapterSignature} (found : built.names[name]? = some binding)
    (adapts : Adapts none (bindingType ⟨built.mint, built.context⟩ binding) adapter)
    (isAdapter : AdapterSignature.find? adapter = some signature)
    (accepts : signature.input.concrete? = some expects)
    (typed : built.context.valueType binding.output = some got) : got = expects := by
  obtain ⟨ty, rfl, known⟩ := adapts
  have known := known expects (accepts_of_passAdapter isAdapter accepts)
  have typed := compiled.bindingType_of_valueType found typed
  exact Option.some.inj (typed.symm.trans known)

/-- An argument whose type is reported goes through an adapter that its reference asks for. -/
theorem adapter_of_mismatch (compiled : Compiled spec built) {target : Target} {binding : Binding}
    {explicit : Option String} {signature : AdapterSignature}
    (resolved : built.names.resolve? target = some binding)
    (adapts : Adapts explicit (bindingType ⟨built.mint, built.context⟩ binding) adapter)
    (isAdapter : AdapterSignature.find? adapter = some signature)
    (accepts : signature.input.concrete? = some expects)
    (typed : built.context.valueType binding.output = some got) (different : got ≠ expects) :
    explicit = some adapter := by
  cases explicit with
  | none =>
    obtain ⟨name, -, found⟩ := resolve?_eq_some resolved
    exact absurd (compiled.got_eq_of_default found adapts isAdapter accepts typed) different
  | some name =>
    obtain ⟨_, rfl, -⟩ := adapts
    rfl

/-- A mismatch is reported for an argument of a combine entry that asks for the adapter. -/
theorem exists_explicit (compiled : Compiled spec built)
    (found : .argumentTypeMismatch function argument adapter expects got ∈
      (built.context.validate registry).errors) :
    ∃ name expr reference, (name, .function (.combine expr)) ∈ spec.entries ∧
      built.function? name = some function ∧ (argument, reference) ∈ expr.args ∧
      (Bindings.names expr.args).Nodup ∧ reference.adapter = some adapter := by
  cases Context.finding_of_mem compiled.shaped found with
  | @argumentType _ definition args returns d _ value _ _ index slot signature known defined isArg here
      isAdapter accepts typed different =>
    obtain ⟨name, expr, body, isEntry, named, isScoped, lowered⟩ := compiled.exists_entry known
    cases lowered with
    | @combine operation a b _ _ d' defined' _ distinct adapts adapts' =>
      cases defined.symm.trans defined'
      cases expr with
      | pipe bindings steps =>
        obtain ⟨_, _, same, -⟩ := scopeFunction_pipe_eq_ok isScoped
        cases same
      | cond condition thenBranch elseBranch =>
        obtain ⟨_, _, _, -, -, -, same⟩ := scopeFunction_cond_eq_ok isScoped
        cases same
      | combine expr =>
        obtain ⟨first, second, _, _, isArgs, distinct, resolved, resolved', same⟩ :=
          scopeFunction_combine_eq_ok isScoped
        cases same
        have names : (Bindings.names expr.args).Nodup := by
          simpa [isArgs, Bindings.names] using distinct
        rw [ArgMap.entries_ofList (by simpa [Bindings.names] using distinct)] at isArg
        refine ⟨name, expr, ?_⟩
        -- the first argument goes through the first slot, the second through the second
        match index with
        | 0 =>
          cases isArg
          cases here
          exact ⟨first.2, isEntry, function?_eq_some named, by simp [isArgs], names,
            compiled.adapter_of_mismatch resolved adapts isAdapter accepts typed different⟩
        | 1 =>
          cases isArg
          cases here
          exact ⟨second.2, isEntry, function?_eq_some named, by simp [isArgs], names,
            compiled.adapter_of_mismatch resolved' adapts' isAdapter accepts typed different⟩
        | index + 2 => cases isArg

end Compiled

/-- In a graph that was built from a spec, a type mismatch is only reported for an argument of a
combine entry whose reference asks for the adapter, never for one that goes through a default adapter;
and a type that the builder has recorded for the output of a function is the type that is inferred for
the function in the whole graph. -/
theorem default_adapters_agree {spec : Spec} {session : Nat} {built : Built}
    (builds : spec.build session = .ok built) (registry : Registry) :
    (∀ function argument adapter expects got,
      .argumentTypeMismatch function argument adapter expects got ∈
        (built.context.validate registry).errors →
      (∃ name expr, (name, .function (.combine expr)) ∈ spec.entries ∧
        built.function? name = some function ∧ argument ∈ Bindings.names expr.args) ∧
      ∀ name expr reference, (name, .function (.combine expr)) ∈ spec.entries →
        built.function? name = some function → (argument, reference) ∈ expr.args →
        reference.adapter = some adapter) ∧
    ∀ function entry ty, built.context.functions[function]? = some entry →
      built.mint.inferred? entry.returns = some ty →
      built.context.functionType function = some ty := by
  have compiled := compiled_of_build builds
  refine ⟨fun function argument adapter expects got found => ?_,
    fun function entry ty known recorded => compiled.functionType_of_inferred? known recorded⟩
  obtain ⟨name, expr, reference, isEntry, named, isArg, distinct, asks⟩ :=
    compiled.exists_explicit found
  refine ⟨⟨name, expr, isEntry, named, List.mem_map_of_mem (f := (·.1)) isArg⟩,
    fun other expr' reference' isEntry' named' isArg' => ?_⟩
  -- a function has one entry, and the entry one argument of each name
  obtain ⟨returns, names⟩ := Compiled.exists_returns named
  obtain ⟨returns', names'⟩ := Compiled.exists_returns named'
  cases compiled.registered.distinct names names' (.inl rfl)
  cases entry_unique spec.nodup isEntry isEntry'
  have first := Bindings.lookup_of_mem distinct isArg
  cases first.symm.trans (Bindings.lookup_of_mem distinct isArg')
  exact asks

/-! ### An instance

A cond with a text in its first branch and a truth value in the second, which is the one that is
taken. Statically it is a text, so that `negated`, which asks for an adapter of truth values, is
reported; the argument of `same` gets the pass adapter of texts. -/

namespace Mixed

def negated : CombineExpr :=
  ⟨"boolean::or", [("a", ⟨.output "choose", some "boolean::not"⟩), ("b", ⟨.value "flag", none⟩)]⟩

def entries : List (String × SpecEntry) :=
  [ ("flag", .literal (.boolean false))
  , ("word", .literal (.string "Ada"))
  , ("text", .function (.combine ⟨"string::concat",
      [("a", ⟨.value "word", none⟩), ("b", ⟨.value "word", none⟩)]⟩))
  , ("both", .function (.combine ⟨"boolean::and",
      [("a", ⟨.value "flag", none⟩), ("b", ⟨.value "flag", none⟩)]⟩))
  , ("choose", .function (.cond "flag" "text" "both"))
  , ("negated", .function (.combine negated))
  , ("same", .function (.combine ⟨"generic::equals",
      [("a", ⟨.output "choose", none⟩), ("b", ⟨.value "flag", none⟩)]⟩)) ]

end Mixed

def mixed : Spec := ⟨Mixed.entries, by decide⟩

namespace Mixed

/-- What the builder, validation and evaluation make of the spec. -/
structure Outcome (built : Built) : Prop where
  /-- `negated` is reported, and evaluating it succeeds all the same. -/
  negated : ∃ negated evaluation, built.function? "negated" = some negated ∧
    .argumentTypeMismatch negated "a" "boolean::not" .boolean .string ∈
      (built.context.validate .standard).errors ∧
    built.context.evaluate .standard (.function negated) 8 = .ok evaluation
  /-- Evaluating `same`, where the argument has a default adapter, does not succeed. -/
  same : ∃ same, built.node? "same" = some same ∧
    ∀ evaluation, built.context.evaluate .standard same 8 ≠ .ok evaluation
  /-- `choose` is recorded to give a text. -/
  choose : ∃ (choose : FunctionId) (entry : FunctionEntry),
    built.context.functions[choose]? = some entry ∧
      built.mint.inferred? entry.returns = some .string

theorem exists_built : ∃ built, mixed.build 7 = .ok built ∧ Outcome built := by
  have holds : ((mixed.build 7).toOption.any fun built =>
      let errors := (built.context.validate .standard).errors
      ((built.function? "negated").any fun negated =>
        decide (.argumentTypeMismatch negated "a" "boolean::not" .boolean .string ∈ errors) &&
        (built.context.evaluate .standard (.function negated) 8).toOption.isSome) &&
      ((built.node? "same").any fun same =>
        (built.context.evaluate .standard same 8).toOption.isNone) &&
      (built.entry? "choose").any fun entry =>
        built.mint.inferred? entry.returns == some .string) = true := by
    decide +kernel
  obtain ⟨built, builds, holds⟩ := (Option.any_eq_true _ _).1 holds
  simp only [Bool.and_eq_true] at holds
  obtain ⟨⟨negated, same⟩, choose⟩ := holds
  refine ⟨built, Result.eq_ok_of_toOption builds, ?_, ?_, ?_⟩
  · obtain ⟨negated, named, holds⟩ := (Option.any_eq_true _ _).1 negated
    rw [Bool.and_eq_true, decide_eq_true_iff] at holds
    obtain ⟨evaluation, evaluates⟩ := Option.isSome_iff_exists.1 holds.2
    exact ⟨negated, evaluation, named, holds.1, Result.eq_ok_of_toOption evaluates⟩
  · obtain ⟨same, named, fails⟩ := (Option.any_eq_true _ _).1 same
    refine ⟨same, named, fun evaluation ran => ?_⟩
    rw [ran] at fails
    cases fails
  · obtain ⟨entry, isEntry, recorded⟩ := (Option.any_eq_true _ _).1 choose
    obtain ⟨choose, -, known⟩ := Option.bind_eq_some_iff.1 isEntry
    exact ⟨choose, entry, known, beq_iff_eq.1 recorded⟩

end Mixed

theorem default_adapters_agree_mixed : ∃ built, mixed.build 7 = .ok built ∧
    (∃ negated, built.function? "negated" = some negated ∧
      .argumentTypeMismatch negated "a" "boolean::not" .boolean .string ∈
        (built.context.validate .standard).errors ∧
      ∀ reference, ("a", reference) ∈ Mixed.negated.args → reference.adapter = some "boolean::not") ∧
    ∃ (choose : FunctionId) (entry : FunctionEntry), built.context.functions[choose]? = some entry ∧
      built.mint.inferred? entry.returns = some .string ∧
      built.context.functionType choose = some .string := by
  obtain ⟨built, builds, outcome⟩ := Mixed.exists_built
  obtain ⟨negated, -, named, reported, -⟩ := outcome.negated
  obtain ⟨choose, entry, known, recorded⟩ := outcome.choose
  obtain ⟨asks, types⟩ := default_adapters_agree builds .standard
  have isEntry : ("negated", .function (.combine Mixed.negated)) ∈ mixed.entries := by
    simp [mixed, Mixed.entries]
  refine ⟨built, builds, ⟨negated, named, reported, fun reference isArg => ?_⟩,
    choose, entry, known, recorded, types choose entry .string known recorded⟩
  exact (asks negated "a" "boolean::not" .boolean .string reported).2 "negated" _ reference isEntry
    named isArg

end Spec

end TagFlow
