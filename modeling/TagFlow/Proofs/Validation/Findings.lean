import TagFlow.Proofs.Validation.Shape

/-!
# What validation finds

In a graph of the right shape every error has its reason in one row of the graph: an operation or an
adapter of a combine definition, a pipe without steps, or an argument whose type is not the one that
its adapter accepts. `Finding` lists these reasons, and `finding_of_mem` reads them off the report.
None of them is about the shape (`code_notMem_structuralCodes`).
-/

namespace TagFlow.Context

/-- Why the error is reported about a graph of the right shape. -/
inductive Finding (c : Context) (registry : Registry) : ValidationError → Prop
  | missingOperation {id d} : c.combines[id]? = some d → d.operation = "" →
      Finding c registry (.missingOperation id)
  | unknownOperation {id d} : c.combines[id]? = some d → registry.hasBinary d.operation = false →
      Finding c registry (.unknownOperation id d.operation)
  | missingAdapter {id d} {index : Nat} {slot : CombineSlot} : c.combines[id]? = some d →
      d.slots[index]? = some slot → slot.adapter = "" → Finding c registry (.missingAdapter id index)
  | unknownAdapter {id d} {index : Nat} {slot : CombineSlot} : c.combines[id]? = some d →
      d.slots[index]? = some slot → registry.hasAdapter slot.adapter = false →
      Finding c registry (.unknownAdapter id index slot.adapter)
  | adapterOutput {id d produces expects} {index : Nat} {slot : CombineSlot} {adapter : AdapterSignature}
      {operation : OperationSignature} {parameter : Parameter} : c.combines[id]? = some d →
      d.slots[index]? = some slot → AdapterSignature.find? slot.adapter = some adapter →
      OperationSignature.find? d.operation = some operation →
      operation.parameters[index]? = some parameter → adapter.outputType = some produces →
      parameter.concrete? = some expects → produces ≠ expects →
      Finding c registry (.adapterOutputMismatch id index slot.adapter d.operation produces expects)
  | emptyPipe {id d} : c.pipes[id]? = some d → d.steps = [] → Finding c registry (.emptySequence id)
  | argumentType {function definition args returns d name value expects got}
      {index : Nat} {slot : CombineSlot} {adapter : AdapterSignature} :
      c.functions[function]? = some (.combine definition args returns) →
      c.combines[definition]? = some d → args.entries[index]? = some (name, value) →
      d.slots[index]? = some slot → AdapterSignature.find? slot.adapter = some adapter →
      adapter.input.concrete? = some expects → c.valueType value = some got → got ≠ expects →
      Finding c registry (.argumentTypeMismatch function name slot.adapter expects got)

variable {c : Context} {registry : Registry} {e : ValidationError}

/-! ### Combine definitions -/

theorem finding_of_checkOperation {id : CombineId} {d : CombineDefinition}
    (known : c.combines[id]? = some d) (found : e ∈ checkOperation registry id d.operation) :
    c.Finding registry e := by
  unfold checkOperation at found
  split at found
  · next unnamed =>
    rw [List.mem_singleton.1 found]
    exact .missingOperation known unnamed
  · split at found
    · cases found
    · next unknown =>
      rw [List.mem_singleton.1 found]
      exact .unknownOperation known (by simpa using unknown)

/-- The two slots are checked alike, each against its own parameter of the operation. -/
theorem finding_of_checkSlot {id : CombineId} {d : CombineDefinition} {index : Nat}
    {slot : CombineSlot} {expected : OperationSignature → Parameter}
    (known : c.combines[id]? = some d) (here : d.slots[index]? = some slot)
    (parameter : ∀ op : OperationSignature, op.parameters[index]? = some (expected op))
    (found : e ∈ checkSlot registry id d.operation index slot.adapter expected) :
    c.Finding registry e := by
  unfold checkSlot at found
  split at found
  · next unnamed =>
    rw [List.mem_singleton.1 found]
    exact .missingAdapter known here unnamed
  · split at found
    · next unknown =>
      rw [List.mem_singleton.1 found]
      exact .unknownAdapter known here (by simpa using unknown)
    · split at found
      · next produced expectation =>
        obtain ⟨adapter, isAdapter, produces⟩ := Option.bind_eq_some_iff.1 produced
        obtain ⟨operation, isOperation, expects⟩ := Option.bind_eq_some_iff.1 expectation
        split at found
        · cases found
        · next different =>
          rw [List.mem_singleton.1 found]
          exact .adapterOutput known here isAdapter isOperation (parameter operation) produces
            expects different
      · cases found

theorem finding_of_checkCombine {id : CombineId} {d : CombineDefinition}
    (known : c.combines[id]? = some d) (found : e ∈ checkCombine registry id d) :
    c.Finding registry e := by
  rcases List.mem_append.1 found with found | second
  · rcases List.mem_append.1 found with operation | first
    · exact finding_of_checkOperation known operation
    · exact finding_of_checkSlot known rfl (fun _ => rfl) first
  · exact finding_of_checkSlot known rfl (fun _ => rfl) second

/-! ### Arguments -/

theorem finding_of_checkArgumentType {function : FunctionId} {definition : CombineId}
    {args : ArgMap} {returns : ValueId} {d : CombineDefinition} {index : Nat} {name : String}
    {value : ValueId} {slot : CombineSlot}
    (known : c.functions[function]? = some (.combine definition args returns))
    (defined : c.combines[definition]? = some d) (isArg : args.entries[index]? = some (name, value))
    (here : d.slots[index]? = some slot) (found : e ∈ c.checkArgumentType function name value slot) :
    c.Finding registry e := by
  unfold checkArgumentType at found
  split at found
  · next accepted typed =>
    obtain ⟨adapter, isAdapter, expects⟩ := Option.bind_eq_some_iff.1 accepted
    split at found
    · cases found
    · next different =>
      rw [List.mem_singleton.1 found]
      exact .argumentType known defined isArg here isAdapter expects typed different
  · cases found

/-- With two arguments there is nothing but their types to find fault with. -/
theorem finding_of_checkCombineUse {function : FunctionId} {definition : CombineId} {args : ArgMap}
    {returns : ValueId} (known : c.functions[function]? = some (.combine definition args returns))
    (shaped : c.EntryShaped (.combine definition args returns))
    (found : e ∈ c.checkCombineUse function definition args) : c.Finding registry e := by
  obtain ⟨⟨d, defined⟩, two⟩ := shaped
  unfold checkCombineUse at found
  split at found
  · next entries =>
    rw [defined] at found
    have isFirst := congrArg (·[0]?) entries
    have isSecond := congrArg (·[1]?) entries
    rcases List.mem_append.1 found with first | second
    · exact finding_of_checkArgumentType known defined isFirst rfl first
    · exact finding_of_checkArgumentType known defined isSecond rfl second
  · next other =>
    have length : args.entries.length = 2 := (List.length_map _).symm.trans two
    obtain ⟨a, b, entries⟩ := List.length_eq_two.1 length
    exact absurd entries (other a.1 a.2 b.1 b.2)

theorem finding_of_checkFunction (shaped : c.Shaped) {function : FunctionId} {entry : FunctionEntry}
    (known : c.functions[function]? = some entry) (found : e ∈ c.checkFunction function entry) :
    c.Finding registry e := by
  have isShaped := shaped.functions known
  unfold checkFunction at found
  rw [checkDefinition_eq_nil function isShaped, checkArguments_eq_nil function (shaped.arguments known),
    List.append_nil, List.nil_append] at found
  cases entry with
  | combine definition args returns => exact finding_of_checkCombineUse known isShaped found
  | pipe definition args returns =>
    dsimp only at found
    rw [checkPipeUse_eq_nil function isShaped] at found
    cases found
  | cond definition returns => cases found

/-! ### The report -/

/-- Every error about a graph of the right shape has one of the reasons. -/
theorem finding_of_mem (shaped : c.Shaped) (found : e ∈ (c.validate registry).errors) :
    c.Finding registry e := by
  have found : e ∈ c.validationErrors registry := found
  unfold validationErrors at found
  simp only [List.mem_append, List.mem_flatMap, Prod.exists, Table.mem_toList_iff] at found
  rcases found with (((⟨id, entry, known, found⟩ | found) | ⟨id, d, known, found⟩) |
    ⟨id, d, known, found⟩) | ⟨id, d, known, found⟩
  · exact finding_of_checkFunction shaped known found
  · rw [checkWriters_eq_nil shaped.writers] at found
    cases found
  · exact finding_of_checkCombine known found
  · obtain ⟨rfl, empty⟩ := eq_emptySequence_of_mem (shaped.pipes known) found
    exact .emptyPipe known empty
  · rw [checkCond_eq_nil id (shaped.conds known)] at found
    cases found

theorem Finding.code_notMem (finding : c.Finding registry e) : e.code ∉ structuralCodes := by
  cases finding <;> simp [ValidationError.code, structuralCodes]

/-- On a graph of the right shape no error is about the shape. -/
theorem code_notMem_structuralCodes (shaped : c.Shaped)
    (found : e ∈ (c.validate registry).errors) : e.code ∉ structuralCodes :=
  (finding_of_mem shaped found).code_notMem

end TagFlow.Context
