import TagFlow.Proofs.Operation.Library

/-!
# Signatures and implementations agree

There are two lists of the built-ins: their signatures, which inference, validation and the choice of
default adapters go by, and their implementations, which evaluation runs. They have the same names, and
under each name an implementation goes by its signature in both directions
(`Registry.builtins_match_signatures`): it refuses its arguments with a type mismatch just if one of them
is of a type that its parameter does not accept, and says so of the first such argument; whatever it
gives is of the type that the signature names.

A body reads its arguments one after the other before it does anything else, so that an index which is
out of bounds, say, is never reported instead of a mismatch. `Follows` is the form of such a body: one
reading for each parameter, in order, and then an outcome that is no mismatch.
-/

namespace TagFlow

/-! ### What signatures say -/

/-- The error is a type mismatch. -/
def OpError.IsMismatch (e : OpError) : Prop :=
  ∃ operation expected got, e = .typeMismatch operation expected got

/-- The first argument whose type its parameter does not accept: what the parameter expects, and the
type of the argument. -/
inductive FirstRefused : List (Parameter × Value) → BaseType → BaseType → Prop
  | here {expected : BaseType} {v : Value} {rest : List (Parameter × Value)} :
      v.baseType ≠ expected → FirstRefused ((.type expected, v) :: rest) expected v.baseType
  | later {parameter : Parameter} {v : Value} {rest : List (Parameter × Value)}
      {expected got : BaseType} : parameter.accepts v.baseType = true →
      FirstRefused rest expected got → FirstRefused ((parameter, v) :: rest) expected got

/-- The item of an array at the index that a number denotes. -/
def SelectsItem (left right : Value) (item : Raw) : Prop :=
  ∃ items n index, left.asArray? = some items ∧ right.asNumber? = some n ∧
    Library.index? n = some index ∧ items[index]? = some item

namespace OperationSignature

/-- The two arguments with the parameters that they are for. -/
def bind (op : OperationSignature) (left right : Value) : List (Parameter × Value) :=
  [(op.first, left), (op.second, right)]

/-- The operation may give this result for these arguments. -/
def Gives (op : OperationSignature) (left right result : Value) : Prop :=
  match op.returns with
  | .type ty => result.baseType = ty
  | .element => ∃ item, SelectsItem left right item ∧ result.baseType = item.baseType
  | .sameAsInput => result.baseType = left.baseType

end OperationSignature

namespace AdapterSignature

/-- The adapter may give this result for this argument. No adapter returns an element. -/
def Gives (adapter : AdapterSignature) (v result : Value) : Prop :=
  match adapter.returns with
  | .type ty => result.baseType = ty
  | .element => False
  | .sameAsInput => result.baseType = v.baseType

end AdapterSignature

/-- What comes of arguments goes by their parameters and by what may be given for them. -/
structure Matches (name : String) (arguments : List (Parameter × Value)) (gives : Value → Prop)
    (result : Except Fault Value) : Prop where
  /-- A mismatch is reported just if some argument is not accepted. -/
  refuses : (∃ e : OpError, e.IsMismatch ∧ result = .error (.error e)) ↔
    ∃ argument ∈ arguments, argument.1.accepts argument.2.baseType = false
  /-- It is reported under the name, and about the first such argument. -/
  names : ∀ {operation : String} {expected got : BaseType},
    result = .error (.error (.typeMismatch operation expected got)) →
      operation = name ∧ FirstRefused arguments expected got
  gives : ∀ {value : Value}, result = .ok value → gives value

namespace Library

open Result

variable {α : Type} {name : String} {arguments : List (Parameter × Value)} {ok : Value → Prop}
  {result : Except Fault Value}

/-! ### Bodies that go by their parameters -/

/-- An outcome that is a value as `ok` says, or an error other than a mismatch. -/
def Settled (ok : Value → Prop) : Except Fault Value → Prop
  | .ok v => ok v
  | .error (.error e) => ¬ e.IsMismatch
  | .error (.panic _) => False

/-- The outcome of a body that reads these arguments in order and refuses the first one that its
parameter does not accept. -/
inductive Follows (name : String) (ok : Value → Prop) :
    List (Parameter × Value) → Except Fault Value → Prop
  | refused {expected : BaseType} {v : Value} {rest : List (Parameter × Value)} :
      v.baseType ≠ expected → Follows name ok ((.type expected, v) :: rest) (mismatch name expected v)
  | accepted {parameter : Parameter} {v : Value} {rest : List (Parameter × Value)}
      {result : Except Fault Value} : parameter.accepts v.baseType = true →
      Follows name ok rest result → Follows name ok ((parameter, v) :: rest) result
  | settled {result : Except Fault Value} : Settled ok result → Follows name ok [] result

/-- An argument that may be of any type is not read. -/
theorem Follows.any {v : Value} (follows : Follows name ok arguments result) :
    Follows name ok ((.any, v) :: arguments) result :=
  .accepted rfl follows

/-- The tags of the result do not matter. -/
theorem Follows.derivedFrom (follows : Follows name ok arguments result) {sources : List Value}
    (tagless : ∀ v, ok v → ok (v.derivedFrom sources)) :
    Follows name ok arguments (result.map (·.derivedFrom sources)) := by
  induction follows with
  | refused wrong => exact .refused wrong
  | accepted right _ ih => exact .accepted right ih
  | @settled result outcome =>
    apply Follows.settled
    match result with
    | .ok v => exact tagless v outcome
    | .error (.error _) => exact outcome

theorem Follows.exists_refused (follows : Follows name ok arguments result)
    (refuses : ∃ argument ∈ arguments, argument.1.accepts argument.2.baseType = false) :
    ∃ e : OpError, e.IsMismatch ∧ result = .error (.error e) := by
  induction follows with
  | @refused expected v => exact ⟨_, ⟨name, expected, v.baseType, rfl⟩, rfl⟩
  | accepted right _ ih =>
    obtain ⟨argument, isArgument, wrong⟩ := refuses
    rcases List.mem_cons.1 isArgument with rfl | later
    · simp [right] at wrong
    · exact ih ⟨argument, later, wrong⟩
  | settled => simp at refuses

theorem Follows.firstRefused (follows : Follows name ok arguments result) {operation : String}
    {expected got : BaseType}
    (run : result = .error (.error (.typeMismatch operation expected got))) :
    operation = name ∧ FirstRefused arguments expected got := by
  induction follows with
  | refused wrong =>
    cases run
    exact ⟨rfl, .here wrong⟩
  | accepted right _ ih =>
    obtain ⟨same, later⟩ := ih run
    exact ⟨same, .later right later⟩
  | settled outcome =>
    subst run
    exact absurd ⟨operation, expected, got, rfl⟩ outcome

/-- A body gives a value only for arguments that its parameters accept. -/
theorem Follows.accepts (follows : Follows name ok arguments result) {value : Value}
    (run : result = .ok value) :
    ∀ argument ∈ arguments, argument.1.accepts argument.2.baseType = true := by
  induction follows with
  | refused => cases run
  | accepted right _ ih => exact List.forall_mem_cons.2 ⟨right, ih run⟩
  | settled => simp

theorem Follows.gives (follows : Follows name ok arguments result) {value : Value}
    (run : result = .ok value) : ok value := by
  induction follows with
  | refused => cases run
  | accepted _ _ ih => exact ih run
  | settled outcome =>
    subst run
    exact outcome

end Library

theorem FirstRefused.exists_refused {arguments : List (Parameter × Value)} {expected got : BaseType}
    (first : FirstRefused arguments expected got) :
    ∃ argument ∈ arguments, argument.1.accepts argument.2.baseType = false := by
  induction first with
  | @here expected v rest wrong =>
    refine ⟨_, List.mem_cons_self, ?_⟩
    simpa [Parameter.accepts] using Ne.symm wrong
  | later _ _ ih =>
    obtain ⟨argument, isArgument, refuses⟩ := ih
    exact ⟨argument, List.mem_cons_of_mem _ isArgument, refuses⟩

namespace Library

variable {α : Type} {name : String} {arguments : List (Parameter × Value)} {ok : Value → Prop}
  {result : Except Fault Value}

theorem Follows.matches (follows : Follows name ok arguments result) :
    Matches name arguments ok result where
  refuses := by
    refine ⟨?_, follows.exists_refused⟩
    rintro ⟨_, ⟨operation, expected, got, rfl⟩, run⟩
    exact (follows.firstRefused run).2.exists_refused
  names run := follows.firstRefused run
  gives run := follows.gives run

/-! ### Reading an argument -/

/-- A reading gets something out of the values of one type, and refuses all others. -/
structure Reads (ty : BaseType) (get? : Value → Option α) (read : String → Value → Except Fault α) :
    Prop where
  typed : ∀ v, (get? v).isSome = true ↔ v.baseType = ty
  run : ∀ name v, read name v =
    match get? v with
    | some a => .ok a
    | none => mismatch name ty v

section reading

theorem reads_expectNumber : Reads .number Value.asNumber? expectNumber where
  typed v := by
    unfold Value.asNumber? Value.baseType
    cases v.raw <;> simp [Raw.baseType]
  run name v := by
    unfold expectNumber
    cases v.asNumber? <;> rfl

theorem reads_expectString : Reads .string Value.asString? expectString where
  typed v := by
    unfold Value.asString? Value.baseType
    cases v.raw <;> simp [Raw.baseType]
  run name v := by
    unfold expectString
    cases v.asString? <;> rfl

theorem reads_expectBool : Reads .boolean Value.asBool? expectBool where
  typed v := by
    unfold Value.asBool? Value.baseType
    cases v.raw <;> simp [Raw.baseType]
  run name v := by
    unfold expectBool
    cases v.asBool? <;> rfl

theorem reads_expectArray : Reads .array Value.asArray? expectArray where
  typed v := by
    unfold Value.asArray? Value.baseType
    cases v.raw <;> simp [Raw.baseType]
  run name v := by
    unfold expectArray
    cases v.asArray? <;> rfl

/-- A body that reads an argument first goes by its parameter, and then by those of the rest. -/
theorem Reads.follows {ty : BaseType} {get? : Value → Option α}
    {read : String → Value → Except Fault α} (reads : Reads ty get? read) {v : Value}
    {next : α → Except Fault Value}
    (rest : ∀ a, get? v = some a → Follows name ok arguments (next a)) :
    Follows name ok ((.type ty, v) :: arguments) (read name v >>= next) := by
  rw [reads.run]
  cases got : get? v with
  | some a =>
    have same : v.baseType = ty := (reads.typed v).1 (by simp [got])
    exact .accepted (by simp [Parameter.accepts, same]) (rest a got)
  | none =>
    apply Follows.refused
    intro same
    have isSome := (reads.typed v).2 same
    simp [got] at isSome

end reading

/-- Reading an index comes after the arguments have been read, and its error is no mismatch. -/
theorem follows_expectIndex {n : Float} {next : Nat → Except Fault Value}
    (rest : ∀ index, index? n = some index → Follows name ok [] (next index)) :
    Follows name ok [] (expectIndex name n >>= next) := by
  unfold expectIndex
  cases got : index? n with
  | some index => exact rest index got
  | none =>
    apply Follows.settled
    rintro ⟨_, _, _, ⟨⟩⟩

/-! ### Operations -/

theorem baseType_arrayWith (element : Option BaseType) (items : List Raw) :
    (Value.arrayWith element items).baseType = .array := by
  unfold Value.baseType
  rw [Value.raw_arrayWith]
  rfl

/-- An implementation goes by the signature of an operation. -/
def FollowsOperation (op : OperationSignature) (implementation : Binary) : Prop :=
  ∀ left right, Follows op.name (op.Gives left right) (op.bind left right) (implementation left right)

/-- A body that goes by a signature does so with the tags of its arguments. -/
theorem followsOperation_binary {op : OperationSignature}
    {body : String → Value → Value → Except Fault Value}
    (follows : ∀ left right,
      Follows op.name (op.Gives left right) (op.bind left right) (body op.name left right)) :
    FollowsOperation op (binary op.name body).2 := by
  intro left right
  apply (follows left right).derivedFrom
  intro v gives
  unfold OperationSignature.Gives at gives ⊢
  exact gives

/-- Operations on two arguments of one type whose result is always of the same type. -/
theorem followsOperation_uniform {argument given : BaseType} {get? : Value → Option α}
    {read : String → Value → Except Fault α} (reads : Reads argument get? read)
    {give : α → α → Value} (gives : ∀ a b, (give a b).baseType = given) :
    FollowsOperation (.uniform name argument given)
      (binary name fun operation a b =>
        read operation a >>= fun x => read operation b >>= fun y => pure (give x y)).2 :=
  @followsOperation_binary (.uniform name argument given) _ fun _ _ =>
    reads.follows fun x _ => reads.follows fun y _ => .settled (gives x y)

/-- The two lists of operations have the same names, in the same order, and each implementation goes by
the signature of its name. -/
theorem forall₂_binaries :
    List.Forall₂ (fun op entry => op.name = entry.1 ∧ FollowsOperation op entry.2)
      OperationSignature.builtin binaries := by
  -- numbers
  iterate 10 refine .cons ⟨rfl, followsOperation_uniform reads_expectNumber fun _ _ => rfl⟩ ?_
  -- texts
  iterate 2 refine .cons ⟨rfl, followsOperation_uniform reads_expectString fun _ _ => rfl⟩ ?_
  refine .cons ⟨rfl, followsOperation_binary fun a b => ?_⟩ ?_
  · refine reads_expectString.follows fun s _ => reads_expectNumber.follows fun n _ =>
      follows_expectIndex fun count _ => .settled ?_
    split
    · exact rfl
    · rintro ⟨_, _, _, ⟨⟩⟩
  -- truth values
  iterate 3 refine .cons ⟨rfl, followsOperation_uniform reads_expectBool fun _ _ => rfl⟩ ?_
  -- arrays
  refine .cons ⟨rfl, followsOperation_binary fun a b => ?_⟩ ?_
  · exact reads_expectArray.follows fun _ _ => reads_expectArray.follows fun _ _ =>
      .settled (baseType_arrayWith _ _)
  refine .cons ⟨rfl, followsOperation_binary fun a b => ?_⟩ ?_
  · exact reads_expectArray.follows fun _ _ => Follows.any (.settled (baseType_arrayWith _ _))
  refine .cons ⟨rfl, followsOperation_binary fun a b => ?_⟩ ?_
  · refine reads_expectArray.follows fun items isArray => reads_expectNumber.follows fun n isNumber =>
      follows_expectIndex fun index isIndex => .settled ?_
    cases here : items[index]? with
    | some item =>
      exact ⟨item, ⟨items, n, index, isArray, isNumber, isIndex, here⟩, Value.baseType_ofRaw item⟩
    | none => rintro ⟨_, _, _, ⟨⟩⟩
  -- values of any type
  iterate 2 refine .cons ⟨rfl, followsOperation_binary fun a b => Follows.any (.any (.settled rfl))⟩ ?_
  exact .nil

/-! ### Adapters -/

/-- An implementation goes by the signature of an adapter. -/
def FollowsAdapter (signature : AdapterSignature) (implementation : Adapter) : Prop :=
  ∀ v, Follows signature.name (signature.Gives v) [(signature.input, v)] (implementation v)

theorem followsAdapter_adapter {signature : AdapterSignature}
    {body : String → Value → Except Fault Value}
    (follows : ∀ v, Follows signature.name (signature.Gives v) [(signature.input, v)]
      (body signature.name v)) :
    FollowsAdapter signature (adapter signature.name body).2 := by
  intro v
  apply (follows v).derivedFrom
  intro w gives
  unfold AdapterSignature.Gives at gives ⊢
  exact gives

/-- Adapters of one type whose result is always of the same type. -/
theorem followsAdapter_convert {argument given : BaseType} {get? : Value → Option α}
    {read : String → Value → Except Fault α} (reads : Reads argument get? read) {give : α → Value}
    (gives : ∀ a, (give a).baseType = given) :
    FollowsAdapter (.convert name argument given)
      (adapter name fun operation v => read operation v >>= fun a => pure (give a)).2 :=
  @followsAdapter_adapter (.convert name argument given) _ fun _ =>
    reads.follows fun a _ => .settled (gives a)

theorem followsAdapter_pass (ty : BaseType) :
    FollowsAdapter (.convert name ty ty) (pass name ty).2 := by
  intro v
  show Follows _ _ _ (if v.baseType = ty then .ok v else mismatch name ty v)
  split
  · next same =>
    exact .accepted (by simp [AdapterSignature.convert, Parameter.accepts, same]) (.settled same)
  · next wrong => exact .refused wrong

/-- Every built-in adapter has a signature and goes by it. -/
theorem follows_adapters : ∀ entry ∈ adapters,
    ∃ signature ∈ AdapterSignature.builtin, signature.name = entry.1 ∧
      FollowsAdapter signature entry.2 := by
  simp only [adapters, numberAdapters, stringAdapters, booleanAdapters, arrayAdapters,
    genericAdapters, List.forall_mem_append, List.forall_mem_cons, List.not_mem_nil,
    IsEmpty.forall_iff, implies_true, and_true, and_assoc]
  refine ⟨?_, ?_, ?_, ?_, ?_, ?_, ?_, ?_, ?_, ?_, ?_, ?_, ?_, ?_⟩
  -- numbers
  · exact ⟨_, by decide, rfl, followsAdapter_pass _⟩
  iterate 2
    exact ⟨_, by decide, rfl, followsAdapter_convert reads_expectNumber fun _ => rfl⟩
  -- texts
  · exact ⟨_, by decide, rfl, followsAdapter_pass _⟩
  iterate 3
    exact ⟨_, by decide, rfl, followsAdapter_convert reads_expectString fun _ => rfl⟩
  -- truth values
  · exact ⟨_, by decide, rfl, followsAdapter_pass _⟩
  · exact ⟨_, by decide, rfl, followsAdapter_convert reads_expectBool fun _ => rfl⟩
  -- arrays
  · exact ⟨_, by decide, rfl, followsAdapter_pass _⟩
  · exact ⟨_, by decide, rfl, followsAdapter_convert reads_expectArray fun _ => rfl⟩
  -- values of any type
  · exact ⟨_, by decide, rfl, followsAdapter_pass _⟩
  · exact ⟨⟨"generic::pass", .any, .sameAsInput⟩, by decide, rfl, fun v => .any (.settled rfl)⟩
  · exact ⟨⟨"generic::toString", .any, .type .string⟩, by decide, rfl,
      followsAdapter_adapter fun v => .any (.settled rfl)⟩

/-! ### Names -/

/-- Operations have the same names in both lists, and no name stands for two of them. -/
theorem names_binaries : binaries.map (·.1) = OperationSignature.builtin.map (·.name) := rfl

theorem nodup_names_binaries : (binaries.map (·.1)).Nodup := by decide +kernel

/-- Adapters have the same names in both lists, and no name stands for two of them. -/
theorem names_adapters : (adapters.map (·.1)).Perm (AdapterSignature.builtin.map (·.name)) := by
  decide +kernel

theorem nodup_names_adapters : (adapters.map (·.1)).Nodup := by decide +kernel

theorem find?_operation : ∀ op ∈ OperationSignature.builtin,
    OperationSignature.find? op.name = some op := by decide +kernel

theorem find?_adapter : ∀ adapter ∈ AdapterSignature.builtin,
    AdapterSignature.find? adapter.name = some adapter := by decide +kernel

end Library

namespace Registry

open Library

/-! ### The standard registry -/

theorem getElem?_standard_binaries {name : String} {implementation : Binary} :
    standard.binaries[name]? = some implementation ↔ (name, implementation) ∈ Library.binaries := by
  refine ⟨mem_binaries_of_standard, fun isEntry => ?_⟩
  unfold standard
  rw [binaries_extend]
  exact Table.getElem?_foldl_insert_of_mem _ nodup_names_binaries isEntry

theorem getElem?_standard_adapters {name : String} {implementation : Adapter} :
    standard.adapters[name]? = some implementation ↔ (name, implementation) ∈ Library.adapters := by
  refine ⟨mem_adapters_of_standard, fun isEntry => ?_⟩
  unfold standard
  rw [adapters_extend]
  exact Table.getElem?_foldl_insert_of_mem _ nodup_names_adapters isEntry

/-- The standard registry knows the operations that have signatures, and no others. -/
theorem hasBinary_standard_iff {name : String} :
    standard.hasBinary name = true ↔ name ∈ OperationSignature.builtin.map (·.name) := by
  unfold hasBinary
  rw [Table.contains_iff, ← names_binaries]
  simp [getElem?_standard_binaries]

/-- The standard registry knows the adapters that have signatures, and no others. -/
theorem hasAdapter_standard_iff {name : String} :
    standard.hasAdapter name = true ↔ name ∈ AdapterSignature.builtin.map (·.name) := by
  unfold hasAdapter
  rw [Table.contains_iff, ← names_adapters.mem_iff]
  simp [getElem?_standard_adapters]

/-- The operation of a signature goes by the signature. -/
theorem applyBinary_follows {op : OperationSignature} (isBuiltin : op ∈ OperationSignature.builtin)
    (left right : Value) : Follows op.name (op.Gives left right) (op.bind left right)
      (standard.applyBinary op.name left right) := by
  obtain ⟨⟨name, implementation⟩, isEntry, same, follows⟩ :=
    Result.exists_of_mem_right forall₂_binaries.flip isBuiltin
  dsimp only at same
  subst same
  unfold applyBinary
  rw [getElem?_standard_binaries.2 isEntry]
  exact follows left right

/-- The adapter of a signature goes by the signature. -/
theorem applyAdapter_follows {adapter : AdapterSignature}
    (isBuiltin : adapter ∈ AdapterSignature.builtin) (v : Value) :
    Follows adapter.name (adapter.Gives v) [(adapter.input, v)]
      (standard.applyAdapter adapter.name v) := by
  have named : adapter.name ∈ Library.adapters.map (·.1) :=
    names_adapters.mem_iff.2 (List.mem_map_of_mem isBuiltin)
  obtain ⟨⟨name, implementation⟩, isEntry, same⟩ := List.mem_map.1 named
  obtain ⟨other, isOther, same', follows⟩ := follows_adapters _ isEntry
  -- no two signatures have the same name
  have distinct := names_adapters.nodup_iff.1 nodup_names_adapters
  obtain rfl : other = adapter :=
    List.inj_on_of_nodup_map distinct isOther isBuiltin (same'.trans same)
  dsimp only at same
  subst same
  unfold applyAdapter
  rw [getElem?_standard_adapters.2 isEntry]
  exact follows v

variable {name : String} {left right value result : Value}

/-- A built-in operation that gives a value has a signature, which accepts the arguments and names what
is given. -/
theorem gives_of_applyBinary (run : standard.applyBinary name left right = .ok result) :
    ∃ op, OperationSignature.find? name = some op ∧ op.first.accepts left.baseType = true ∧
      op.second.accepts right.baseType = true ∧ op.Gives left right result := by
  obtain ⟨op, isBuiltin, rfl⟩ :=
    List.mem_map.1 (hasBinary_standard_iff.1 (hasBinary_of_applyBinary run))
  have follows := applyBinary_follows isBuiltin left right
  have accepts := follows.accepts run
  exact ⟨op, find?_operation op isBuiltin, accepts (op.first, left) (by simp [OperationSignature.bind]),
    accepts (op.second, right) (by simp [OperationSignature.bind]), follows.gives run⟩

/-- A built-in operation gives a value of its result type, if the items of its first argument have
the element type that is given for them. -/
theorem baseType_of_applyBinary {element : Option BaseType} {ty : BaseType}
    (typed : operationResultType name element = some ty)
    (honest : ∀ t, element = some t → ∀ items, left.asArray? = some items →
      ∀ item ∈ items, item.baseType = t)
    (run : standard.applyBinary name left right = .ok result) : result.baseType = ty := by
  obtain ⟨op, known, -, -, gives⟩ := gives_of_applyBinary run
  unfold operationResultType OperationSignature.resultType at typed
  rw [known, Option.bind_some] at typed
  unfold OperationSignature.Gives at gives
  cases returns : op.returns with
  | type t =>
    rw [returns] at gives typed
    exact gives.trans (Option.some.inj typed)
  | element =>
    rw [returns] at gives typed
    obtain ⟨item, ⟨items, _, _, isArray, _, _, here⟩, same⟩ := gives
    exact same.trans (honest ty typed items isArray item (List.mem_of_getElem? here))
  | sameAsInput =>
    rw [returns] at typed
    cases typed

/-- A built-in adapter that gives a value has a signature that accepts its argument and names the type
of what it gives. -/
theorem gives_of_applyAdapter (run : standard.applyAdapter name value = .ok result) :
    ∃ adapter, AdapterSignature.find? name = some adapter ∧
      adapter.input.accepts value.baseType = true ∧
      ∀ ty, adapter.outputType = some ty → result.baseType = ty := by
  obtain ⟨adapter, isBuiltin, rfl⟩ :=
    List.mem_map.1 (hasAdapter_standard_iff.1 (hasAdapter_of_applyAdapter run))
  have follows := applyAdapter_follows isBuiltin value
  have accepts : adapter.input.accepts value.baseType = true :=
    follows.accepts run (adapter.input, value) List.mem_cons_self
  refine ⟨adapter, find?_adapter adapter isBuiltin, accepts, fun ty isOutput => ?_⟩
  have gives := follows.gives run
  unfold AdapterSignature.Gives at gives
  unfold AdapterSignature.outputType at isOutput
  cases returns : adapter.returns with
  | type t =>
    rw [returns] at gives isOutput
    exact gives.trans (Option.some.inj isOutput)
  | element =>
    rw [returns] at gives
    exact gives.elim
  | sameAsInput =>
    rw [returns] at gives isOutput
    -- what came in is of the one type that the input accepts
    cases input : adapter.input with
    | any =>
      rw [input] at isOutput
      cases isOutput
    | type t =>
      rw [input] at isOutput accepts
      cases isOutput
      exact gives.trans (beq_iff_eq.1 accepts).symm

/-- The two lists of built-ins agree: the implementation of each operation and adapter goes by its
signature, and there are no implementations without one. -/
theorem builtins_match_signatures :
    (∀ op ∈ OperationSignature.builtin, standard.hasBinary op.name = true ∧ ∀ left right,
      Matches op.name (op.bind left right) (op.Gives left right)
        (standard.applyBinary op.name left right) ∧
      ∀ ty result, op.returns = .element → left.element = some ty →
        (∀ items, left.asArray? = some items → ∀ item ∈ items, item.baseType = ty) →
        standard.applyBinary op.name left right = .ok result → result.baseType = ty) ∧
    (∀ adapter ∈ AdapterSignature.builtin, standard.hasAdapter adapter.name = true ∧ ∀ v,
      Matches adapter.name [(adapter.input, v)] (adapter.Gives v)
        (standard.applyAdapter adapter.name v)) ∧
    (∀ name, standard.hasBinary name = true → ∃ op ∈ OperationSignature.builtin, op.name = name) ∧
    ∀ name, standard.hasAdapter name = true →
      ∃ adapter ∈ AdapterSignature.builtin, adapter.name = name := by
  refine ⟨fun op isBuiltin => ⟨?_, fun left right => ?_⟩, fun adapter isBuiltin => ⟨?_, fun v => ?_⟩,
    fun name known => ?_, fun name known => ?_⟩
  · exact hasBinary_standard_iff.2 (List.mem_map_of_mem isBuiltin)
  · have follows := applyBinary_follows isBuiltin left right
    refine ⟨follows.matches, fun ty result returns _ honest run => ?_⟩
    have gives := follows.gives run
    unfold OperationSignature.Gives at gives
    rw [returns] at gives
    obtain ⟨item, ⟨items, _, _, isArray, _, _, here⟩, same⟩ := gives
    exact same.trans (honest items isArray item (List.mem_of_getElem? here))
  · exact hasAdapter_standard_iff.2 (List.mem_map_of_mem isBuiltin)
  · exact (applyAdapter_follows isBuiltin v).matches
  · exact List.mem_map.1 (hasBinary_standard_iff.1 known)
  · exact List.mem_map.1 (hasAdapter_standard_iff.1 known)

/-- Of two arguments that are both of a wrong type, the first is reported. -/
theorem builtins_match_signatures_at :
    (⟨"array::at", .type .array, .type .number, .element⟩ ∈ OperationSignature.builtin) ∧
    standard.applyBinary "array::at" (.string "Ada") .null =
      .error (.error (.typeMismatch "array::at" .array .string)) := by
  have isBuiltin : ⟨"array::at", .type .array, .type .number, .element⟩ ∈ OperationSignature.builtin :=
    by decide
  obtain ⟨-, outcome⟩ := builtins_match_signatures.1 _ isBuiltin
  obtain ⟨goes, -⟩ := outcome (.string "Ada") .null
  obtain ⟨_, ⟨operation, expected, got, rfl⟩, run⟩ :=
    goes.refuses.2 ⟨_, List.mem_cons_self, by decide⟩
  obtain ⟨rfl, first⟩ := goes.names run
  refine ⟨isBuiltin, run.trans ?_⟩
  cases first with
  | here => rfl
  | later accepted => exact absurd accepted (by decide)

end Registry

end TagFlow
