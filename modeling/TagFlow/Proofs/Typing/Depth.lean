import TagFlow.Proofs.Graph.Producers
import TagFlow.Proofs.Mint
import TagFlow.Typing

/-!
# How far types are followed

The type of a function is that at the end of a chain of conds, from one then-branch to the next, if the
chain is no longer than inference goes down (`functionTypeWithin_eq_some_iff`). Going from a value to its
producer takes a level as well. So asking for the type of a value gives the same answer as asking for
that of its producer, unless the producer is at the start of a chain of just `maxDepth` conds: then only
the function has a type (`valueType_eq_functionType_iff`, `valueType_ne_functionType`). Chains that run
in a circle have no end, and give no type either way.
-/

namespace TagFlow.Context

variable {c : Context} {function next last last' : FunctionId} {ty : BaseType}

/-- The type of a combine or a pipe, which depends on no other function. -/
def ownType? (c : Context) (function : FunctionId) : Option BaseType :=
  match c.functions[function]? with
  | some (.combine definition args _) =>
    c.combineType definition (args.values.head?.bind c.elementOf?)
  | some (.pipe definition _ _) => c.pipeType 1 definition
  | _ => none

/-- The function is a cond, and the other one is its then-branch. -/
def Branches (c : Context) (function next : FunctionId) : Prop :=
  ∃ definition returns d, c.functions[function]? = some (.cond definition returns) ∧
    c.conds[definition]? = some d ∧ d.thenBranch = next

/-- So many conds lead from the first function to the last, each by its then-branch. -/
inductive ThenChain (c : Context) : Nat → FunctionId → FunctionId → Prop
  | refl {function : FunctionId} : ThenChain c 0 function function
  | step {n : Nat} {function next last : FunctionId} : c.Branches function next → ThenChain c n next last →
      ThenChain c (n + 1) function last

/-! ### Chains -/

theorem Branches.unique {other : FunctionId} (branches : c.Branches function next)
    (branches' : c.Branches function other) : next = other := by
  obtain ⟨definition, _, d, known, found, rfl⟩ := branches
  obtain ⟨_, _, d', known', found', rfl⟩ := branches'
  cases known.symm.trans known'
  cases found.symm.trans found'
  rfl

/-- A cond has no type of its own. -/
theorem Branches.ownType? (branches : c.Branches function next) : c.ownType? function = none := by
  obtain ⟨_, _, _, known, -⟩ := branches
  unfold Context.ownType?
  simp only [known]

/-- A chain to a function with a type of its own ends there: no chain from the same function is
longer. -/
theorem ThenChain.length_le {n n' : Nat} (chain : c.ThenChain n function last)
    (typed : c.ownType? last = some ty) (chain' : c.ThenChain n' function last') : n' ≤ n := by
  induction chain generalizing n' with
  | refl =>
    cases chain' with
    | refl => exact Nat.le_refl 0
    | step branches _ => cases typed.symm.trans branches.ownType?
  | step branches _ ih =>
    cases chain' with
    | refl => exact Nat.zero_le _
    | step branches' chain' =>
      cases branches.unique branches'
      exact Nat.succ_le_succ (ih typed chain')

/-! ### Types at the ends of chains -/

theorem functionTypeWithin_zero : c.functionTypeWithin 0 function = c.ownType? function := by
  rw [functionTypeWithin.eq_def]
  unfold ownType?
  cases known : c.functions[function]? with
  | none => simp [known]
  | some entry => cases entry <;> simp [known]

/-- A type is that of the function itself, or is found one level further down. -/
theorem functionTypeWithin_succ {levels : Nat} :
    c.functionTypeWithin (levels + 1) function = some ty ↔ c.ownType? function = some ty ∨
      ∃ next, c.Branches function next ∧ c.functionTypeWithin levels next = some ty := by
  rw [functionTypeWithin.eq_def]
  unfold ownType? Branches
  cases known : c.functions[function]? with
  | none => simp [known]
  | some entry =>
    cases entry with
    | combine definition args returns => simp [known]
    | pipe definition args returns => simp [known]
    | cond definition returns => cases found : c.conds[definition]? <;> simp [known, found]

/-- The type of a function is the one at the end of its chain, if the chain is not too long. -/
theorem functionTypeWithin_eq_some_iff : ∀ {levels : Nat} {function : FunctionId},
    c.functionTypeWithin levels function = some ty ↔
      ∃ n last, n ≤ levels ∧ c.ThenChain n function last ∧ c.ownType? last = some ty
  | 0, function => by
    rw [functionTypeWithin_zero]
    constructor
    · intro typed
      exact ⟨0, function, Nat.le_refl 0, .refl, typed⟩
    · rintro ⟨n, last, short, chain, typed⟩
      cases Nat.le_zero.1 short
      cases chain
      exact typed
  | levels + 1, function => by
    rw [functionTypeWithin_succ]
    constructor
    · rintro (typed | ⟨next, branches, typed⟩)
      · exact ⟨0, function, Nat.zero_le _, .refl, typed⟩
      · obtain ⟨n, last, short, chain, typed⟩ := functionTypeWithin_eq_some_iff.1 typed
        exact ⟨n + 1, last, Nat.succ_le_succ short, .step branches chain, typed⟩
    · rintro ⟨n, last, short, chain, typed⟩
      cases chain with
      | refl => exact .inl typed
      | step branches chain =>
        exact .inr ⟨_, branches, functionTypeWithin_eq_some_iff.2
          ⟨_, last, Nat.le_of_succ_le_succ short, chain, typed⟩⟩

/-! ### Values and their producers -/

/-- The type of a value that is no row takes one level more than that of its producer. -/
theorem valueType_of_producer {value : ValueId} (noRow : c.values[value]? = none)
    (produced : c.producerOf? value = some function) :
    c.valueType value = c.functionTypeWithin (maxDepth - 1) function := by
  unfold valueType
  rw [noRow, produced]
  rfl

/-- At the start of a chain that is not too long, a function has the type at the end. -/
theorem functionType_of_thenChain {n : Nat} (chain : c.ThenChain n function last)
    (typed : c.ownType? last = some ty) (short : n ≤ maxDepth) : c.functionType function = some ty :=
  functionTypeWithin_eq_some_iff.2 ⟨n, last, short, chain, typed⟩

/-- What a function writes has no type if the chain is as long as inference goes down. -/
theorem valueType_of_thenChain {value : ValueId} (noRow : c.values[value]? = none)
    (produced : c.producerOf? value = some function) (chain : c.ThenChain maxDepth function last) :
    c.valueType value = none := by
  rw [valueType_of_producer noRow produced, Option.eq_none_iff_forall_ne_some]
  intro ty' found
  obtain ⟨n, last', short, chain', typed'⟩ := functionTypeWithin_eq_some_iff.1 found
  have long : maxDepth ≤ n := chain'.length_le typed' chain
  exact absurd (Nat.le_trans long short) (by decide)

/-- Where conds lead on and on there is no type. -/
theorem functionTypeWithin_of_endless {levels : Nat}
    (endless : ∀ n, ∃ last, c.ThenChain n function last) :
    c.functionTypeWithin levels function = none := by
  rw [Option.eq_none_iff_forall_ne_some]
  intro ty found
  obtain ⟨n, last, -, chain, typed⟩ := functionTypeWithin_eq_some_iff.1 found
  -- one cond more leads on from where the chain would end
  obtain ⟨last', chain'⟩ := endless (n + 1)
  exact absurd (chain.length_le typed chain') (Nat.not_succ_le_self n)

/-- The type of a value that is no row and the type of its producer are the same, unless the producer is
the first of just `maxDepth` conds on the way to a function with a type of its own. In that case the
function has the type and the value has none. On a way that does not end neither has a type. -/
theorem valueType_eq_functionType_iff {value : ValueId} (noRow : c.values[value]? = none)
    (produced : c.producerOf? value = some function) :
    (c.valueType value = c.functionType function ↔
      ¬ ∃ last ty, c.ThenChain maxDepth function last ∧ c.ownType? last = some ty) ∧
    (∀ last ty, c.ThenChain maxDepth function last → c.ownType? last = some ty →
      c.functionType function = some ty ∧ c.valueType value = none) ∧
    ((∀ n, ∃ last, c.ThenChain n function last) →
      c.functionType function = none ∧ c.valueType value = none) := by
  have differ : ∀ last ty, c.ThenChain maxDepth function last → c.ownType? last = some ty →
      c.functionType function = some ty ∧ c.valueType value = none :=
    fun last ty chain typed => ⟨functionType_of_thenChain chain typed (Nat.le_refl _),
      valueType_of_thenChain noRow produced chain⟩
  refine ⟨⟨?_, fun none => ?_⟩, differ, fun endless => ⟨functionTypeWithin_of_endless endless, ?_⟩⟩
  · rintro same ⟨last, ty, chain, typed⟩
    obtain ⟨ofFunction, ofValue⟩ := differ last ty chain typed
    cases ofValue.symm.trans (same.trans ofFunction)
  · rw [valueType_of_producer noRow produced]
    ext ty
    unfold functionType
    rw [functionTypeWithin_eq_some_iff, functionTypeWithin_eq_some_iff]
    constructor
    · rintro ⟨n, last, short, chain, typed⟩
      exact ⟨n, last, by omega, chain, typed⟩
    · rintro ⟨n, last, short, chain, typed⟩
      have shorter : n ≠ maxDepth := by
        rintro rfl
        exact none ⟨last, ty, chain, typed⟩
      exact ⟨n, last, by omega, chain, typed⟩
  · rw [valueType_of_producer noRow produced]
    exact functionTypeWithin_of_endless endless

/-! ### An instance

A sum, and conds above it, each of which has the one below for both branches. -/

namespace Ladder

def rung (n : Nat) : FunctionId := ⟨Mint.idText .function "rung" 0 n, Mint.idText_ne _ _ _ _⟩
def output (n : Nat) : ValueId := ⟨Mint.idText .value "rung" 0 n, Mint.idText_ne _ _ _ _⟩
def choice (n : Nat) : CondId := ⟨Mint.idText .cond "rung" 0 n, Mint.idText_ne _ _ _ _⟩
def always : ValueId := ⟨"v:always", by decide⟩
def slot : ValueId := ⟨"v:slot", by decide⟩
def sum : CombineId := ⟨"cd:sum", by decide⟩

theorem rung_ne {n k : Nat} (different : n ≠ k) : rung n ≠ rung k :=
  fun same => different (Mint.idText_serial (congrArg Id.text same))

theorem choice_ne {n k : Nat} (different : n ≠ k) : choice n ≠ choice k :=
  fun same => different (Mint.idText_serial (congrArg Id.text same))

end Ladder

open Ladder in
/-- The ladder with so many conds. -/
def ladder : Nat → Context
  | 0 => empty.insertCombine sum ⟨"number::add", ⟨slot, "number::pass"⟩, ⟨slot, "number::pass"⟩⟩
      |>.insertFunction (rung 0) (.combine sum .empty (output 0))
  | n + 1 => (ladder n).insertCond (choice (n + 1)) ⟨.value always, rung n, rung n⟩
      |>.insertFunction (rung (n + 1)) (.cond (choice (n + 1)) (output (n + 1)))

namespace Ladder

theorem reachable : ∀ n, (ladder n).Reachable
  | 0 => .insertFunction _ _ <| .insertCombine _ _ .empty
  | n + 1 => .insertFunction _ _ <| .insertCond _ _ (reachable n)

/-- The last function was inserted last, so its output is its own. -/
theorem producerOf?_output (n : Nat) : (ladder n).producerOf? (output n) = some (rung n) := by
  cases n with
  | zero => exact producerOf?_insertFunction_self _ _ (.combine sum .empty (output 0))
  | succ n =>
    exact producerOf?_insertFunction_self _ _ (.cond (choice (n + 1)) (output (n + 1)))

/-- The tables of a ladder. -/
structure Tables (n : Nat) (c : Context) : Prop where
  values : c.values = ∅
  combines : c.combines = (ladder 0).combines
  ground : c.functions[rung 0]? = some (.combine sum .empty (output 0))
  conds : ∀ k < n, c.functions[rung (k + 1)]? = some (.cond (choice (k + 1)) (output (k + 1))) ∧
    c.conds[choice (k + 1)]? = some ⟨.value always, rung k, rung k⟩

theorem tables : ∀ n, Tables n (ladder n)
  | 0 => ⟨rfl, rfl, Table.getElem?_insert_self, fun _ below => nomatch below⟩
  | n + 1 => by
    have before := tables n
    obtain ⟨producers, same⟩ := ((ladder n).insertCond (choice (n + 1))
      ⟨.value always, rung n, rung n⟩).exists_insertFunction (rung (n + 1))
        (.cond (choice (n + 1)) (output (n + 1)))
    rw [show ladder (n + 1) = _ from same]
    refine ⟨before.values, before.combines, ?_, fun k below => ?_⟩
    · exact (Table.getElem?_insert_of_ne (rung_ne (Nat.succ_ne_zero n))).trans before.ground
    · rcases Nat.lt_succ_iff_lt_or_eq.1 below with below | rfl
      · have apart : n + 1 ≠ k + 1 := by omega
        exact ⟨(Table.getElem?_insert_of_ne (rung_ne apart)).trans (before.conds k below).1,
          (Table.getElem?_insert_of_ne (choice_ne apart)).trans (before.conds k below).2⟩
      · exact ⟨Table.getElem?_insert_self, Table.getElem?_insert_self⟩

/-- From the top of a ladder a chain of all its conds leads to the ground. -/
theorem thenChain {n : Nat} {c : Context} (tables : Tables n c) : ∀ {k : Nat}, k ≤ n →
    c.ThenChain k (rung k) (rung 0)
  | 0, _ => .refl
  | k + 1, below => .step ⟨_, _, _, (tables.conds k below).1, (tables.conds k below).2, rfl⟩
      (thenChain tables (Nat.le_of_succ_le below))

theorem ownType?_ground {n : Nat} {c : Context} (tables : Tables n c) :
    c.ownType? (rung 0) = some .number := by
  unfold ownType?
  rw [tables.ground]
  show c.combineType sum none = some .number
  unfold combineType
  rw [tables.combines]
  decide +kernel

theorem values_eq_none (n : Nat) (value : ValueId) : (ladder n).values[value]? = none := by
  rw [(tables n).values]
  exact Std.ExtTreeMap.getElem?_empty

end Ladder

open Ladder in
/-- With a cond less than inference goes down, the last value has the type of its function. With one
more it has none, though its function does. -/
theorem valueType_eq_functionType_iff_ladder :
    ((ladder 63).Reachable ∧
      (ladder 63).values[output 63]? = none ∧ (ladder 63).producerOf? (output 63) = some (rung 63) ∧
      (ladder 64).Reachable ∧
      (ladder 64).values[output 64]? = none ∧ (ladder 64).producerOf? (output 64) = some (rung 64)) ∧
    (ladder 63).valueType (output 63) = (ladder 63).functionType (rung 63) ∧
    (ladder 64).functionType (rung 64) = some .number ∧ (ladder 64).valueType (output 64) = none := by
  obtain ⟨same, -⟩ := valueType_eq_functionType_iff (values_eq_none 63 _) (producerOf?_output 63)
  obtain ⟨-, differ, -⟩ := valueType_eq_functionType_iff (values_eq_none 64 _) (producerOf?_output 64)
  refine ⟨⟨reachable 63, values_eq_none 63 _, producerOf?_output 63, reachable 64,
    values_eq_none 64 _, producerOf?_output 64⟩, same.2 ?_,
    differ (rung 0) .number (thenChain (tables 64) (Nat.le_refl 64)) (ownType?_ground (tables 64))⟩
  rintro ⟨last, ty, long, -⟩
  have short := (thenChain (tables 63) (Nat.le_refl 63)).length_le (ownType?_ground (tables 63)) long
  exact absurd short (by decide)

open Ladder in
/-- Asking by the value and asking by its producer may give different answers. -/
theorem ladder_types_differ : (ladder 64).Reachable ∧
    (ladder 64).values[output 64]? = none ∧
    (ladder 64).producerOf? (output 64) = some (rung 64) ∧
    (ladder 64).valueType (output 64) ≠ (ladder 64).functionType (rung 64) := by
  have chain := thenChain (tables 64) (Nat.le_refl 64)
  refine ⟨reachable 64, values_eq_none 64 _, producerOf?_output 64, ?_⟩
  rw [valueType_of_thenChain (values_eq_none 64 _) (producerOf?_output 64) chain,
    functionType_of_thenChain chain (ownType?_ground (tables 64)) (Nat.le_refl _)]
  simp

end TagFlow.Context
