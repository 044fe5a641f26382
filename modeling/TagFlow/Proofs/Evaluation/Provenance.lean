import TagFlow.Proofs.Evaluation.Coupling
import TagFlow.Proofs.Evaluation.Sessions
import TagFlow.Proofs.Spec.Built
import TagFlow.Proofs.Typing.Soundness

/-!
# Tags tell where a value comes from

Rows that carry a tag are changed, to others that carry it too; whatever comes of them carries the tag.
So a result without the tag has nothing to do with these rows, and is the same as before
(`Spec.untagged_result_unaffected`).

There is one way around: a cond whose condition carries the tag may take the other branch, and its
result does not carry the tags of the condition. The conds that are evaluated must not read such a
condition.

The proof runs both evaluations side by side, and keeps every value of the one equal to that of the
other unless both carry the tag. They may as well be in one session, as neither depends on which it is in.
-/

namespace TagFlow

/-- Two values are the same, unless both carry the tag. -/
def Value.SameUnless (tag : Tag) (value value' : Value) : Prop :=
  value = value' ∨ tag ∈ value.tags ∧ tag ∈ value'.tags

/-- Two tables have the same rows, but for the contents of rows that carry the tag in both. -/
def ValueTable.DiffersBehind (tag : Tag) (table table' : ValueTable) : Prop :=
  ∀ id : ValueId, Option.Rel (Value.SameUnless tag) table[id]? table'[id]?

/-- The values that conds read of their conditions in the evaluation of a node, in order. -/
def Context.conditionsRead (c : Context) (registry : Registry) (root : Node) (session : Nat) :
    List Value :=
  (Evaluator.mk c registry false).conditionsRead root session

/-- Changing a row that carries the tag, to another that does. -/
theorem ValueTable.differsBehind_insert {table : ValueTable} {tag : Tag} {id : ValueId}
    {old new : Value} (here : table[id]? = some old) (tagged : tag ∈ old.tags)
    (tagged' : tag ∈ new.tags) : table.DiffersBehind tag (table.insert id new) := by
  intro other
  rw [Table.getElem?_insert]
  split
  · next same =>
    rw [← same, here]
    exact .some (.inr ⟨tagged, tagged'⟩)
  · cases table[other]? with
    | none => exact .none
    | some value => exact .some (.inl rfl)

namespace Coupling

/-- Runs that both succeed, with values that are the same unless both carry the tag. -/
def behind (tag : Tag) : Coupling where
  values := Value.SameUnless tag
  strict := False

/-- Where runs that stop are not compared, all that matters is what both give. -/
theorem results_of_lenient {k : Coupling} {α β : Type} {ok : α → β → Prop} {x : Except Halt α}
    {y : Except Halt β} (lenient : ¬ k.strict)
    (both : ∀ a b, x = .ok a → y = .ok b → ok a b) : k.Results ok x y := by
  match x, y with
  | .ok a, .ok b => exact both a b rfl rfl
  | .error _, .error _ => exact fun strict => absurd strict lenient
  | .ok _, .error _ | .error _, .ok _ => exact lenient

end Coupling

namespace Evaluator

variable {m : Evaluator} {tag : Tag}

/-- A tag of an argument goes through its adapter and the operation to the result. -/
theorem mem_tags_of_combine (carries : m.registry.Carries tag) {function : FunctionId}
    {d : CombineDefinition} {left right value : Value}
    (ran : m.combine function d left right = .ok value)
    (tagged : tag ∈ left.tags ∨ tag ∈ right.tags) : tag ∈ value.tags := by
  obtain ⟨first, second, adapted, adapted', applied⟩ := combine_eq_ok ran
  exact carries.binary applied (tagged.imp (carries.adapter adapted) (carries.adapter adapted'))

/-- Operations that hand on the tag keep values the same unless they carry it. -/
theorem respects_behind (carries : m.registry.Carries tag) : m.Respects (.behind tag) := by
  intro function d left left' right right' first second
  refine Coupling.results_of_lenient id fun value value' ran ran' => ?_
  rcases first with rfl | ⟨tagged, tagged'⟩
  · rcases second with rfl | ⟨tagged, tagged'⟩
    · cases ran.symm.trans ran'
      exact .inl rfl
    · exact .inr ⟨mem_tags_of_combine carries ran (.inr tagged),
        mem_tags_of_combine carries ran' (.inr tagged')⟩
  · exact .inr ⟨mem_tags_of_combine carries ran (.inl tagged),
      mem_tags_of_combine carries ran' (.inl tagged')⟩

end Evaluator

namespace Spec

open Evaluator

/-- A result that does not carry a tag is the same after rows that carry the tag have been changed, to
others that carry it: if no cond that was evaluated read a condition with the tag. -/
theorem untagged_result_unaffected {spec : Spec} {session scratch scratch' : Nat} {built : Built}
    (run : spec.build session = .ok built) (apart : scratch ≠ session) (apart' : scratch' ≠ session)
    {tag : Tag} {values : ValueTable}
    (differs : built.context.values.DiffersBehind tag values) {root : Node}
    {first second : Evaluation} (ran : built.context.evaluate .standard root scratch = .ok first)
    (ran' : (built.context.setValues values).evaluate .standard root scratch' = .ok second)
    (untagged : tag ∉ first.value.tags)
    (conditions : ∀ flag ∈ built.context.conditionsRead .standard root scratch, tag ∉ flag.tags) :
    second.value = first.value := by
  have orderly := (compiled_of_build run).orderly
  have fresh := freshIn_of_build run apart
  have fresh' := freshIn_of_build run apart'
  let m : Evaluator := ⟨built.context, .standard, false⟩
  have flags : ∀ flag ∈ m.conditionsRead root scratch, ∀ flag', Value.SameUnless tag flag flag' →
      flag = flag' := by
    rintro flag isFlag flag' (same | ⟨tagged, -⟩)
    · exact same
    · exact absurd tagged (conditions flag isFlag)
  have coupled := evaluate_couples (m := m) (k := .behind tag)
    (respects_behind (Registry.standard_carries tag)) orderly.exact orderly.apart
    (fun id _ => differs id) flags
  -- the second evaluation gives the same in the session of the first
  have ran' : (m.onTable values).evaluate root scratch = .ok second := by
    rw [← ran']
    exact Context.evaluate_session (fresh'.setValues values) (fresh.setValues values) .standard root
  rw [show m.evaluate root scratch = .ok first from ran, ran'] at coupled
  obtain ⟨same | ⟨tagged, -⟩, -⟩ := coupled
  · exact same.symm
  · exact absurd tagged untagged

/-! ### An instance

A pipe is given a secret and has a step on it, but returns what another step gives. -/

namespace Masking

def entries : List (String × SpecEntry) :=
  [ ("show", .function (.cond "open" "mask" "reveal"))
  , ("mask", .function (.pipe [("who", ⟨.output "word", none⟩), ("pin", ⟨.value "pin", none⟩)]
      [ .combine ⟨"string::concat", [("a", ⟨.input "pin", none⟩), ("b", ⟨.input "who", none⟩)]⟩
      , .combine ⟨"string::concat", [("a", ⟨.input "who", none⟩), ("b", ⟨.name "name", none⟩)]⟩ ]))
  , ("reveal", .function (.combine ⟨"string::concat",
      [("a", ⟨.value "name", none⟩), ("b", ⟨.value "pin", none⟩)]⟩))
  , ("word", .function (.combine ⟨"string::concat",
      [("a", ⟨.value "name", none⟩), ("b", ⟨.name "name", none⟩)]⟩))
  , ("name", .literal (.string "Ada"))
  , ("pin", .literal ((Value.string "1234").withTag "secret"))
  , ("open", .literal (.boolean true)) ]

/-- What the pin is changed to. -/
def newPin : Value := ((Value.string "567890").withTag "secret").withTag "rotated"

end Masking

def masking : Spec := ⟨Masking.entries, by decide⟩

namespace Masking

/-- The graph of the spec, and the evaluations of `show` before and after the pin is changed. -/
theorem exists_runs : ∃ built pin old root first second, masking.build 7 = .ok built ∧
    built.literal? "pin" = some pin ∧ built.context.values[pin]? = some old ∧ "secret" ∈ old.tags ∧
    built.node? "show" = some root ∧ built.context.evaluate .standard root 8 = .ok first ∧
    (built.context.setValues (built.context.values.insert pin newPin)).evaluate .standard root 9 =
      .ok second ∧
    "secret" ∉ first.value.tags ∧ first.value.asString? = some "AdaAdaAda" ∧
    ∀ flag ∈ built.context.conditionsRead .standard root 8, "secret" ∉ flag.tags := by
  have holds : ((masking.build 7).toOption.any fun built =>
      (built.literal? "pin").any fun pin => (built.node? "show").any fun root =>
      (built.context.values[pin]?).any fun old =>
      (built.context.evaluate .standard root 8).toOption.any fun first =>
      ((built.context.setValues (built.context.values.insert pin newPin)).evaluate .standard
        root 9).toOption.any fun _ =>
        decide ("secret" ∈ old.tags ∧ "secret" ∉ first.value.tags ∧
          first.value.asString? = some "AdaAdaAda" ∧
          ∀ flag ∈ built.context.conditionsRead .standard root 8, "secret" ∉ flag.tags)) = true := by
    decide +kernel
  obtain ⟨built, builds, holds⟩ := (Option.any_eq_true _ _).1 holds
  obtain ⟨pin, named, holds⟩ := (Option.any_eq_true _ _).1 holds
  obtain ⟨root, isRoot, holds⟩ := (Option.any_eq_true _ _).1 holds
  obtain ⟨old, row, holds⟩ := (Option.any_eq_true _ _).1 holds
  obtain ⟨first, ran, holds⟩ := (Option.any_eq_true _ _).1 holds
  obtain ⟨second, ran', holds⟩ := (Option.any_eq_true _ _).1 holds
  obtain ⟨tagged, untagged, gives, conditions⟩ := of_decide_eq_true holds
  exact ⟨built, pin, old, root, first, second, Result.eq_ok_of_toOption builds, named, row, tagged,
    isRoot, Result.eq_ok_of_toOption ran, Result.eq_ok_of_toOption ran', untagged, gives, conditions⟩

end Masking

open Masking in
theorem untagged_result_unaffected_masking :
    ∃ built pin root first second, (masking.build 7 = .ok built ∧ (8 : Nat) ≠ 7 ∧
        (9 : Nat) ≠ 7 ∧ built.context.values.DiffersBehind "secret" (built.context.values.insert pin newPin) ∧
        built.context.evaluate .standard root 8 = .ok first ∧
        (built.context.setValues (built.context.values.insert pin newPin)).evaluate .standard root 9 =
          .ok second ∧
        "secret" ∉ first.value.tags ∧
        ∀ flag ∈ built.context.conditionsRead .standard root 8, "secret" ∉ flag.tags) ∧
      built.literal? "pin" = some pin ∧ built.node? "show" = some root ∧
      first.value.asString? = some "AdaAdaAda" ∧ second.value = first.value := by
  obtain ⟨built, pin, old, root, first, second, builds, named, row, tagged, isRoot, ran, ran',
    untagged, gives, conditions⟩ := exists_runs
  have tagged' : "secret" ∈ newPin.tags := by decide +kernel
  have differs := ValueTable.differsBehind_insert row tagged tagged'
  have apart : (8 : Nat) ≠ 7 := by decide
  have apart' : (9 : Nat) ≠ 7 := by decide
  exact ⟨built, pin, root, first, second,
    ⟨builds, apart, apart', differs, ran, ran', untagged, conditions⟩, named, isRoot, gives,
    untagged_result_unaffected builds apart apart' differs ran ran' untagged conditions⟩

end Spec

end TagFlow
