import Mathlib.Data.List.Forall2
import TagFlow.Evaluation.Run
import TagFlow.Proofs.Mint

/-!
# Scratch identifiers

The scope of a pipe is one table, in which the slots of the inputs stand beside the scratch identifiers
of the steps. That a step leaves alone what is there rests on its identifier being new. The outputs of
other steps have other serial numbers (`Issued.getElem?_advance`), whatever the graph is. Everything
else is safe if it is not of the session (`getElem?_advance_of_fresh`): then no two evaluations can read
different things from their scopes. A graph may hold texts that look like scratch identifiers;
`Context.FreshIn` says that where a pipe could tell, it does not.
-/

namespace TagFlow

/-- The identifier is one that a mint of this session may issue. -/
def Id.OfSession {kind : IdKind} (id : Id kind) (session : Nat) : Prop :=
  ∃ (kind' : IdKind) (label : String) (serial : Nat), id.text = Mint.idText kind' label session serial

namespace Id

variable {kind : IdKind} {id : Id kind} {session session' : Nat}

theorem OfSession.eq (here : id.OfSession session) (there : id.OfSession session') :
    session = session' := by
  obtain ⟨_, _, _, text⟩ := here
  obtain ⟨_, _, _, text'⟩ := there
  exact Mint.idText_session (text.symm.trans text')

/-- The identifiers of sessions have a `#` in their texts. -/
theorem not_ofSession (noHash : '#' ∉ id.text.toList) (session : Nat) : ¬ id.OfSession session := by
  rintro ⟨kind', label, serial, text⟩
  rw [text, Mint.toList_idText] at noHash
  exact noHash (by simp)

end Id

namespace Scratch

variable {scratch : Scratch} {function function' : FunctionId} {index index' : Nat}

theorem ofSession_next : (scratch.next function index).OfSession scratch.session :=
  ⟨_, _, _, rfl⟩

@[simp] theorem session_skip (count : Nat) : (scratch.skip count).session = scratch.session := rfl

/-- Identifiers that were issued at different moments are different. -/
theorem next_ne {earlier later : Nat} (before : earlier < later) :
    (scratch.skip earlier).next function index ≠ (scratch.skip later).next function' index' := by
  intro same
  have serials : scratch.issued + earlier + 1 = scratch.issued + later + 1 :=
    Mint.idText_serial (congrArg Id.text same)
  omega

end Scratch

namespace Evaluator

variable {scratch : Scratch} {function : FunctionId} {s : PipeProgress} {value : Value}
  {inside : Nat} {id : ValueId}

theorem PipeProgress.last?_eq_output? (s : PipeProgress) :
    s.last? = s.output? (s.outputs.length - 1) := by
  unfold PipeProgress.last? PipeProgress.output?
  rw [List.getLast?_eq_getElem?]

/-- What is no output of a step stays as it is, if it is not of the session. -/
theorem getElem?_advance_of_fresh (fresh : ¬ id.OfSession scratch.session) :
    (advance function scratch s value inside).scope[id]? = s.scope[id]? := by
  apply Table.getElem?_insert_of_ne
  rintro rfl
  exact fresh Scratch.ofSession_next

/-- The outputs of the steps so far were issued here, at different moments. -/
def Issued (function : FunctionId) (scratch : Scratch) (s : PipeProgress) : Prop :=
  ∀ id ∈ s.outputs, ∃ moment < s.count, ∃ index, id = (scratch.skip moment).next function index

theorem Issued.start (scope : ValueTable) : Issued function scratch (.start scope) := by
  intro id isOutput
  cases isOutput

/-- A step leaves the outputs of earlier steps alone. -/
theorem Issued.getElem?_advance (issued : Issued function scratch s) (isOutput : id ∈ s.outputs) :
    (advance function scratch s value inside).scope[id]? = s.scope[id]? := by
  apply Table.getElem?_insert_of_ne
  obtain ⟨moment, earlier, index, rfl⟩ := issued id isOutput
  exact (Scratch.next_ne (by omega)).symm

/-- What the outputs of earlier steps hold is related to the same as before. -/
theorem Issued.forall₂_advance {α : Type} {R : Option Value → α → Prop} {others : List α}
    (issued : Issued function scratch s)
    (related : List.Forall₂ (fun id other => R s.scope[id]? other) s.outputs others)
    (value : Value) (inside : Nat) :
    List.Forall₂ (fun id other => R (advance function scratch s value inside).scope[id]? other)
      s.outputs others := by
  have both := (List.forall₂_and_left _ _).2 ⟨fun id isOutput => isOutput, related⟩
  refine both.imp fun id other here => ?_
  rw [issued.getElem?_advance here.1]
  exact here.2

theorem Issued.advance (issued : Issued function scratch s) :
    Issued function scratch (advance function scratch s value inside) := by
  intro id isOutput
  have count : (Evaluator.advance function scratch s value inside).count = s.count + 1 + inside := rfl
  rw [count]
  rcases List.mem_append.1 isOutput with before | here
  · obtain ⟨moment, earlier, index, rfl⟩ := issued id before
    exact ⟨moment, by omega, index, rfl⟩
  · rw [List.mem_singleton.1 here]
    exact ⟨s.count + inside, by omega, _, rfl⟩

end Evaluator

namespace Context

/-- Nothing that a pipe may look up in its scope by an identifier of its own looks like a scratch
identifier of the session: no slot of an input, and no absolute value. -/
structure FreshIn (c : Context) (session : Nat) : Prop where
  slots : ∀ {id : PipeId} {d : PipeDefinition}, c.pipes[id]? = some d → ∀ input ∈ d.inputs,
    ¬ input.slot.OfSession session
  absolute : ∀ {id : PipeId} {d : PipeDefinition}, c.pipes[id]? = some d → ∀ step ∈ d.steps,
    ∀ name value, (name, Source.value value) ∈ step.args → ¬ value.OfSession session

/-- Rows play no part in this. -/
theorem FreshIn.setValues {c : Context} {session : Nat} (fresh : c.FreshIn session)
    (values : ValueTable) : (c.setValues values).FreshIn session := ⟨fresh.slots, fresh.absolute⟩

end Context

end TagFlow
