import Mathlib.Logic.Function.Basic
import TagFlow.Proofs.Mint

/-!
# Several mints side by side

The text of an identifier tells the session and the serial number of the mint that issued it, whatever
the label is, and even if the label looks like an identifier (`idText_session`, `idText_serial`).
So mints with different sessions never issue the same text, in any history of calls, and what a mint
knows about an identifier is what was said about just that one (`identifiers_never_collide`). In a
history each call is to one mint; `Kept` is what every call keeps.
-/

namespace TagFlow.Mint

/-! ### What a call to a mint keeps -/

section one

variable {mint : Mint} {kind : IdKind} {label : String} {origin : Origin} {session : Nat}

theorem Counted.size_issue (counted : mint.Counted) :
    (mint.issue kind label origin).2.size = mint.size + 1 := by
  have fresh := counted.fresh kind label origin
  have absent : (mint.issue kind label origin).1.text ∉ mint.records := by
    rw [Std.ExtTreeMap.mem_iff_contains, Table.contains_iff]
    rintro ⟨known, found⟩
    exact absurd (fresh.symm.trans found) (by simp)
  exact Std.ExtTreeMap.size_insert.trans (if_neg absent)

theorem size_recordType (mint : Mint) (id : Id kind) (ty : BaseType) :
    (mint.recordType id ty).size = mint.size := by
  unfold recordType
  split
  · next known found =>
    have present : id.text ∈ mint.records := by
      rw [Std.ExtTreeMap.mem_iff_contains, Table.contains_iff]
      exact ⟨known, found⟩
    exact Std.ExtTreeMap.size_insert.trans (if_pos present)
  · rfl

/-- An identifier that has no record is not known, and recording a type for it changes nothing. -/
theorem unknown_of_record? {id : Id kind} (unknown : mint.record? id = none) :
    mint.knows id = false ∧ ∀ ty, mint.recordType id ty = mint := by
  refine ⟨?_, fun ty => ?_⟩
  · rw [knows, unknown]
    rfl
  · rw [recordType, unknown]

/-- The mint has this session, and just one record for each identifier that it has issued. -/
structure Kept (session : Nat) (mint : Mint) : Prop where
  session : mint.session = session
  counted : mint.Counted
  size : mint.size = mint.issued

theorem kept_new (session : Nat) : (Mint.new session).Kept session where
  session := rfl
  counted := counted_new session
  size := Std.ExtTreeMap.size_empty

theorem Kept.issue (kept : mint.Kept session) :
    (mint.issue kind label origin).2.Kept session where
  session := kept.session
  counted := kept.counted.issue
  size := by rw [kept.counted.size_issue, kept.size]; rfl

theorem Kept.recordType (kept : mint.Kept session) (id : Id kind) (ty : BaseType) :
    (mint.recordType id ty).Kept session where
  session := (counters_recordType? mint id (some ty)).1.trans kept.session
  counted := kept.counted.recordType? id (some ty)
  size := by
    rw [size_recordType, kept.size]
    exact (counters_recordType? mint id (some ty)).2.symm

/-- A mint knows nothing about an identifier of another session. -/
theorem Kept.unknown (kept : mint.Kept session) {id : Id kind} {label : String} {other serial : Nat}
    (issued : id.text = idText kind label other serial) (different : other ≠ session) :
    mint.record? id = none := by
  cases found : mint.record? id with
  | none => rfl
  | some known =>
    obtain ⟨_, _, _, same, -⟩ := kept.counted id.text known found
    rw [issued, kept.session] at same
    exact absurd (idText_session same) different

end one

/-! ### Calls -/

/-- A call to one of several mints. -/
inductive Call (ι : Type) where
  /-- Issue an identifier. -/
  | issue (mint : ι) (kind : IdKind) (label : String) (origin : Origin)
  /-- Record a type for an identifier, which may be one of another mint or of none. -/
  | record (mint : ι) (kind : IdKind) (id : Id kind) (ty : BaseType)

/-- Mints that have issued nothing, with these sessions. -/
def start {ι : Type} (session : ι → Nat) : ι → Mint := fun i => .new (session i)

variable {ι : Type} [DecidableEq ι]

namespace Call

/-- What a call makes of the mints. -/
def run (mints : ι → Mint) : Call ι → ι → Mint
  | issue i kind label origin => Function.update mints i ((mints i).issue kind label origin).2
  | record i _ id ty => Function.update mints i ((mints i).recordType id ty)

/-- The text that a call issues. -/
def text? (mints : ι → Mint) : Call ι → Option String
  | issue i kind label origin => some ((mints i).issue kind label origin).1.text
  | record _ _ _ _ => none

/-- Whether the call issues an identifier of this mint. -/
def issues (i : ι) : Call ι → Bool
  | issue j _ _ _ => j = i
  | record _ _ _ _ => false

/-- The type that the call records for this identifier with this mint. -/
def recorded? (i : ι) (text : String) : Call ι → Option BaseType
  | issue _ _ _ _ => none
  | record j _ id ty => if j = i ∧ id.text = text then some ty else none

end Call

/-- The mints after a history of calls. -/
def after (mints : ι → Mint) (calls : List (Call ι)) : ι → Mint := calls.foldl Call.run mints

/-- The texts that are issued in a history, in order. -/
def texts : (ι → Mint) → List (Call ι) → List String
  | _, [] => []
  | mints, call :: rest => (call.text? mints).toList ++ texts (call.run mints) rest

/-- The type that was recorded last for this identifier with this mint. -/
def lastRecorded? (i : ι) (text : String) (calls : List (Call ι)) : Option BaseType :=
  calls.reverse.findSome? (·.recorded? i text)

variable {session : ι → Nat} {mints : ι → Mint} {i : ι}

/-! ### Histories -/

/-- What a call does to one of the mints: it issues an identifier of this mint, records a type with it, or
is to another mint. -/
theorem Call.run_cases (call : Call ι) (mints : ι → Mint) (i : ι) :
    (∃ kind label origin, call = .issue i kind label origin ∧
      call.run mints i = ((mints i).issue kind label origin).2) ∨
    (∃ kind id ty, call = .record i kind id ty ∧ call.run mints i = (mints i).recordType id ty) ∨
    call.run mints i = mints i ∧ call.issues i = false ∧ ∀ text, call.recorded? i text = none := by
  cases call with
  | issue j kind label origin =>
    by_cases same : j = i
    · subst same
      exact .inl ⟨kind, label, origin, rfl, Function.update_self ..⟩
    · exact .inr (.inr ⟨Function.update_of_ne (Ne.symm same) .., decide_eq_false same, fun _ => rfl⟩)
  | record j kind id ty =>
    by_cases same : j = i
    · subst same
      exact .inr (.inl ⟨kind, id, ty, rfl, Function.update_self ..⟩)
    · exact .inr (.inr ⟨Function.update_of_ne (Ne.symm same) .., rfl, fun _ => if_neg fun h => same h.1⟩)

theorem Call.kept_run (kept : ∀ i, (mints i).Kept (session i)) (call : Call ι) (i : ι) :
    (call.run mints i).Kept (session i) := by
  rcases call.run_cases mints i with ⟨_, _, _, -, same⟩ | ⟨_, id, ty, -, same⟩ | ⟨same, -⟩
  · exact same ▸ (kept i).issue
  · exact same ▸ (kept i).recordType id ty
  · exact same ▸ kept i

theorem kept_after (calls : List (Call ι)) (kept : ∀ i, (mints i).Kept (session i)) (i : ι) :
    (after mints calls i).Kept (session i) := by
  induction calls generalizing mints with
  | nil => exact kept i
  | cons call rest ih => exact ih (call.kept_run kept)

@[simp] theorem Call.issues_self (i : ι) (kind : IdKind) (label : String) (origin : Origin) :
    (Call.issue i kind label origin).issues i = true := decide_eq_true rfl

/-- A call that issues an identifier of a mint counts for this mint alone. -/
theorem Call.issued_run (call : Call ι) (mints : ι → Mint) (i : ι) :
    (call.run mints i).issued = (mints i).issued + if call.issues i then 1 else 0 := by
  rcases call.run_cases mints i with ⟨_, _, _, rfl, same⟩ | ⟨_, id, ty, rfl, same⟩ | ⟨same, other, -⟩
  · rw [same, if_pos (issues_self ..)]
    rfl
  · rw [same]
    exact (counters_recordType? (mints i) id (some ty)).2
  · rw [same, other]
    rfl

theorem issued_after (calls : List (Call ι)) (mints : ι → Mint) (i : ι) :
    (after mints calls i).issued = (mints i).issued + calls.countP (·.issues i) := by
  induction calls generalizing mints with
  | nil => rfl
  | cons call rest ih =>
    have later : (after mints (call :: rest) i).issued =
        (call.run mints i).issued + rest.countP (·.issues i) := ih (call.run mints)
    rw [later, call.issued_run, List.countP_cons]
    omega

/-- The texts that are issued in a history have higher serial numbers than those that were issued
before. -/
theorem exists_of_mem_texts {calls : List (Call ι)} (kept : ∀ i, (mints i).Kept (session i))
    {text : String} (isText : text ∈ texts mints calls) :
    ∃ i kind label serial, text = idText kind label (session i) serial ∧
      (mints i).issued < serial := by
  induction calls generalizing mints with
  | nil => cases isText
  | cons call rest ih =>
    rw [texts, List.mem_append, Option.mem_toList] at isText
    rcases isText with here | later
    · cases call with
      | issue i kind label origin =>
        cases here
        exact ⟨i, kind, label, (mints i).issued + 1, by rw [← (kept i).session]; rfl, by omega⟩
      | record => cases here
    · obtain ⟨i, kind, label, serial, same, above⟩ := ih (call.kept_run kept) later
      have := call.issued_run mints i
      exact ⟨i, kind, label, serial, same, by omega⟩

/-- Mints with different sessions issue no text twice. -/
theorem nodup_texts (distinct : session.Injective) (calls : List (Call ι))
    (kept : ∀ i, (mints i).Kept (session i)) : (texts mints calls).Nodup := by
  induction calls generalizing mints with
  | nil => exact List.nodup_nil
  | cons call rest ih =>
    have kept' := call.kept_run kept
    cases call with
    | record => exact ih kept'
    | issue i kind label origin =>
      refine List.nodup_cons.2 ⟨fun again => ?_, ih kept'⟩
      obtain ⟨j, _, _, serial, same, above⟩ := exists_of_mem_texts kept' again
      have same : idText kind label (mints i).session ((mints i).issued + 1) = _ := same
      have sameSession := idText_session same
      rw [(kept i).session] at sameSession
      -- it would be a later identifier of the same mint
      cases distinct sameSession
      have sameSerial := idText_serial same
      have issued := (Call.issue i kind label origin).issued_run mints i
      rw [if_pos (Call.issues_self ..)] at issued
      omega

/-- A call leaves label and origin of a record alone, and its type as well, if it does not record another
for just this identifier. -/
theorem Call.records_run (call : Call ι) (kept : ∀ i, (mints i).Kept (session i)) {text label : String}
    {origin : Origin} {ty : Option BaseType}
    (known : (mints i).records[text]? = some ⟨label, origin, ty⟩) :
    (call.run mints i).records[text]? = some ⟨label, origin, (call.recorded? i text).or ty⟩ := by
  rcases call.run_cases mints i with ⟨_, _, _, rfl, same⟩ | ⟨kind, id, new, rfl, same⟩ | ⟨same, -, other⟩
  · rw [same]
    exact (kept i).counted.records_issue known
  · rw [same]
    by_cases here : id.text = text
    · subst here
      have known : (mints i).record? id = some ⟨label, origin, ty⟩ := known
      rw [recordType, known, recorded?, if_pos ⟨rfl, rfl⟩]
      exact Table.getElem?_insert_self
    · rw [recorded?, if_neg fun h => here h.2]
      exact (records_recordType?_of_ne (mints i) (some new) here).trans known
  · rw [same, other]
    exact known

/-- In a history a record keeps its label and origin, and gets the type that is recorded last. -/
theorem records_after (calls : List (Call ι)) (kept : ∀ i, (mints i).Kept (session i))
    {text label : String} {origin : Origin} {ty : Option BaseType}
    (known : (mints i).records[text]? = some ⟨label, origin, ty⟩) :
    (after mints calls i).records[text]? =
      some ⟨label, origin, (lastRecorded? i text calls).or ty⟩ := by
  induction calls generalizing mints ty with
  | nil => exact known
  | cons call rest ih =>
    have last : lastRecorded? i text (call :: rest) =
        (lastRecorded? i text rest).or (call.recorded? i text) := by
      rw [lastRecorded?, List.reverse_cons, List.findSome?_append, List.findSome?_singleton]
      rfl
    rw [last, Option.or_assoc]
    exact ih (call.kept_run kept) (call.records_run kept known)

/-- Mints side by side with different sessions, which have issued nothing yet: in any history of calls, with
any labels, no text is issued twice, and each mint has as many records as it has issued identifiers. Of an
identifier that was issued, its mint knows the label and origin that it was issued with and the type that
was recorded for it last, whatever happened since; any other mint knows nothing about it, does not say that
it records a type for it, and is not changed by that. -/
theorem identifiers_never_collide (distinct : session.Injective) :
    (∀ calls : List (Call ι), (texts (start session) calls).Nodup ∧
      ∀ i, (after (start session) calls i).size = calls.countP (·.issues i)) ∧
    ∀ (before later : List (Call ι)) (i : ι) (kind : IdKind) (label : String) (origin : Origin),
      let id := ((after (start session) before i).issue kind label origin).1
      let mints := after (start session) (before ++ .issue i kind label origin :: later)
      (mints i).record? id = some ⟨label, origin, lastRecorded? i id.text later⟩ ∧
      ∀ j, j ≠ i → (mints j).record? id = none ∧ (mints j).knows id = false ∧
        ∀ ty, (mints j).recordType id ty = mints j := by
  have kept : ∀ i, (start session i).Kept (session i) := fun i => kept_new (session i)
  refine ⟨fun calls => ⟨nodup_texts distinct calls kept, fun i => ?_⟩, ?_⟩
  · rw [(kept_after calls kept i).size, issued_after]
    exact Nat.zero_add _
  · intro before later i kind label origin id mints
    have kept₁ := fun i => kept_after before kept i
    let call : Call ι := .issue i kind label origin
    have split : mints = after (call.run (after (start session) before)) later := by
      simp only [mints, after, List.foldl_append, List.foldl_cons, call]
    constructor
    · have known : (call.run (after (start session) before) i).records[id.text]? =
          some ⟨label, origin, none⟩ := by
        rw [show call.run _ i = _ from Function.update_self ..]
        exact record?_issue _ kind label origin
      rw [split]
      exact (records_after later (call.kept_run kept₁) known).trans (by rw [Option.or_none])
    · intro j different
      have issued : id.text =
          idText kind label (session i) ((after (start session) before i).issued + 1) := by
        rw [← (kept₁ i).session]
        rfl
      have unknown : (mints j).record? id = none :=
        (kept_after _ kept j).unknown issued fun same => different (distinct same).symm
      exact ⟨unknown, unknown_of_record? unknown⟩

/-! ### An instance

Two mints, one of which gives a label that imitates the identifiers of the other. A type is recorded for
the identifier with both of them. -/

namespace Twins

def sessions (second : Bool) : Nat := if second then 17 else 1

theorem sessions_injective : sessions.Injective := by
  intro a b same
  cases a <;> cases b <;> simp_all [sessions]

/-- The identifier `v:x#1.1#11.1`. -/
def imitation : ValueId := ((start sessions true).issue .value "x#1.1" .literal).1

def calls : List (Call Bool) :=
  [ .issue false .value "x" .literal
  , .issue true .value "x#1.1" .literal
  , .record true .value imitation .string
  , .record false .value imitation .number ]

end Twins

theorem identifiers_never_collide_twins :
    (texts (start Twins.sessions) Twins.calls).Nodup ∧
      (after (start Twins.sessions) Twins.calls true).size = 1 ∧
      (after (start Twins.sessions) Twins.calls true).record? Twins.imitation =
        some ⟨"x#1.1", .literal, some .string⟩ ∧
      (after (start Twins.sessions) Twins.calls false).record? Twins.imitation = none := by
  obtain ⟨unique, known⟩ := identifiers_never_collide Twins.sessions_injective
  obtain ⟨here, others⟩ := known [.issue false .value "x" .literal]
    [.record true .value Twins.imitation .string, .record false .value Twins.imitation .number] true
    .value "x#1.1" .literal
  have last : lastRecorded? true Twins.imitation.text
      [.record true .value Twins.imitation .string, .record false .value Twins.imitation .number] =
      some .string := by
    simp [lastRecorded?, Call.recorded?]
  exact ⟨(unique Twins.calls).1, (unique Twins.calls).2 true, last ▸ here,
    (others false (by decide)).1⟩

end TagFlow.Mint
