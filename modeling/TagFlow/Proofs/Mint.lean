import TagFlow.Mint
import TagFlow.Proofs.Table

/-!
# Identifiers of a mint are fresh

The serial number can be read back from the text of an identifier, whatever the label is
(`idText_serial`): it stands behind the last dot, and a number has no dot. So can the session, from
what stands behind the last `#` (`idText_session`). So an identifier that is issued has no record yet
(`Counted.fresh`), and a record that is there stays as it is.
-/

namespace TagFlow.Mint

/-! ### Reading the serial number back -/

/-- What stands behind the last separator is determined by the list. -/
theorem eq_of_append_separator {α : Type} {separator : α} {behind behind' : List α}
    (none : separator ∉ behind) (none' : separator ∉ behind') :
    ∀ {front front' : List α}, front ++ separator :: behind = front' ++ separator :: behind' →
      behind = behind'
  | [], [], same => (List.cons.inj same).2
  | [], c :: front', same => by
    have tail : behind = front' ++ separator :: behind' := (List.cons.inj same).2
    rw [tail] at none
    exact absurd (List.mem_append_right _ List.mem_cons_self) none
  | c :: front, [], same => by
    have tail : front ++ separator :: behind = behind' := (List.cons.inj same).2
    rw [← tail] at none'
    exact absurd (List.mem_append_right _ List.mem_cons_self) none'
  | c :: front, c' :: front', same =>
    eq_of_append_separator none none' (List.cons.inj same).2

theorem dot_notMem_toDigits (n : Nat) : '.' ∉ Nat.toDigits 10 n := by
  intro member
  have digit := Nat.isDigit_of_mem_toDigits (by decide) (by decide) member
  exact absurd digit (by decide)

/-- The text of an identifier tells its serial number. -/
theorem idText_serial {kind kind' : IdKind} {label label' : String}
    {session session' serial serial' : Nat}
    (same : idText kind label session serial = idText kind' label' session' serial') :
    serial = serial' := by
  have texts := congrArg String.toList same
  simp only [idText, String.toList_append, String.toList_ofList,
    show (".".toList : List Char) = ['.'] from rfl, List.append_assoc, List.singleton_append] at texts
  simp only [← List.append_assoc] at texts
  have digits := eq_of_append_separator (dot_notMem_toDigits serial) (dot_notMem_toDigits serial')
    texts
  rw [← Nat.ofDigitChars_ten_toDigits (n := serial), digits, Nat.ofDigitChars_ten_toDigits]

/-! ### Reading the session back -/

/-- Different numbers below 16 have different digits. -/
theorem digitChar_injective : ∀ d < 16, ∀ e < 16, Nat.digitChar d = Nat.digitChar e → d = e := by
  decide

/-- The hexadecimal digits of a number determine it. -/
theorem hexadecimal_injective {n m : Nat} (same : hexadecimal n = hexadecimal m) : n = m := by
  unfold hexadecimal at same
  induction n using Nat.strongRecOn generalizing m with
  | ind n ih =>
    rw [Nat.toDigits_eq_if (by decide), Nat.toDigits_eq_if (n := m) (by decide)] at same
    split at same <;> split at same
    · next small small' => exact digitChar_injective n small m small' (List.cons.inj same).1
    · -- one digit against two or more
      have positive := @Nat.length_toDigits_pos 16 (m / 16)
      have lengths := congrArg List.length same
      rw [List.length_singleton, List.length_append, List.length_singleton] at lengths
      omega
    · have positive := @Nat.length_toDigits_pos 16 (n / 16)
      have lengths := congrArg List.length same
      rw [List.length_singleton, List.length_append, List.length_singleton] at lengths
      omega
    · obtain ⟨front, last⟩ := List.append_inj' same rfl
      have quotients : n / 16 = m / 16 := ih (n / 16) (by omega) front
      have remainders : n % 16 = m % 16 := digitChar_injective (n % 16) (by omega) (m % 16) (by omega)
        (List.cons.inj last).1
      omega

theorem hash_notMem_toDigits (base : Nat) (large : 1 < base) (n : Nat) :
    '#' ∉ Nat.toDigits base n := by
  induction n using Nat.strongRecOn with
  | ind n ih =>
    rw [Nat.toDigits_eq_if large]
    split
    · simp
    · have rest := ih (n / base) (Nat.div_lt_self (by omega) large)
      simpa using rest

/-- The characters of an identifier: what stands behind the last `#` has none of the label. -/
theorem toList_idText (kind : IdKind) (label : String) (session serial : Nat) :
    (idText kind label session serial).toList =
      (kind.mark.toList ++ ':' :: label.toList) ++
        '#' :: (hexadecimal session ++ '.' :: Nat.toDigits 10 serial) := by
  simp [idText]

/-- The text of an identifier tells the session of its mint. -/
theorem idText_session {kind kind' : IdKind} {label label' : String}
    {session session' serial serial' : Nat}
    (same : idText kind label session serial = idText kind' label' session' serial') :
    session = session' := by
  have noHash : ∀ session serial,
      '#' ∉ hexadecimal session ++ '.' :: Nat.toDigits 10 serial := by
    intro session serial
    have first := hash_notMem_toDigits 16 (by decide) session
    have second := hash_notMem_toDigits 10 (by decide) serial
    simp [hexadecimal, first, second]
  have texts := congrArg String.toList same
  rw [toList_idText, toList_idText] at texts
  have numbers := eq_of_append_separator (noHash session serial) (noHash session' serial') texts
  rw [idText_serial same] at numbers
  exact hexadecimal_injective (List.append_cancel_right numbers)

/-! ### Records -/

/-- The mint has records for identifiers only that it has issued. -/
def Counted (mint : Mint) : Prop :=
  ∀ (text : String) (known : IdRecord), mint.records[text]? = some known →
    ∃ kind label serial, text = idText kind label mint.session serial ∧ serial ≤ mint.issued

variable {mint : Mint} {kind : IdKind} {label text : String} {origin : Origin}

theorem counted_new (session : Nat) : (Mint.new session).Counted := by
  intro text known found
  rw [show ((Mint.new session).records[text]? : Option IdRecord) = none from
    Std.ExtTreeMap.getElem?_empty] at found
  cases found

/-- An identifier that is issued was not known before. -/
theorem Counted.fresh (counted : mint.Counted) (kind : IdKind) (label : String) (origin : Origin) :
    mint.records[(mint.issue kind label origin).1.text]? = none := by
  cases found : mint.records[(mint.issue kind label origin).1.text]? with
  | none => rfl
  | some known =>
    obtain ⟨kind', label', serial, same, bound⟩ := counted _ known found
    have := idText_serial same
    omega

theorem record?_issue (mint : Mint) (kind : IdKind) (label : String) (origin : Origin) :
    (mint.issue kind label origin).2.record? (mint.issue kind label origin).1 =
      some ⟨label, origin, none⟩ :=
  Table.getElem?_insert_self

/-- What has a record is not what is issued next. -/
theorem Counted.issue_ne (counted : mint.Counted) {known : IdRecord}
    (found : mint.records[text]? = some known) : (mint.issue kind label origin).1.text ≠ text := by
  rintro rfl
  exact absurd ((counted.fresh kind label origin).symm.trans found) (by simp)

/-- Issuing an identifier leaves the records of all others alone. -/
theorem Counted.records_issue (counted : mint.Counted) {known : IdRecord}
    (found : mint.records[text]? = some known) :
    (mint.issue kind label origin).2.records[text]? = some known := by
  have other : (mint.issue kind label origin).1.text ≠ text := counted.issue_ne found
  exact (Table.getElem?_insert_of_ne other).trans found

theorem Counted.issue (counted : mint.Counted) : (mint.issue kind label origin).2.Counted := by
  intro text known found
  have found : (mint.records.insert _ _)[text]? = some known := found
  rw [Table.getElem?_insert] at found
  split at found
  · next same => exact ⟨kind, label, mint.issued + 1, same.symm, Nat.le_refl _⟩
  · obtain ⟨kind', label', serial, same, bound⟩ := counted text known found
    exact ⟨kind', label', serial, same, Nat.le_succ_of_le bound⟩

/-- Recording a type changes the record of that identifier only. -/
theorem records_recordType?_of_ne (mint : Mint) {id : Id kind} (ty : Option BaseType)
    (other : id.text ≠ text) : (mint.recordType? id ty).records[text]? = mint.records[text]? := by
  cases ty with
  | none => rfl
  | some ty =>
    show (mint.recordType id ty).records[text]? = _
    unfold recordType
    split
    · exact Table.getElem?_insert_of_ne other
    · rfl

/-- Recording a type where none is recorded yet. -/
theorem record?_recordType? (mint : Mint) {id : Id kind} {label : String} {origin : Origin}
    (ty : Option BaseType) (known : mint.record? id = some ⟨label, origin, none⟩) :
    (mint.recordType? id ty).record? id = some ⟨label, origin, ty⟩ := by
  cases ty with
  | none => exact known
  | some ty =>
    show (mint.recordType id ty).record? id = _
    unfold recordType
    rw [known]
    exact Table.getElem?_insert_self

theorem counters_recordType? (mint : Mint) (id : Id kind) (ty : Option BaseType) :
    (mint.recordType? id ty).session = mint.session ∧
      (mint.recordType? id ty).issued = mint.issued := by
  cases ty with
  | none => exact ⟨rfl, rfl⟩
  | some ty =>
    show (mint.recordType id ty).session = _ ∧ (mint.recordType id ty).issued = _
    unfold recordType
    split <;> exact ⟨rfl, rfl⟩

/-- A record is not lost, and keeps label and origin. -/
theorem records_recordType? (mint : Mint) (id : Id kind) (ty : Option BaseType)
    {old : Option BaseType} (known : mint.records[text]? = some ⟨label, origin, old⟩) :
    ∃ ty', (mint.recordType? id ty).records[text]? = some ⟨label, origin, ty'⟩ ∧
      (id.text ≠ text → ty' = old) := by
  by_cases same : id.text = text
  · subst same
    cases ty with
    | none => exact ⟨old, known, fun h => absurd rfl h⟩
    | some ty =>
      refine ⟨some ty, ?_, fun h => absurd rfl h⟩
      show (mint.recordType id ty).records[id.text]? = _
      unfold recordType
      rw [show mint.record? id = some ⟨label, origin, old⟩ from known]
      exact Table.getElem?_insert_self
  · exact ⟨old, (records_recordType?_of_ne mint ty same).trans known, fun _ => rfl⟩

/-- A record was there before, or its type is the one that has been recorded. -/
theorem of_records_recordType? {id : Id kind} {ty ty' : Option BaseType}
    (known : (mint.recordType? id ty).records[text]? = some ⟨label, origin, ty'⟩) :
    mint.records[text]? = some ⟨label, origin, ty'⟩ ∨
      id.text = text ∧ ty = ty' ∧ ∃ old, mint.records[text]? = some ⟨label, origin, old⟩ := by
  by_cases same : id.text = text
  · subst same
    cases ty with
    | none => exact .inl known
    | some ty =>
      have known : (mint.recordType id ty).records[id.text]? = _ := known
      unfold recordType at known
      split at known
      · next old found =>
        have here := Table.getElem?_insert_self.symm.trans known
        cases here
        exact .inr ⟨rfl, rfl, old.inferred, found⟩
      · exact .inl known
  · rw [records_recordType?_of_ne mint ty same] at known
    exact .inl known

theorem Counted.recordType? (counted : mint.Counted) (id : Id kind) (ty : Option BaseType) :
    (mint.recordType? id ty).Counted := by
  intro text known found
  obtain ⟨session, issued⟩ := counters_recordType? mint id ty
  rw [session, issued]
  obtain ⟨label, origin, ty'⟩ := known
  rcases of_records_recordType? found with old | ⟨-, -, old, before⟩
  · exact counted text _ old
  · exact counted text _ before

end TagFlow.Mint
