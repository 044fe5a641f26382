/-!
# Searching and repeating texts

`occursIn_iff` says that the search finds exactly the texts that stand somewhere inside another;
`toList_repeated` says what a repeated text is.
-/

namespace TagFlow.Text

/-- Whether the first list of characters stands somewhere inside the second. -/
def occursIn (needle : List Char) : List Char → Bool
  | [] => needle.isEmpty
  | c :: rest => needle.isPrefixOf (c :: rest) || occursIn needle rest

theorem occursIn_iff {needle : List Char} :
    ∀ {text : List Char},
      occursIn needle text = true ↔ ∃ before after, text = before ++ needle ++ after
  | [] => by
    simp only [occursIn, List.isEmpty_iff]
    constructor
    · rintro rfl; exact ⟨[], [], rfl⟩
    · rintro ⟨before, after, h⟩
      have h := h.symm
      simp only [List.append_eq_nil_iff] at h
      exact h.1.2
  | c :: rest => by
    simp only [occursIn, Bool.or_eq_true, List.isPrefixOf_iff_prefix, occursIn_iff]
    constructor
    · rintro (⟨after, h⟩ | ⟨before, after, h⟩)
      · exact ⟨[], after, h.symm⟩
      · exact ⟨c :: before, after, by rw [h]; rfl⟩
    · rintro ⟨before, after, h⟩
      match before, h with
      | [], h => exact Or.inl ⟨after, h.symm⟩
      | b :: before, h =>
        simp only [List.cons_append, List.cons.injEq] at h
        exact Or.inr ⟨before, after, h.2⟩

/-- A text repeated, by doubling, so that the work is in proportion to the result. -/
def repeated (text : String) (count : Nat) : String :=
  if count = 0 then ""
  else
    let half := repeated text (count / 2)
    if count % 2 = 0 then half ++ half else half ++ half ++ text
termination_by count
decreasing_by omega

/-- A repeated text consists of that many copies. -/
theorem toList_repeated (text : String) (count : Nat) :
    (repeated text count).toList = (List.replicate count text.toList).flatten := by
  induction count using Nat.strongRecOn with
  | _ count ih =>
    unfold repeated
    split
    · next h => subst h; rfl
    · next h =>
      have half := ih (count / 2) (by omega)
      have twice : (List.replicate (count / 2 + count / 2) text.toList).flatten =
          (repeated text (count / 2)).toList ++ (repeated text (count / 2)).toList := by
        rw [half, ← List.flatten_append, ← List.replicate_append_replicate]
      split
      · next even =>
        rw [String.toList_append, ← twice]
        congr 2; omega
      · next odd =>
        rw [String.toList_append, String.toList_append, ← twice]
        have : count = count / 2 + count / 2 + 1 := by omega
        conv => rhs; rw [this, ← List.replicate_append_replicate]
        simp

end TagFlow.Text
