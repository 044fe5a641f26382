import Mathlib.Data.List.Forall2

/-!
# Results with errors

Taking successful computations apart: what a sequence went through, and what a list of computations
gave one by one.
-/

namespace TagFlow.Result

variable {ε α β : Type} {x : Except ε α} {f g : α → Except ε β}

theorem bind_eq_ok {b : β} : (x >>= f) = .ok b ↔ ∃ a, x = .ok a ∧ f a = .ok b := by
  cases x with
  | error e =>
    refine ⟨fun h => ?_, ?_⟩
    · cases h
    · rintro ⟨a, h, -⟩
      cases h
  | ok a =>
    refine ⟨fun h => ⟨a, rfl, h⟩, ?_⟩
    rintro ⟨_, ⟨⟩, h⟩
    exact h

theorem bind_eq_error {e : ε} :
    (x >>= f) = .error e ↔ x = .error e ∨ ∃ a, x = .ok a ∧ f a = .error e := by
  cases x with
  | error e' => simp [bind, Except.bind]
  | ok a => simp [bind, Except.bind]

/-- Errors may be translated after a sequence or in each part of it. -/
theorem mapError_bind {ε' : Type} (t : ε → ε') :
    (x >>= f).mapError t = x.mapError t >>= fun a => (f a).mapError t := by
  cases x <;> rfl

theorem map_eq_ok {f : α → β} {b : β} : x.map f = .ok b ↔ ∃ a, x = .ok a ∧ f a = b := by
  cases x with
  | error e => simp [Except.map]
  | ok a => simp [Except.map]

theorem map_eq_error {f : α → β} {e : ε} : x.map f = .error e ↔ x = .error e := by
  cases x with
  | error e' => simp [Except.map]
  | ok a => simp [Except.map]

theorem eq_ok_of_toOption {a : α} (h : x.toOption = some a) : x = .ok a := by
  cases x with
  | ok b => rw [Option.some.inj h]
  | error e => cases h

theorem forall₂_of_mapM : ∀ {items : List α} {results : List β}, items.mapM f = .ok results →
    List.Forall₂ (fun item result => f item = .ok result) items results
  | [], results, run => by
    cases run
    exact .nil
  | item :: items, results, run => by
    rw [List.mapM_cons] at run
    obtain ⟨first, here, run⟩ := bind_eq_ok.1 run
    obtain ⟨rest, later, run⟩ := bind_eq_ok.1 run
    cases run
    exact .cons here (forall₂_of_mapM later)

theorem mapM_congr : ∀ {items : List α}, (∀ item ∈ items, f item = g item) →
    items.mapM f = items.mapM g
  | [], _ => rfl
  | item :: rest, same => by
    rw [List.mapM_cons, List.mapM_cons, same item List.mem_cons_self,
      mapM_congr fun other m => same other (List.mem_cons_of_mem _ m)]

/-- Every result belongs to an item. -/
theorem exists_of_mem_right {R : α → β → Prop} {items : List α} {results : List β}
    (related : List.Forall₂ R items results) : ∀ {result : β}, result ∈ results →
      ∃ item ∈ items, R item result := by
  induction related with
  | nil => exact fun h => nomatch h
  | cons head _ ih =>
    intro result isResult
    rcases List.mem_cons.1 isResult with rfl | later
    · exact ⟨_, List.mem_cons_self, head⟩
    · obtain ⟨item, isItem, here⟩ := ih later
      exact ⟨item, List.mem_cons_of_mem _ isItem, here⟩

/-- Every item has its result, at the same place. -/
theorem exists_getElem?_of_forall₂ {R : α → β → Prop} {items : List α} {results : List β}
    (related : List.Forall₂ R items results) : ∀ {index : Nat} {item : α}, items[index]? = some item →
      ∃ result, results[index]? = some result ∧ R item result := by
  induction related with
  | nil => simp
  | cons head _ ih =>
    intro index item here
    cases index with
    | zero =>
      cases here
      exact ⟨_, rfl, head⟩
    | succ index => exact ih here

/-- Items that agree in what is made of them agree at every place. -/
theorem bind_getElem?_of_forall₂ {γ : Type} {f : α → Option γ} {g : β → Option γ} {items : List α}
    {results : List β} (related : List.Forall₂ (fun item result => f item = g result) items results)
    (index : Nat) : items[index]?.bind f = results[index]?.bind g := by
  induction related generalizing index with
  | nil => rfl
  | cons head _ ih =>
    cases index with
    | zero => exact head
    | succ index => exact ih index

/-- What is related to items with names is related to them under these names. -/
theorem forall₂_zip_of_map {γ δ : Type} {R : γ → β → Prop} {f : α → δ} {g : α → γ} :
    ∀ {items : List α} {results : List β}, List.Forall₂ R (items.map g) results →
      List.Forall₂ (fun item result => result.1 = f item ∧ R (g item) result.2) items
        ((items.map f).zip results)
  | [], _, related => by
    cases related
    exact .nil
  | item :: items, _, related => by
    cases related with
    | cons head tail => exact .cons ⟨rfl, head⟩ (forall₂_zip_of_map tail)

/-- A name stands for related things in related bindings, or for nothing in both. -/
theorem rel_lookup {R : α → β → Prop} {items : List (String × α)} {results : List (String × β)}
    (related : List.Forall₂ (fun item result => result.1 = item.1 ∧ R item.2 result.2) items results)
    (name : String) : Option.Rel R (items.lookup name) (results.lookup name) := by
  induction related with
  | nil => exact .none
  | @cons item result _ _ here _ ih =>
    rw [List.lookup_cons, List.lookup_cons, here.1]
    cases name == item.1 with
    | true => exact .some here.2
    | false => exact ih

/-- Related items agree in whatever the relation makes them agree in. -/
theorem map_eq_of_forall₂ {γ : Type} {R : α → β → Prop} {f : α → γ} {g : β → γ}
    (same : ∀ item result, R item result → g result = f item) :
    ∀ {items : List α} {results : List β}, List.Forall₂ R items results →
      results.map g = items.map f
  | [], _, related => by
    cases related
    rfl
  | item :: items, _, related => by
    cases related with
    | cons head tail => rw [List.map_cons, List.map_cons, same item _ head, map_eq_of_forall₂ same tail]

end TagFlow.Result
