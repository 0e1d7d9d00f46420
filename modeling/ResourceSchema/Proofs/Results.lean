/-
# Steps that may fail

What has come of a step that succeeded: of one after another
(`exists_of_bind_eq_ok`), of one that is refused in some case
(`of_guarded_eq_ok`), of one whose result is changed (`map_eq_ok_iff`), and of one
that is taken for each item of a list (`mapM_eq_ok_iff`).
-/

import Mathlib.Data.List.Forall2

namespace ResourceSchema

variable {ε α β : Type}

/-- What comes of two steps comes of the second, after the first. -/
theorem exists_of_bind_eq_ok {x : Except ε α} {f : α → Except ε β} {b : β}
    (h : x >>= f = .ok b) : ∃ a, x = .ok a ∧ f a = .ok b := by
  rcases x with e | a
  · cases h
  · exact ⟨a, rfl, h⟩

/-- What comes of a step that is refused in some case comes of it in the others. -/
theorem of_guarded_eq_ok {p : Prop} [Decidable p] {e : ε} {x : Except ε α} {a : α}
    (h : (if p then .error e else x) = .ok a) : ¬ p ∧ x = .ok a := by
  by_cases hp : p
  · rw [if_pos hp] at h
    cases h
  · rw [if_neg hp] at h
    exact ⟨hp, h⟩

/-- A changed result is a success exactly if the result is one that is changed to it. -/
theorem map_eq_ok_iff {f : α → β} {result : Except ε α} {b : β} :
    result.map f = .ok b ↔ ∃ a, result = .ok a ∧ f a = b := by
  cases result <;> simp [Except.map]

/-- Results that come of the same things are the same but for what is reported. -/
theorem toOption_eq_of_forall {x y : Except ε α} (h : ∀ a, x = .ok a ↔ y = .ok a) :
    x.toOption = y.toOption := by
  cases y with
  | ok b => rw [(h b).2 rfl]
  | error e =>
    cases x with
    | ok a => cases (h a).1 rfl
    | error f => rfl

/-- An error that is told otherwise is an error. -/
theorem toOption_mapError {ε' : Type} (f : ε → ε') (x : Except ε α) :
    (x.mapError f).toOption = x.toOption := by
  cases x <;> rfl

/-- Reading the items of a list one after another. -/
theorem mapM_eq_ok_iff {f : β → Except ε α} {items : List β} {as : List α} :
    items.mapM f = .ok as ↔ List.Forall₂ (fun v a => f v = .ok a) items as := by
  induction items generalizing as with
  | nil =>
    rw [List.forall₂_nil_left_iff, List.mapM_nil]
    exact ⟨fun h => (Except.ok.inj h).symm, fun h => h ▸ rfl⟩
  | cons v items ih =>
    rw [List.forall₂_cons_left_iff, List.mapM_cons]
    constructor
    · intro h
      rcases hv : f v with e | a
      · rw [hv] at h
        cases h
      · rcases hr : items.mapM f with e | rest
        · rw [hv, hr] at h
          cases h
        · rw [hv, hr] at h
          exact ⟨a, rest, rfl, ih.1 hr, (Except.ok.inj h).symm⟩
    · rintro ⟨a, rest, hv, hr, rfl⟩
      rw [hv, ih.2 hr]
      rfl

/-- Everything in a list of results is the result of an item. -/
theorem exists_of_mem_mapM {f : β → Except ε α} {items : List β} {as : List α}
    (h : items.mapM f = .ok as) {a : α} (ha : a ∈ as) : ∃ v ∈ items, f v = .ok a := by
  induction mapM_eq_ok_iff.1 h with
  | nil => cases ha
  | cons hv hr ih =>
    rcases List.mem_cons.1 ha with rfl | ha
    · exact ⟨_, List.mem_cons_self, hv⟩
    · obtain ⟨v, hm, hva⟩ := ih (mapM_eq_ok_iff.2 hr) ha
      exact ⟨v, List.mem_cons_of_mem _ hm, hva⟩

end ResourceSchema
