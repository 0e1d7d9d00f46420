/-
# The parts of a record

What loading the parts of a record comes to, part by part.  In an object a part
depends on the members only through what they hold under its key, and all parts
together are complete when each of them is (`Outcome.and_eq_complete_iff`).  In
a list a part takes the first item that is left.  The members that are written
have at most one of each key (`Parts.members_sublist`).
-/

import ResourceSchema.Form.Load
import ResourceSchema.Form.Print
import ResourceSchema.Proofs.Json.Members
import ResourceSchema.Proofs.Results

namespace ResourceSchema

namespace Outcome

variable {α β : Type}

/-- Two outcomes together are complete exactly if both are. -/
theorem and_eq_complete_iff {o : Outcome α} {o' : Outcome β} {a : α} {b : β} :
    o.and o' = .complete (a, b) ↔ o = .complete a ∧ o' = .complete b := by
  constructor
  · intro h
    cases o <;> cases o' <;> simp only [Outcome.and] at h
    case complete.complete a' b' =>
      cases h
      exact ⟨rfl, rfl⟩
    case faulty.faulty => split at h <;> cases h
    all_goals cases h
  · rintro ⟨rfl, rfl⟩
    rfl

/-- A part is complete exactly if it was loaded. -/
theorem ofLoad_eq_complete_iff {key : String} {result : Except Mismatch α} {a : α} :
    ofLoad key result = .complete a ↔ result = .ok a := by
  rcases result with e | b
  · simp [ofLoad]
  · simp [ofLoad]

/-- An outcome is a success exactly if it is complete. -/
theorem toExcept_eq_ok_iff {o : Outcome α} {a : α} : o.toExcept = .ok a ↔ o = .complete a := by
  cases o <;> simp [toExcept]

end Outcome

namespace Parts

variable {α β : Type} {key : String} {shape : Shape α} {rest : Parts β} {value : α}
  {omitted : α → Bool} {members : List (String × Json)} {v : Json}

/-! ### One part, by what the members hold under its key

The equations of the readers are stated first, as they stand in their
definitions. -/

/-- A required part of an object is what its key leads to, and missing if that is nothing. -/
theorem ofObject_required (members : List (String × Json)) :
    (required key shape rest).ofObject members = Outcome.and
      (match Json.lookup key members with
        | some v => .ofLoad key (shape.load v)
        | none => .missing key)
      (rest.ofObject members) :=
  rfl

/-- An optional part of an object is open where its key leads to nothing or to null. -/
theorem ofObject_optional (members : List (String × Json)) :
    (optional key shape rest).ofObject members = Outcome.and
      (match Json.lookup key members with
        | some .null => .complete none
        | some v => .ofLoad key ((shape.load v).map some)
        | none => .complete none)
      (rest.ofObject members) :=
  rfl

/-- A part with a default has it where its key leads to nothing. -/
theorem ofObject_defaulted (members : List (String × Json)) :
    (defaulted key shape value omitted rest).ofObject members = Outcome.and
      (match Json.lookup key members with
        | some v => .ofLoad key (shape.load v)
        | none => .complete value)
      (rest.ofObject members) :=
  rfl

/-- A required part that is given. -/
theorem ofObject_required_some (h : Json.lookup key members = some v) :
    (required key shape rest).ofObject members =
      (Outcome.ofLoad key (shape.load v)).and (rest.ofObject members) := by
  rw [ofObject_required, h]

/-- A required part that is not given. -/
theorem ofObject_required_none (h : Json.lookup key members = none) :
    (required key shape rest).ofObject members =
      (Outcome.missing key).and (rest.ofObject members) := by
  rw [ofObject_required, h]

/-- An optional part that is given. -/
theorem ofObject_optional_some (h : Json.lookup key members = some v) (hv : v ≠ .null) :
    (optional key shape rest).ofObject members =
      (Outcome.ofLoad key ((shape.load v).map some)).and (rest.ofObject members) := by
  rw [ofObject_optional, h]
  cases v with
  | null => exact absurd rfl hv
  | _ => rfl

/-- An optional part that is given as null. -/
theorem ofObject_optional_null (h : Json.lookup key members = some .null) :
    (optional key shape rest).ofObject members =
      (Outcome.complete none).and (rest.ofObject members) := by
  rw [ofObject_optional, h]

/-- An optional part that is not given. -/
theorem ofObject_optional_none (h : Json.lookup key members = none) :
    (optional key shape rest).ofObject members =
      (Outcome.complete none).and (rest.ofObject members) := by
  rw [ofObject_optional, h]

/-- A part with a default that is given. -/
theorem ofObject_defaulted_some (h : Json.lookup key members = some v) :
    (defaulted key shape value omitted rest).ofObject members =
      (Outcome.ofLoad key (shape.load v)).and (rest.ofObject members) := by
  rw [ofObject_defaulted, h]

/-- A part with a default that is not given. -/
theorem ofObject_defaulted_none (h : Json.lookup key members = none) :
    (defaulted key shape value omitted rest).ofObject members =
      (Outcome.complete value).and (rest.ofObject members) := by
  rw [ofObject_defaulted, h]

/-! ### One part of a list of parts -/

variable {title : String} {declared given : Nat} {items : List Json}

/-- A value put before a result is there exactly if the result is a success. -/
theorem map_pair_eq_ok_iff {a a' : α} {b : β} {result : Except Mismatch β} :
    result.map (a', ·) = .ok (a, b) ↔ a' = a ∧ result = .ok b := by
  rw [map_eq_ok_iff]
  constructor
  · rintro ⟨b', hb, h⟩
    obtain ⟨rfl, rfl⟩ := Prod.mk.inj h
    exact ⟨rfl, hb⟩
  · rintro ⟨rfl, hb⟩
    exact ⟨b, hb, rfl⟩

/-- A required part takes the next item of a list. -/
theorem ofList_required_cons :
    (required key shape rest).ofList title declared given (v :: items) =
      match shape.load v with
      | .error e => .error e
      | .ok a => (rest.ofList title declared given items).map (a, ·) :=
  rfl

/-- An optional part behind the end of a list is open. -/
theorem ofList_optional_nil :
    (optional key shape rest).ofList title declared given [] =
      (rest.ofList title declared given []).map (none, ·) :=
  rfl

/-- An optional part is open where the next item is null. -/
theorem ofList_optional_null :
    (optional key shape rest).ofList title declared given (.null :: items) =
      (rest.ofList title declared given items).map (none, ·) :=
  rfl

/-- An optional part takes any other item. -/
theorem ofList_optional_cons (hv : v ≠ .null) :
    (optional key shape rest).ofList title declared given (v :: items) =
      match shape.load v with
      | .error e => .error e
      | .ok a => (rest.ofList title declared given items).map (some a, ·) := by
  cases v with
  | null => exact absurd rfl hv
  | _ => rfl

/-- A part with a default has it behind the end of a list. -/
theorem ofList_defaulted_nil :
    (defaulted key shape value omitted rest).ofList title declared given [] =
      (rest.ofList title declared given []).map (value, ·) :=
  rfl

/-- A part with a default takes the next item, null included. -/
theorem ofList_defaulted_cons :
    (defaulted key shape value omitted rest).ofList title declared given (v :: items) =
      match shape.load v with
      | .error e => .error e
      | .ok a => (rest.ofList title declared given items).map (a, ·) :=
  rfl

/-- When a required part and those behind it are read from a list. -/
theorem ofList_required_cons_eq_ok_iff {a : α} {b : β} :
    (required key shape rest).ofList title declared given (v :: items) = .ok (a, b) ↔
      shape.load v = .ok a ∧ rest.ofList title declared given items = .ok b := by
  rw [ofList_required_cons]
  rcases shape.load v with e | a'
  · simp
  · simp only [map_pair_eq_ok_iff, Except.ok.injEq]

/-- When an optional part and those behind it are read from a list. -/
theorem ofList_optional_cons_eq_ok_iff {a? : Option α} {b : β} (hv : v ≠ .null) :
    (optional key shape rest).ofList title declared given (v :: items) = .ok (a?, b) ↔
      (∃ a, shape.load v = .ok a ∧ some a = a?) ∧
        rest.ofList title declared given items = .ok b := by
  rw [ofList_optional_cons hv]
  rcases shape.load v with e | a'
  · simp
  · simp only [map_pair_eq_ok_iff, Except.ok.injEq, exists_eq_left']

/-- When a part with a default and those behind it are read from a list. -/
theorem ofList_defaulted_cons_eq_ok_iff {a : α} {b : β} :
    (defaulted key shape value omitted rest).ofList title declared given (v :: items) =
        .ok (a, b) ↔
      shape.load v = .ok a ∧ rest.ofList title declared given items = .ok b := by
  rw [ofList_defaulted_cons]
  rcases shape.load v with e | a'
  · simp
  · simp only [map_pair_eq_ok_iff, Except.ok.injEq]

/-! ### The members that are written -/

/-- A default that need not be written is not. -/
theorem members_defaulted_omitted {a : α} {b : β} (h : omitted a = true) :
    (defaulted key shape value omitted rest).members (a, b) = rest.members b :=
  if_pos h

/-- Any other value of a part with a default is written. -/
theorem members_defaulted_written {a : α} {b : β} (h : ¬ omitted a = true) :
    (defaulted key shape value omitted rest).members (a, b) =
      (key, shape.print a) :: rest.members b :=
  if_neg h

/-- The members are in declaration order, and each part has at most one. -/
theorem members_sublist : {α : Type} → (parts : Parts α) → (a : α) →
    List.Sublist ((parts.members a).map Prod.fst) parts.keys
  | _, .done, _ => List.Sublist.refl _
  | _, .required _ _ rest, (_, b) => (rest.members_sublist b).cons_cons _
  | _, .optional _ _ rest, (some _, b) => (rest.members_sublist b).cons_cons _
  | _, .optional _ _ rest, (none, b) => (rest.members_sublist b).cons _
  | _, .defaulted _ _ _ omitted rest, (a, b) => by
    by_cases ho : omitted a = true
    · rw [members_defaulted_omitted ho]
      exact (rest.members_sublist b).cons _
    · rw [members_defaulted_written ho]
      exact (rest.members_sublist b).cons_cons _

/-- What is written has no keys but those of the parts. -/
theorem lookup_members_of_not_mem {parts : Parts α} (a : α) (h : key ∉ parts.keys) :
    Json.lookup key (parts.members a) = none :=
  Json.lookup_eq_none_iff_not_mem.2 fun hm => h ((parts.members_sublist a).subset hm)

/-- The parts after the first look only for members after the first. -/
theorem lookup_tail {keys : List String} {written : List (String × Json)} (hkey : key ∉ keys)
    (h : ∀ k ∈ key :: keys, Json.lookup k members = Json.lookup k ((key, v) :: written)) :
    ∀ k ∈ keys, Json.lookup k members = Json.lookup k written := by
  intro k hk
  have hne : key ≠ k := fun he => hkey (he ▸ hk)
  rw [h k (List.mem_cons_of_mem _ hk), Json.lookup_cons, if_neg hne]

end Parts

end ResourceSchema
