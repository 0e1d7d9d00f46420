/-
# Saying what is so anyway

Under some keys nothing has to be given, and each of these keys has a value that
says the same as nothing (`Place.defaults`).  To give it makes no difference
(`Place.load_put`), not even to the mismatch that is reported, wherever and however
often it is done (`Schema.ofDocument_supplied`).

The value is not `null` for every key.  Where it is something else, and where there
is none, `null` is refused (`Place.exists_load_null`).
-/

import Mathlib.Logic.Relation
import ResourceSchema.Proofs.Form.Places

namespace ResourceSchema

open Format

namespace Parts

variable {default? : String → Option Json} {key : String}

/-- A part is read from its default as from nothing. -/
theorem Agree.ofObject_put {value : Json} {members : List (String × Json)}
    (hnone : Json.lookup key members = none) (hvalue : default? key = some value) :
    {α : Type} → {parts : Parts α} → parts.Agree default? →
    parts.ofObject (Json.put key value members) = parts.ofObject members
  | _, .done, _ => rfl
  | _, .required other shape rest, h => by
    obtain ⟨⟨hother, -⟩, hrest⟩ := h
    have hne : key ≠ other := fun he => nomatch (he ▸ hvalue).symm.trans hother
    rw [ofObject_required, ofObject_required, Json.lookup_put, if_neg hne,
      hrest.ofObject_put hnone hvalue]
  | _, .optional other shape rest, h => by
    obtain ⟨hother, hrest⟩ := h
    rw [ofObject_optional, ofObject_optional, Json.lookup_put, hrest.ofObject_put hnone hvalue]
    by_cases he : key = other
    · subst he
      rw [if_pos rfl, hnone, Option.some.inj (hvalue.symm.trans hother)]
    · rw [if_neg he]
  | _, .defaulted other shape _ _ rest, h => by
    obtain ⟨⟨⟨v, hother, hload⟩, -⟩, hrest⟩ := h
    rw [ofObject_defaulted, ofObject_defaulted, Json.lookup_put, hrest.ofObject_put hnone hvalue]
    by_cases he : key = other
    · subst he
      rw [if_pos rfl, hnone, Option.some.inj (hvalue.symm.trans hother)]
      simp only [hload, Outcome.ofLoad]
    · rw [if_neg he]

/-- `null` is refused where it is not the default. -/
theorem Agree.not_readFrom_null {given : String → Option Json} (hgiven : given key = some .null)
    (hnull : default? key ≠ some .null) : {α : Type} → {parts : Parts α} →
    parts.Agree default? → key ∈ parts.keys → (a : α) → ¬ parts.ReadFrom given a
  | _, .done, _, hkey, _ => nomatch hkey
  | _, .required _ _ rest, h, hkey, (a, b) => by
    obtain ⟨⟨-, hload⟩, hrest⟩ := h
    rintro ⟨hread, htail⟩
    rcases List.mem_cons.1 hkey with rfl | hkey
    · rw [hgiven, required_some_iff] at hread
      exact hload a hread
    · exact hrest.not_readFrom_null hgiven hnull hkey b htail
  | _, .optional _ _ rest, h, hkey, (_, b) => by
    obtain ⟨hother, hrest⟩ := h
    rintro ⟨-, htail⟩
    rcases List.mem_cons.1 hkey with rfl | hkey
    · exact hnull hother
    · exact hrest.not_readFrom_null hgiven hnull hkey b htail
  | _, .defaulted _ _ _ _ rest, h, hkey, (a, b) => by
    obtain ⟨⟨-, hload⟩, hrest⟩ := h
    rintro ⟨hread, htail⟩
    rcases List.mem_cons.1 hkey with rfl | hkey
    · rw [hgiven, defaulted_some_iff] at hread
      exact hload a hread
    · exact hrest.not_readFrom_null hgiven hnull hkey b htail

end Parts

namespace Place

variable {place : Place} {key : String} {members : List (String × Json)}

/-- **At each place** a default is read as nothing. -/
theorem load_put {value : Json} (hnone : Json.lookup key members = none)
    (hvalue : Json.lookup key place.defaults = some value) :
    place.load (.obj (Json.put key value members)) = place.load (.obj members) := by
  obtain ⟨β, parts, title, make, hload, -, hagree⟩ := place.exists_parts
  rw [hload, hload, Parts.bare, Shape.load, Shape.load, hagree.ofObject_put hnone hvalue]

/-- **At each place** `null` is refused under the other keys. -/
theorem exists_load_null (hkey : key ∈ place.keys)
    (hnull : Json.lookup key place.defaults ≠ some .null)
    (hgiven : Json.lookup key members = some .null) :
    ∃ e, place.load (.obj members) = .error e := by
  obtain ⟨β, parts, title, make, hload, hkeys, hagree⟩ := place.exists_parts
  cases hresult : place.load (.obj members) with
  | error e => exact ⟨e, rfl⟩
  | ok a =>
    rw [hload, map_eq_ok_iff] at hresult
    obtain ⟨b, hb, -⟩ := hresult
    rw [Parts.bare, Shape.load, map_eq_ok_iff] at hb
    obtain ⟨c, hc, -⟩ := hb
    rw [Outcome.toExcept_eq_ok_iff, parts.ofObject_eq_complete_iff] at hc
    exact absurd hc (hagree.not_readFrom_null hgiven hnull (hkeys ▸ hkey) c)

end Place

/-- At one place an object is given a default that it lacks. -/
inductive Supplied : Json → Json → Prop
  | insert {place : Place} {fill : Json → Json} {key : String} {value : Json}
      {members : List (String × Json)} (ho : Opening place .schema fill)
      (hnone : Json.lookup key members = none)
      (hvalue : Json.lookup key place.defaults = some value) :
      Supplied (fill (.obj members)) (fill (.obj (Json.put key value members)))

/-- **Supplying one default changes nothing,** at whatever place of the document. -/
theorem Supplied.ofDocument_eq {document document' : Json} (h : Supplied document document') :
    Schema.ofDocument document = Schema.ofDocument document' := by
  obtain ⟨ho, hnone, hvalue⟩ := h
  obtain ⟨K, -, hload⟩ := ho.ofDocument_eq
  rw [hload _ fun _ => ⟨_, rfl⟩, hload _ fun _ => ⟨_, rfl⟩, Place.load_put hnone hvalue]

/-- **A default says the same as nothing,** at any number of places at once, and
`null` is no other way to say nothing. -/
theorem Schema.ofDocument_supplied :
    (∀ document document', Relation.ReflTransGen Supplied document document' →
      ofDocument document = ofDocument document') ∧
    ∀ (place : Place) (fill : Json → Json) (members : List (String × Json)) (key : String),
      Opening place .schema fill → key ∈ place.keys →
      Json.lookup key place.defaults ≠ some .null → Json.lookup key members = some .null →
      ∃ e, ofDocument (fill (.obj members)) = .error e := by
  refine ⟨fun document document' h => ?_, fun place fill members key ho hkey hnull hgiven => ?_⟩
  · induction h with
    | refl => rfl
    | tail _ hstep ih => exact ih.trans hstep.ofDocument_eq
  · obtain ⟨K, hK, hload⟩ := ho.ofDocument_eq
    obtain ⟨e, he⟩ := Place.exists_load_null hkey hnull hgiven
    obtain ⟨e', he'⟩ := hK e
    exact ⟨.mismatch e', by rw [hload _ fun _ => ⟨_, rfl⟩, he, he']; rfl⟩

/-- An array without and with its items, a schema without and with its name, and an
array of `null`. -/
theorem Schema.ofDocument_supplied_array :
    ofDocument (.obj [("types", .arr [.obj [("ArrayTypeDef",
        .obj [("name", .str "A"), ("type", .str "Array")])]])]) =
      ofDocument (.obj [("name", .null), ("types", .arr [.obj [("ArrayTypeDef",
        .obj [("items", .str "Any"), ("name", .str "A"), ("type", .str "Array")])]])]) ∧
    ∃ e, ofDocument (.obj [("types", .arr [.obj [("ArrayTypeDef",
      .obj [("items", .null), ("name", .str "A"), ("type", .str "Array")])]])]) = .error e := by
  have harray : Opening (.body (.array "" {})) .schema fun x =>
      .obj [("types", .arr [.obj [("ArrayTypeDef", x)]])] :=
    @Opening.definition _ _ _ [] [] [] [] (by decide) .here
  have hitems := @Supplied.insert _ _ "items" (.str "Any")
    [("name", .str "A"), ("type", .str "Array")] harray rfl rfl
  have hname := @Supplied.insert _ _ "name" .null [("types", .arr [.obj [("ArrayTypeDef",
    .obj [("items", .str "Any"), ("name", .str "A"), ("type", .str "Array")])]])] .here rfl rfl
  exact ⟨ofDocument_supplied.1 _ _ (.tail (.single hitems) hname),
    ofDocument_supplied.2 _ _ [("items", .null), ("name", .str "A"), ("type", .str "Array")] "items"
      harray (by decide) (by decide) rfl⟩

end ResourceSchema
