/-
# A body as a list and as an object

A list gives the parts of a record in declaration order, and may end early.  The
object that binds the same values to the first keys stands for the same value, or
for none if the list stands for none (`Place.load_list_toOption`); only what is
reported may differ, since a list is read in declaration order and an object in key
order.

In a document every body, field and element chooses its form for itself.
`Relisted` changes the form of one of them, wherever it stands, and no number of
such changes makes a difference (`Schema.ofDocument_two_forms`).
-/

import Mathlib.Logic.Relation
import ResourceSchema.Proofs.Form.Places

namespace ResourceSchema

open Format

/-- A strict step sees of a failure only that it is one. -/
theorem Strict.toOption_congr {α β : Type} {K : Except Mismatch α → Except Mismatch β}
    (hK : Strict K) {r s : Except Mismatch α} (h : r.toOption = s.toOption) :
    (K r).toOption = (K s).toOption := by
  cases r with
  | ok a =>
    cases s with
    | ok b => rw [Option.some.inj h]
    | error e => cases h
  | error e =>
    cases s with
    | ok b => cases h
    | error f =>
      obtain ⟨_, he⟩ := hK e
      obtain ⟨_, hf⟩ := hK f
      rw [he, hf]
      rfl

/-- Items of a list take the keys from the first on. -/
theorem map_fst_zip_sublist (keys : List String) (items : List Json) :
    ((keys.zip items).map Prod.fst).Sublist keys := by
  induction keys generalizing items with
  | nil => exact List.Sublist.refl _
  | cons key keys ih =>
    cases items with
    | nil => exact List.nil_sublist _
    | cons item items => exact (ih items).cons_cons key

/-- An object of the first keys binds them to the items of the list. -/
theorem lookup_object_zip {keys : List String} (hkeys : keys.Nodup) (items : List Json)
    (key : String) :
    Json.lookup key (Json.arrange (keys.zip items)) = Json.lookup key (keys.zip items) :=
  Json.lookup_arrange (hkeys.sublist (map_fst_zip_sublist keys items)) key

/-- **The two forms stand for the same values.** -/
theorem Parts.load_list_eq_ok_iff {α : Type} (parts : Parts α) (hkeys : parts.keys.Nodup)
    {items : List Json} (hlength : items.length ≤ parts.keys.length) (title : String) {a : α} :
    (parts.bare title).load (.arr items) = .ok a ↔
      (parts.bare title).load (Json.object (parts.keys.zip items)) = .ok a := by
  rw [bare, Json.object, Shape.load, Shape.load, map_eq_ok_iff, map_eq_ok_iff]
  refine exists_congr fun b => and_congr_left fun _ => ?_
  rw [Outcome.toExcept_eq_ok_iff, parts.ofObject_eq_complete_iff, parts.ofList_eq_ok_iff hkeys,
    and_iff_right hlength]
  exact (parts.readFrom_congr (fun key _ => lookup_object_zip hkeys items key) b).symm

/-- **At each place** a list and the object of its first keys are read alike. -/
theorem Place.load_list_toOption (place : Place) {items : List Json}
    (hlength : items.length ≤ place.keys.length) :
    (place.load (.arr items)).toOption =
      (place.load (Json.object (place.keys.zip items))).toOption := by
  obtain ⟨β, parts, title, make, hload, hkeys, -⟩ := place.exists_parts
  have hnodup : parts.keys.Nodup := hkeys ▸ place.keys_nodup
  rw [← hkeys] at hlength ⊢
  rw [hload, hload]
  refine toOption_eq_of_forall fun a => ?_
  rw [map_eq_ok_iff, map_eq_ok_iff]
  exact exists_congr fun b => and_congr_left fun _ =>
    parts.load_list_eq_ok_iff hnodup hlength title

/-- One body, field or element that binds the first of its keys is rewritten as a
list. -/
inductive Relisted : Json → Json → Prop
  | rewrite {place : Place} {fill : Json → Json} {items : List Json} (hplace : place ≠ .schema)
      (hc : Opening place .schema fill) (hlength : items.length ≤ place.keys.length) :
      Relisted (fill (Json.object (place.keys.zip items))) (fill (.arr items))

/-- **Rewriting one object as a list changes nothing,** at whatever place of the document, but
for the error that is reported. -/
theorem Relisted.ofDocument_toOption {document document' : Json}
    (h : Relisted document document') :
    (Schema.ofDocument document).toOption = (Schema.ofDocument document').toOption := by
  obtain ⟨hplace, hc, hlength⟩ := h
  obtain ⟨K, hK, hload⟩ := hc.ofDocument_eq
  have hinner := hK.toOption_congr (Place.load_list_toOption _ hlength)
  rw [hload _ fun h => absurd h hplace, hload _ fun h => absurd h hplace, toOption_mapError,
    toOption_mapError, hinner]

/-- **The two forms agree,** for every body, field and element, and so in every
document, whatever the choices that are made in it. -/
theorem Schema.ofDocument_two_forms :
    (∀ (place : Place) (items : List Json), items.length ≤ place.keys.length →
      (place.load (.arr items)).toOption =
        (place.load (Json.object (place.keys.zip items))).toOption) ∧
    ∀ document document', Relation.ReflTransGen Relisted document document' →
      (ofDocument document).toOption = (ofDocument document').toOption := by
  refine ⟨fun place items => place.load_list_toOption, fun document document' h => ?_⟩
  induction h with
  | refl => rfl
  | tail _ hstep ih => exact ih.trans hstep.ofDocument_toOption

/-- A struct with one field, both as objects and both as lists. -/
theorem Schema.ofDocument_two_forms_struct :
    ((Place.body .synonym).load (.arr [.str "A", .str "Any"])).toOption =
      ((Place.body .synonym).load (.obj [("name", .str "A"), ("type", .str "Any")])).toOption ∧
    (ofDocument (.obj [("types", .arr [.obj [("StructTypeDef", .obj [
      ("fields", .arr [.obj [("name", .str "f"), ("type", .str "Any")]]),
      ("name", .str "S"), ("type", .str "Struct")])]])])).toOption =
    (ofDocument (.obj [("types", .arr [.obj [("StructTypeDef", .arr [.str "S", .str "Struct",
      .arr [.arr [.str "f", .str "Any"]]])]])])).toOption := by
  have hfields : Slot (keys (.struct [] false)) "fields" fun x =>
      .obj [("fields", x), ("name", .str "S"), ("type", .str "Struct")] :=
    @Slot.object _ _ [] _ (by decide)
  have hbody : Opening (.body (.struct [] false)) .schema fun x =>
      .obj [("types", .arr [.obj [("StructTypeDef", x)]])] :=
    @Opening.definition _ _ _ [] [] [] [] (by decide) .here
  have hfield : Opening .field .schema fun x => .obj [("types", .arr [.obj [("StructTypeDef", .obj
      [("fields", .arr [x]), ("name", .str "S"), ("type", .str "Struct")])]])] :=
    @Opening.definition _ _ _ [] [] [] [] (by decide) (@Opening.field _ _ _ _ _ [] [] hfields .here)
  have hfirst := @Relisted.rewrite .field _ [.str "f", .str "Any"] nofun hfield (by decide)
  have hsecond := @Relisted.rewrite (.body _) _
    [.str "S", .str "Struct", .arr [.arr [.str "f", .str "Any"]]] nofun hbody (by decide)
  exact ⟨ofDocument_two_forms.1 (.body .synonym) [_, _] (by decide),
    ofDocument_two_forms.2 _ _ (.tail (.single hfirst) hsecond)⟩

end ResourceSchema
