/-
# What is written is read back

A lawful shape reads every value that is free of nulls from the tree it is
written as (`Shape.load_print`), and reads no other values from any tree
(`Shape.nullFree_of_load`): a part that loads from something other than `null`
is never written as `null`, and `null` itself is read as absence.  So the
schemas that are read back are exactly those without a `null` among the default
values of their fields, and every schema in a text is one of them
(`Schema.ofDocument_toJson_iff`).

Both directions go by recursion on the shape, together with its parts and
cases.
-/

import ResourceSchema.Proofs.Form.Lawful
import ResourceSchema.Proofs.Form.Parts

namespace ResourceSchema

/-! ### Texts, sizes and annotations -/

/-- A size that was written is read back. -/
theorem loadSize_wordOfSize (n : UInt32) : loadSize (.num (.integer (wordOfSize n))) = .ok n := by
  have hlt : (n.toNat : Int) < 2 ^ 32 := by have := n.toNat_lt; omega
  simp only [loadSize, wordOfSize, if_pos (And.intro (Int.natCast_nonneg _) hlt), Int.toNat_natCast,
    UInt32.ofNat_toNat]

/-- Annotations that were written are read back. -/
theorem loadAnnotations_entries (a : Annotations) :
    loadAnnotations (.obj (a.entries.map fun e => (e.1, .str e.2))) = .ok a := by
  rcases a with ⟨entries, hin⟩
  rw [loadAnnotations, map_eq_ok_iff]
  refine ⟨entries, ?_, ?_⟩
  · rw [mapM_eq_ok_iff, List.forall₂_map_left_iff, List.forall₂_same]
    exact fun _ _ => rfl
  · simp only [Annotations.ofList, hin.arrange_eq]

/-! ### Writing, then reading -/

/-- What a case writes carries the tag of a case. -/
theorem Cases.tag_mem_of_member? : {α : Type} → (cases : Cases α) → {a : α} →
    {member : String × Json} → cases.member? a = some member → member.1 ∈ cases.tags
  | _, .none, _, _, h => nomatch h
  | _, .case tag _ _ unwrap? _ rest, a, _, h => by
    rw [Cases.member?] at h
    rcases hu : unwrap? a with _ | b
    · rw [hu] at h
      exact List.mem_cons_of_mem _ (rest.tag_mem_of_member? h)
    · rw [hu] at h
      obtain rfl := Option.some.inj h
      exact List.mem_cons_self

/-- A case leaves the bodies of other tags to the other cases. -/
theorem Cases.ofBody_of_ne {α β : Type} {tag tag' : String} {shape : Shape β} {wrap : β → α}
    {unwrap? : α → Option β} {wrap_of_unwrap : ∀ a b, unwrap? a = some b → wrap b = a}
    {rest : Cases α} {known : List String} {body : Option Json} (h : tag ≠ tag') :
    (Cases.case tag' shape wrap unwrap? wrap_of_unwrap rest).ofBody known tag body =
      rest.ofBody known tag body := by
  cases body <;> rw [Cases.ofBody, if_neg h]

mutual
/-- **A lawful shape reads what it has written.** -/
theorem Shape.load_print : {α : Type} → (shape : Shape α) → shape.Lawful → (a : α) →
    shape.NullFree a → shape.load (shape.print a) = .ok a
  | _, .text, _, _, _ => rfl
  | _, .size, _, n, _ => loadSize_wordOfSize n
  | _, .number, _, _, _ => rfl
  | _, .flag, _, _, _ => rfl
  | _, .annotations, _, a, _ => loadAnnotations_entries a
  | _, .tree, _, _, _ => rfl
  | _, .list item, hl, items, ha => by
    rw [Shape.print, Shape.load, mapM_eq_ok_iff, List.forall₂_map_left_iff, List.forall₂_same]
    exact fun a hm => item.load_print hl a (ha a hm)
  | _, .choice options name, hl, a, _ => by
    rw [Shape.print, Shape.load, loadChoice, findOption, hl a]
  | _, .record title parts make split make_split, h, a, ha => by
    obtain ⟨hkeys, _, hl⟩ := h
    have hm := (parts.members_sublist (split a)).nodup hkeys
    rw [Shape.print, Json.object, Shape.load,
      parts.ofObject_members hl hkeys (split a) ha _ fun k _ => Json.lookup_arrange hm k]
    exact congrArg Except.ok (make_split a)
  | _, .tagged cases, h, a, ha => by
    obtain ⟨htags, hall, hl⟩ := h
    obtain ⟨⟨tag, body⟩, hm⟩ := Option.isSome_iff_exists.1 (hall a)
    rw [Shape.print, hm]
    exact cases.ofBody_member cases.tags hl htags ha hm
/-- Members that lead to the same as the written ones are read as the parts that
were written. -/
theorem Parts.ofObject_members : {α : Type} → (parts : Parts α) → parts.Lawful →
    parts.keys.Nodup → (a : α) → parts.NullFree a → (members : List (String × Json)) →
    (∀ k ∈ parts.keys, Json.lookup k members = Json.lookup k (parts.members a)) →
    parts.ofObject members = .complete a
  | _, .done, _, _, _, _, _, _ => rfl
  | _, .required key shape rest, hl, hkeys, (a, b), hn, members, h => by
    obtain ⟨hs, hr⟩ := hl
    obtain ⟨ha, hb⟩ := hn
    obtain ⟨hkey, hkeys⟩ := List.nodup_cons.1 hkeys
    have hv : Json.lookup key members = some (shape.print a) := by
      rw [h key List.mem_cons_self, Parts.members, Json.lookup_cons, if_pos rfl]
    have hrest := rest.ofObject_members hr hkeys b hb members (Parts.lookup_tail hkey h)
    rw [Parts.ofObject_required_some hv, shape.load_print hs a ha, hrest]
    rfl
  | _, .optional key shape rest, hl, hkeys, (some a, b), hn, members, h => by
    obtain ⟨hs, hr⟩ := hl
    obtain ⟨ha, hb⟩ := hn
    obtain ⟨hkey, hkeys⟩ := List.nodup_cons.1 hkeys
    obtain ⟨hnull, ha⟩ := ha a rfl
    have hv : Json.lookup key members = some (shape.print a) := by
      rw [h key List.mem_cons_self, Parts.members, Json.lookup_cons, if_pos rfl]
    have hrest := rest.ofObject_members hr hkeys b hb members (Parts.lookup_tail hkey h)
    rw [Parts.ofObject_optional_some hv hnull, shape.load_print hs a ha, hrest]
    rfl
  | _, .optional key shape rest, hl, hkeys, (none, b), hn, members, h => by
    obtain ⟨_, hr⟩ := hl
    obtain ⟨_, hb⟩ := hn
    obtain ⟨hkey, hkeys⟩ := List.nodup_cons.1 hkeys
    have hv : Json.lookup key members = none := by
      rw [h key List.mem_cons_self, Parts.members, Parts.lookup_members_of_not_mem b hkey]
    have hrest := rest.ofObject_members hr hkeys b hb members fun k hk =>
      h k (List.mem_cons_of_mem _ hk)
    rw [Parts.ofObject_optional_none hv, hrest]
    rfl
  | _, .defaulted key shape value omitted rest, hl, hkeys, (a, b), hn, members, h => by
    obtain ⟨hs, hvalue, _, hr⟩ := hl
    obtain ⟨ha, hb⟩ := hn
    obtain ⟨hkey, hkeys⟩ := List.nodup_cons.1 hkeys
    -- What was left out is the default, so nothing may lead to it.
    by_cases ho : omitted a = true
    · rw [Parts.members_defaulted_omitted ho] at h
      have hv : Json.lookup key members = none := by
        rw [h key List.mem_cons_self, Parts.lookup_members_of_not_mem b hkey]
      have hrest := rest.ofObject_members hr hkeys b hb members fun k hk =>
        h k (List.mem_cons_of_mem _ hk)
      rw [Parts.ofObject_defaulted_none hv, hrest, hvalue a ho]
      rfl
    · rw [Parts.members_defaulted_written ho] at h
      have hv : Json.lookup key members = some (shape.print a) := by
        rw [h key List.mem_cons_self, Json.lookup_cons, if_pos rfl]
      have hrest := rest.ofObject_members hr hkeys b hb members (Parts.lookup_tail hkey h)
      rw [Parts.ofObject_defaulted_some hv, shape.load_print hs a ha, hrest]
      rfl
/-- The case of a value reads what stands under the value's tag. -/
theorem Cases.ofBody_member : {α : Type} → (cases : Cases α) → (known : List String) →
    cases.Lawful → cases.tags.Nodup → {a : α} → cases.NullFree a → {tag : String} →
    {body : Json} → cases.member? a = some (tag, body) →
    cases.ofBody known tag (some body) = .ok a
  | _, .none, _, _, _, _, _, _, _, h => nomatch h
  | _, .case tag' shape wrap unwrap? wrap_of_unwrap rest, known, hl, htags, a, ha, tag, body,
      h => by
    obtain ⟨hs, _, _, hr⟩ := hl
    obtain ⟨htag, htags⟩ := List.nodup_cons.1 htags
    rw [Cases.member?] at h
    rw [Cases.NullFree] at ha
    rcases hu : unwrap? a with _ | b
    · rw [hu] at h ha
      have hne : tag ≠ tag' := fun he => htag (he ▸ rest.tag_mem_of_member? h)
      rw [Cases.ofBody_of_ne hne]
      exact rest.ofBody_member known hr htags ha h
    · rw [hu] at h ha
      obtain ⟨rfl, rfl⟩ := Prod.mk.inj (Option.some.inj h)
      have hload := shape.load_print hs b ha
      have hwrap := wrap_of_unwrap a b hu
      rw [Cases.ofBody, if_pos rfl]
      simp only [hload, Except.map, hwrap]
end

/-! ### What is read at all -/

/-- What loads from something other than `null` is not written as `null`. -/
theorem Shape.print_ne_null {α : Type} {shape : Shape α} (hl : shape.Lawful) {v : Json} {a : α}
    (h : shape.load v = .ok a) (hv : v ≠ .null) : shape.print a ≠ .null := by
  cases shape with
  | tree => exact Except.ok.inj h ▸ hv
  | tagged cases =>
    obtain ⟨member, hm⟩ := Option.isSome_iff_exists.1 (hl.2.1 a)
    rw [Shape.print, hm]
    exact nofun
  | _ => exact nofun

mutual
/-- **A lawful shape reads only what is free of nulls.** -/
theorem Shape.nullFree_of_load : {α : Type} → (shape : Shape α) → shape.Lawful → {v : Json} →
    {a : α} → shape.load v = .ok a → shape.NullFree a
  | _, .text, _, _, _, _ => trivial
  | _, .size, _, _, _, _ => trivial
  | _, .number, _, _, _, _ => trivial
  | _, .flag, _, _, _, _ => trivial
  | _, .annotations, _, _, _, _ => trivial
  | _, .tree, _, _, _, _ => trivial
  | _, .choice _ _, _, _, _, _ => trivial
  | _, .list item, hl, v, items, h => by
    cases v with
    | arr vs =>
      intro a ha
      obtain ⟨v, _, hv⟩ := exists_of_mem_mapM h ha
      exact item.nullFree_of_load hl hv
    | _ => cases h
  | _, .record title parts make split _, hl, v, a, h => by
    obtain ⟨_, hsplit, hp⟩ := hl
    rw [Shape.NullFree]
    cases v with
    | obj members =>
      obtain ⟨b, hb, rfl⟩ := map_eq_ok_iff.1 h
      rw [hsplit]
      exact parts.nullFree_of_ofObject hp (Outcome.toExcept_eq_ok_iff.1 hb)
    | arr items =>
      obtain ⟨b, hb, rfl⟩ := map_eq_ok_iff.1 h
      rw [hsplit]
      exact parts.nullFree_of_ofList hp hb
    | _ => cases h
  | _, .tagged cases, hl, v, a, h => by
    obtain ⟨_, _, hc⟩ := hl
    cases v with
    | obj members =>
      match members with
      | [(tag, body)] => exact (cases.nullFree_of_ofBody hc h).2
      | [] => cases h
      | _ :: _ :: _ => cases h
    | str tag => exact (cases.nullFree_of_ofBody hc h).2
    | _ => cases h
/-- Parts that are complete in an object are free of nulls. -/
theorem Parts.nullFree_of_ofObject : {α : Type} → (parts : Parts α) → parts.Lawful →
    {members : List (String × Json)} → {a : α} → parts.ofObject members = .complete a →
    parts.NullFree a
  | _, .done, _, _, _, _ => trivial
  | _, .required key shape rest, hl, members, (a, b), h => by
    obtain ⟨hs, hr⟩ := hl
    rcases hv : Json.lookup key members with _ | v
    · rw [Parts.ofObject_required_none hv, Outcome.and_eq_complete_iff] at h
      cases h.1
    · rw [Parts.ofObject_required_some hv, Outcome.and_eq_complete_iff,
        Outcome.ofLoad_eq_complete_iff] at h
      exact ⟨shape.nullFree_of_load hs h.1, rest.nullFree_of_ofObject hr h.2⟩
  | _, .optional key shape rest, hl, members, (a?, b), h => by
    obtain ⟨hs, hr⟩ := hl
    rcases hv : Json.lookup key members with _ | v
    · rw [Parts.ofObject_optional_none hv, Outcome.and_eq_complete_iff] at h
      cases h.1
      exact ⟨nofun, rest.nullFree_of_ofObject hr h.2⟩
    · by_cases hnull : v = .null
      · subst hnull
        rw [Parts.ofObject_optional_null hv, Outcome.and_eq_complete_iff] at h
        cases h.1
        exact ⟨nofun, rest.nullFree_of_ofObject hr h.2⟩
      · rw [Parts.ofObject_optional_some hv hnull, Outcome.and_eq_complete_iff,
          Outcome.ofLoad_eq_complete_iff] at h
        obtain ⟨a, ha, rfl⟩ := map_eq_ok_iff.1 h.1
        refine ⟨fun a' ha' => ?_, rest.nullFree_of_ofObject hr h.2⟩
        obtain rfl := Option.some.inj ha'
        exact ⟨shape.print_ne_null hs ha hnull, shape.nullFree_of_load hs ha⟩
  | _, .defaulted key shape value omitted rest, hl, members, (a, b), h => by
    obtain ⟨hs, _, hvalue, hr⟩ := hl
    rcases hv : Json.lookup key members with _ | v
    · rw [Parts.ofObject_defaulted_none hv, Outcome.and_eq_complete_iff] at h
      cases h.1
      exact ⟨hvalue, rest.nullFree_of_ofObject hr h.2⟩
    · rw [Parts.ofObject_defaulted_some hv, Outcome.and_eq_complete_iff,
        Outcome.ofLoad_eq_complete_iff] at h
      exact ⟨shape.nullFree_of_load hs h.1, rest.nullFree_of_ofObject hr h.2⟩
/-- Parts that load from a list are free of nulls. -/
theorem Parts.nullFree_of_ofList : {α : Type} → (parts : Parts α) → parts.Lawful →
    {title : String} → {declared given : Nat} → {items : List Json} → {a : α} →
    parts.ofList title declared given items = .ok a → parts.NullFree a
  | _, .done, _, _, _, _, _, _, _ => trivial
  | _, .required key shape rest, hl, _, _, _, items, (a, b), h => by
    obtain ⟨hs, hr⟩ := hl
    rcases items with _ | ⟨v, items⟩
    · cases h
    · rw [Parts.ofList_required_cons_eq_ok_iff] at h
      exact ⟨shape.nullFree_of_load hs h.1, rest.nullFree_of_ofList hr h.2⟩
  | _, .optional key shape rest, hl, _, _, _, items, (a?, b), h => by
    obtain ⟨hs, hr⟩ := hl
    rcases items with _ | ⟨v, items⟩
    · rw [Parts.ofList_optional_nil, Parts.map_pair_eq_ok_iff] at h
      obtain rfl := h.1
      exact ⟨nofun, rest.nullFree_of_ofList hr h.2⟩
    · by_cases hnull : v = .null
      · subst hnull
        rw [Parts.ofList_optional_null, Parts.map_pair_eq_ok_iff] at h
        obtain rfl := h.1
        exact ⟨nofun, rest.nullFree_of_ofList hr h.2⟩
      · rw [Parts.ofList_optional_cons_eq_ok_iff hnull] at h
        obtain ⟨⟨a, ha, rfl⟩, hb⟩ := h
        refine ⟨fun a' ha' => ?_, rest.nullFree_of_ofList hr hb⟩
        obtain rfl := Option.some.inj ha'
        exact ⟨shape.print_ne_null hs ha hnull, shape.nullFree_of_load hs ha⟩
  | _, .defaulted key shape value omitted rest, hl, _, _, _, items, (a, b), h => by
    obtain ⟨hs, _, hvalue, hr⟩ := hl
    rcases items with _ | ⟨v, items⟩
    · rw [Parts.ofList_defaulted_nil, Parts.map_pair_eq_ok_iff] at h
      exact ⟨h.1 ▸ hvalue, rest.nullFree_of_ofList hr h.2⟩
    · rw [Parts.ofList_defaulted_cons_eq_ok_iff] at h
      exact ⟨shape.nullFree_of_load hs h.1, rest.nullFree_of_ofList hr h.2⟩
/-- What loads from the body under a tag belongs to a case and is free of
nulls. -/
theorem Cases.nullFree_of_ofBody : {α : Type} → (cases : Cases α) → {known : List String} →
    cases.Lawful → {tag : String} → {body : Option Json} → {a : α} →
    cases.ofBody known tag body = .ok a → (cases.member? a).isSome ∧ cases.NullFree a
  | _, .none, _, _, _, _, _, h => nomatch h
  | _, .case tag' shape wrap unwrap? _ rest, known, hl, tag, body, a, h => by
    obtain ⟨hs, hwrap, halone, hr⟩ := hl
    rw [Cases.member?, Cases.NullFree]
    by_cases htag : tag = tag'
    · rcases body with _ | v
      · rw [Cases.ofBody, if_pos htag] at h
        cases h
      · rw [Cases.ofBody, if_pos htag] at h
        obtain ⟨b, hb, rfl⟩ := map_eq_ok_iff.1 h
        rw [hwrap]
        exact ⟨rfl, shape.nullFree_of_load hs hb⟩
    · rw [Cases.ofBody_of_ne htag] at h
      obtain ⟨hm, hn⟩ := rest.nullFree_of_ofBody hr h
      rcases hu : unwrap? a with _ | b
      · exact ⟨hm, hn⟩
      · rw [halone a (hu ▸ rfl)] at hm
        cases hm
end

/-! ### Schemas -/

namespace Schema

/-- **A schema that was read has no default of null,** since null is read as no default. -/
theorem noNullDefault_of_ofDocument {document : Json} {schema : Schema}
    (h : ofDocument document = .ok schema) : schema.NoNullDefault := by
  cases document with
  | obj members =>
    rcases hl : ofJson (.obj members) with e | a
    · rw [ofDocument, hl] at h
      cases h
    · rw [ofDocument, hl] at h
      obtain rfl := Except.ok.inj h
      exact (nullFree_iff a).1 (Schema.shape.nullFree_of_load Schema.shape_lawful hl)
  | _ => cases h

/-- **A schema without a default of null is read back from what is written of it.** -/
theorem ofDocument_toJson {schema : Schema} (h : schema.NoNullDefault) :
    ofDocument schema.toJson = .ok schema := by
  have hload := Schema.shape.load_print Schema.shape_lawful schema (schema.nullFree_iff.2 h)
  change (ofJson schema.toJson).mapError LoadError.mismatch = .ok schema
  rw [ofJson, toJson, hload]
  rfl

/-- A schema that was read from a text has no default of null either. -/
theorem noNullDefault_of_parse {text : String} {schema : Schema} (h : parse text = .ok schema) :
    schema.NoNullDefault := by
  unfold parse at h
  split at h
  · exact noNullDefault_of_ofDocument h
  · cases h

/-- **A schema is read back from the tree it is written as,** unless a field has
`null` for its default value, and no schema in a text has such a field.  Bounds
are finite doubles by their type. -/
theorem ofDocument_toJson_iff (schema : Schema) :
    (ofDocument schema.toJson = .ok schema ↔ schema.NoNullDefault) ∧
      ∀ text, parse text = .ok schema →
        schema.NoNullDefault ∧ ofDocument schema.toJson = .ok schema :=
  ⟨⟨noNullDefault_of_ofDocument, ofDocument_toJson⟩, fun _ h =>
    ⟨noNullDefault_of_parse h, ofDocument_toJson (noNullDefault_of_parse h)⟩⟩

/-- A schema with a field whose default value is a list of one `null`. -/
def nestedNull : Schema where
  types := [.derived (.struct "Row" [
    { name := "cells", type := "Array", items? := some "Any", default? := some (.arr [.null]) }])]

/-- A null inside a default is no default of null. -/
theorem nestedNull_noNullDefault : nestedNull.NoNullDefault := by
  intro t ht f hf
  obtain rfl := List.mem_singleton.1 ht
  obtain rfl := List.mem_singleton.1 hf
  decide

/-- A `null` inside a default value is no exception, and a text without any parts
is a schema. -/
theorem ofDocument_toJson_nestedNull :
    (nestedNull.NoNullDefault ∧ ofDocument nestedNull.toJson = .ok nestedNull) ∧
      parse "\x7b\x7d" = .ok {} ∧ ofDocument (toJson {}) = .ok {} := by
  have hparse : parse "\x7b\x7d" = .ok {} := rfl
  refine ⟨⟨nestedNull_noNullDefault, ?_⟩, hparse, ?_⟩
  · exact (ofDocument_toJson_iff nestedNull).1.2 nestedNull_noNullDefault
  · exact ((ofDocument_toJson_iff {}).2 _ hparse).2

end Schema

end ResourceSchema
