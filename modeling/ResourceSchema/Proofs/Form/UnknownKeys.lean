/-
# Keys that are not known

Each place of a document has its keys, and all other keys are ignored there.
`Format.pruneSchema` takes them away from the schema, from the bodies of its
definitions and from the fields and elements in these, each in object form; bodies
in list form have no keys, but what is in them is pruned.  Nothing is taken from
elsewhere: tags, annotations and defaults are kept, and what has no known tag is
kept as it is.

What is left has known keys only (`Opening.mem_keys_of_prune`), and it is read as
the same schema or refused for the same reason (`Schema.ofDocument_pruneSchema`).
-/

import ResourceSchema.Proofs.Form.Places

namespace ResourceSchema

namespace Json

/-- An object without the members whose keys are not among these. -/
def restrict (keys : List String) : Json → Json
  | obj members => obj (members.filter fun m => m.1 ∈ keys)
  | v => v

/-- A body with what it gives under one of its keys changed. -/
def adjust (keys : List String) (key : String) (f : Json → Json) : Json → Json
  | obj members => obj (members.map fun m => if m.1 = key then (m.1, f m.2) else m)
  | arr items => arr (items.modify (keys.idxOf key) f)
  | v => v

/-- A list with each item changed. -/
def each (f : Json → Json) : Json → Json
  | arr items => arr (items.map f)
  | v => v

end Json

namespace Format

/-- A body without unknown keys, and nothing with unknown keys in it. -/
def pruneBody (kind : Detail) (body : Json) : Json :=
  let known := body.restrict (keys kind)
  match kind with
  | .struct .. => known.adjust (keys kind) "fields" (.each (.restrict fieldKeys))
  | .enum _ => known.adjust (keys kind) "elements" (.each (.restrict ["symbol", "comment"]))
  | _ => known

/-- One of each kind. -/
def kinds : List Detail :=
  [.synonym, .text none [] none none, .number none none, .bytes {}, .struct [] false, .array "" {},
    .map "" "" {}, .enum [], .union []]

/-- A definition with its body pruned, if it has a known tag. -/
def pruneDefinition : Json → Json
  | .obj [(name, body)] =>
    match kinds.find? (tag · = name) with
    | some kind => .obj [(name, pruneBody kind body)]
    | none => .obj [(name, body)]
  | v => v

/-- A document without unknown keys. -/
def pruneSchema (document : Json) : Json :=
  (document.restrict Place.schema.keys).adjust Place.schema.keys "types" (.each pruneDefinition)

end Format

open Format

/-- What stands at a place, without unknown keys. -/
def Place.prune : Place → Json → Json
  | schema, v => pruneSchema v
  | body kind, v => pruneBody kind v
  | field, v => v.restrict fieldKeys
  | element, v => v.restrict ["symbol", "comment"]

/-! ### Reading what is left -/

/-- A list is loaded alike when its items are rewritten to ones that are. -/
theorem Shape.load_each {γ : Type} {item : Shape γ} {f : Json → Json}
    (hf : ∀ v, item.load (f v) = item.load v) (v : Json) :
    (Shape.list item).load (v.each f) = (Shape.list item).load v := by
  cases v with
  | arr items =>
    rw [Json.each, load, load, List.mapM_map]
    exact congrArg (List.mapM · items) (funext hf)
  | _ => rfl

namespace Place

variable {place : Place} {γ : Type} {key : String} {item : Shape γ}

/-- Unknown keys are ignored at one place. -/
theorem load_restrict (place : Place) (v : Json) :
    place.load (v.restrict place.keys) = place.load v := by
  cases v with
  | obj members => exact place.load_congr fun key hkey => Json.lookup_filter hkey members
  | _ => rfl

/-- What is given under a key may stand in front, since only the first member of a
key counts. -/
theorem load_eq_front (place : Place) {members others : List (String × Json)} {x : Json}
    (hx : Json.lookup key others = some x)
    (hrest : ∀ k, k ≠ key → Json.lookup k others = Json.lookup k members) :
    place.load (.obj others) = place.load (.obj ([] ++ (key, x) :: members)) := by
  refine place.load_congr fun k _ => ?_
  rw [List.nil_append, Json.lookup_cons]
  split
  · rename_i hk
    rw [← hk, hx]
  · rename_i hk
    exact hrest k (Ne.symm hk)

/-- A list at a place may be replaced by one that is read alike. -/
theorem Lists.load_adjust (h : place.Lists key item) {f : Json → Json}
    (hf : ∀ v, (Shape.list item).load (f v) = (Shape.list item).load v) (v : Json) :
    place.load (v.adjust place.keys key f) = place.load v := by
  cases v with
  | obj members =>
    cases hx : Json.lookup key members with
    | none =>
      refine place.load_congr fun k _ => ?_
      rw [Json.lookup_map_if]
      split
      · rename_i hk
        rw [hk, hx, Option.map_none]
      · rfl
    | some x =>
      -- What counts is where the keys lead, so the member may be taken to the front.
      have hslot : Slot place.keys key fun y => .obj ([] ++ (key, y) :: members) :=
        .object List.not_mem_nil
      obtain ⟨K, -, hload⟩ := h.load_eq hslot
      have hbefore := place.load_eq_front hx fun _ _ => rfl
      have hafter : place.load ((Json.obj members).adjust place.keys key f) =
          place.load (.obj ([] ++ (key, f x) :: members)) := by
        refine place.load_eq_front ?_ fun k hk => ?_
        · rw [Json.lookup_map_if, if_pos rfl, hx, Option.map_some]
        · rw [Json.lookup_map_if, if_neg hk]
      rw [hbefore, hafter, hload, hload, hf]
  | arr items =>
    by_cases hi : place.keys.idxOf key < items.length
    · obtain ⟨before, x, after, rfl, hlength, hmodify⟩ := List.exists_of_modify f hi
      have hslot : Slot place.keys key fun y => .arr (before ++ y :: after) :=
        .list (by rw [hlength, List.getElem?_idxOf h.mem_keys])
      obtain ⟨K, -, hload⟩ := h.load_eq hslot
      rw [Json.adjust, hmodify, hload, hload, hf]
    · rw [Json.adjust, List.modify_eq_self (not_lt.1 hi)]
  | _ => rfl

/-- The body of a definition is loaded alike without its unknown keys. -/
theorem load_pruneBody (kind : Detail) (v : Json) :
    (body kind).load (pruneBody kind v) = (body kind).load v := by
  have hknown := (body kind).load_restrict v
  cases kind with
  | struct =>
    exact (lists_fields.load_adjust (Shape.load_each field.load_restrict) _).trans hknown
  | enum =>
    exact (lists_elements.load_adjust (Shape.load_each element.load_restrict) _).trans hknown
  | _ => exact hknown

/-- **A definition is loaded alike without its unknown keys.** -/
theorem load_pruneDefinition (v : Json) :
    TypeDef.shape.load (pruneDefinition v) = TypeDef.shape.load v := by
  unfold pruneDefinition
  split
  · rename_i name b
    split
    · rename_i kind hkind
      obtain rfl : tag kind = name := by simpa using List.find?_some hkind
      exact load_pruneBody kind b
    · rfl
  · rfl

/-- **Unknown keys are ignored** at and below each place. -/
theorem load_prune (place : Place) (v : Json) : place.load (place.prune v) = place.load v := by
  cases place with
  | schema =>
    exact (lists_types.load_adjust (Shape.load_each load_pruneDefinition) _).trans
      (schema.load_restrict v)
  | body kind => exact load_pruneBody kind v
  | field => exact field.load_restrict v
  | element => exact element.load_restrict v

end Place

/-! ### What is left -/

namespace Json

variable {keys : List String} {key : String} {f : Json → Json} {v : Json}

/-- What is left of an object has known keys only. -/
theorem mem_keys_of_restrict {members : List (String × Json)} (h : v.restrict keys = .obj members) :
    ∀ m ∈ members, m.1 ∈ keys := by
  cases v with
  | obj given =>
    cases h
    exact fun m hm => by simpa using (List.mem_filter.1 hm).2
  | _ => cases h

/-- A change under one key adds no key. -/
theorem mem_keys_of_adjust {members : List (String × Json)}
    (hv : ∀ given, v = .obj given → ∀ m ∈ given, m.1 ∈ keys)
    (h : v.adjust keys key f = .obj members) : ∀ m ∈ members, m.1 ∈ keys := by
  cases v with
  | obj given =>
    cases h
    intro m hm
    obtain ⟨n, hn, rfl⟩ := List.mem_map.1 hm
    have hmem := hv given rfl n hn
    split
    · exact hmem
    · exact hmem
  | _ => cases h

/-- What is found under the key of a changed body has been changed. -/
theorem exists_of_adjust_eq {slot : Json → Json} {y : Json} (hs : Slot keys key slot)
    (hkeys : keys.Nodup) (h : v.adjust keys key f = slot y) : ∃ x, f x = y := by
  cases hs with
  | @object before after hb =>
    cases v with
    | obj members =>
      have hmem : (key, y) ∈ before ++ (key, y) :: after :=
        List.mem_append_right _ List.mem_cons_self
      rw [← obj.inj h] at hmem
      obtain ⟨m, -, hm⟩ := List.mem_map.1 hmem
      split at hm
      · exact ⟨m.2, (Prod.mk.inj hm).2⟩
      · rename_i hne
        exact absurd (congrArg Prod.fst hm) hne
    | _ => cases h
  | @list before after hb =>
    cases v with
    | arr items =>
      obtain ⟨hlt, hkey⟩ := List.getElem?_eq_some_iff.1 hb
      have hidx : keys.idxOf key = before.length := hkey ▸ hkeys.idxOf_getElem _ hlt
      have hy := congrArg (·[before.length]?) (arr.inj h)
      simp only [hidx, List.getElem?_modify, if_pos, List.getElem?_append_right (Nat.le_refl _),
        Nat.sub_self, List.getElem?_cons_zero] at hy
      obtain ⟨x, -, hx⟩ := Option.map_eq_some_iff.1 hy
      exact ⟨x, hx⟩
    | _ => cases h

/-- An item of a rewritten list is a rewritten item. -/
theorem exists_of_each_eq {front back : List Json} {y : Json}
    (h : v.each f = .arr (front ++ y :: back)) : ∃ x, f x = y := by
  cases v with
  | arr items =>
    have hmem : y ∈ front ++ y :: back := List.mem_append_right _ List.mem_cons_self
    rw [← arr.inj h] at hmem
    obtain ⟨x, -, hx⟩ := List.mem_map.1 hmem
    exact ⟨x, hx⟩
  | _ => cases h

/-- An item of a list whose items have been changed has been changed. -/
theorem exists_of_adjust_each_eq {slot : Json → Json} {front back : List Json} {y : Json}
    (hs : Slot keys key slot) (hkeys : keys.Nodup)
    (h : v.adjust keys key (each f) = slot (.arr (front ++ y :: back))) : ∃ x, f x = y := by
  obtain ⟨_, hlist⟩ := exists_of_adjust_eq hs hkeys h
  exact exists_of_each_eq hlist

end Json

/-- Each tag is known, and what is taken from a body depends on its tag alone. -/
theorem Format.exists_find_kind (kind : Detail) :
    ∃ found, kinds.find? (tag · = tag kind) = some found ∧ pruneBody found = pruneBody kind := by
  cases kind <;> exact ⟨_, rfl, rfl⟩

/-- What is found under a tag has been pruned. -/
theorem Format.exists_of_pruneDefinition_eq {v b : Json} {kind : Detail}
    (h : pruneDefinition v = .obj [(tag kind, b)]) : ∃ x, pruneBody kind x = b := by
  obtain ⟨found, hfound, hprune⟩ := exists_find_kind kind
  unfold pruneDefinition at h
  split at h
  · rename_i name x
    split at h
    · rename_i other hother
      cases h
      cases hfound.symm.trans hother
      exact ⟨x, congrFun hprune.symm x⟩
    · rename_i hother
      cases h
      cases hfound.symm.trans hother
  · rename_i hv
    exact absurd h (hv _ _)

/-- What is left of a place has known keys only. -/
theorem Place.mem_keys_of_prune {place : Place} {v : Json} {members : List (String × Json)}
    (h : place.prune v = .obj members) : ∀ m ∈ members, m.1 ∈ place.keys := by
  cases place with
  | schema => exact Json.mem_keys_of_adjust (fun _ => Json.mem_keys_of_restrict) h
  | body kind =>
    cases kind with
    | struct | enum => exact Json.mem_keys_of_adjust (fun _ => Json.mem_keys_of_restrict) h
    | _ => exact Json.mem_keys_of_restrict h
  | field | element => exact Json.mem_keys_of_restrict h

/-- **Nothing unknown is left,** at any place. -/
theorem Opening.mem_keys_of_prune {inner outer : Place} {fill : Json → Json}
    (ho : Opening inner outer fill) {v : Json} {members : List (String × Json)}
    (h : outer.prune v = fill (.obj members)) : ∀ m ∈ members, m.1 ∈ inner.keys := by
  induction ho generalizing v with
  | here => exact Place.mem_keys_of_prune h
  | definition hkey _ ih =>
    obtain ⟨_, hitem⟩ := Json.exists_of_adjust_each_eq (.object hkey) Place.schema.keys_nodup h
    obtain ⟨_, hbody⟩ := exists_of_pruneDefinition_eq hitem
    exact ih hbody
  | @field fields closed _ _ _ _ hs _ ih =>
    have hkeys := (Place.body (.struct fields closed)).keys_nodup
    obtain ⟨_, hitem⟩ := Json.exists_of_adjust_each_eq hs hkeys h
    exact ih hitem
  | @element elements _ _ _ _ hs _ ih =>
    have hkeys := (Place.body (.enum elements)).keys_nodup
    obtain ⟨_, hitem⟩ := Json.exists_of_adjust_each_eq hs hkeys h
    exact ih hitem

/-! ### What is kept -/

/-- Annotations have every key of the object that they are read from. -/
theorem Format.entries_eq {given? : Option Json} {a : Annotations}
    (h : Defaulted IsTexts .empty given? a) (given : List (String × Json))
    (hgiven : given? = some (.obj given)) (horder : Json.InKeyOrder given) :
    a.entries.map (fun e => (e.1, Json.str e.2)) = given := by
  rw [hgiven, defaulted_some_iff] at h
  obtain ⟨entries, hentries, rfl⟩ := h
  rw [Json.obj.inj hentries, Json.InKeyOrder, List.pairwise_map] at horder
  have hsorted : Json.arrange entries = entries := Json.InKeyOrder.arrange_eq horder
  rw [Json.obj.inj hentries]
  exact congrArg (List.map _) hsorted

/-- What is read at a place has everything that is given as annotations and as a
default. -/
def Place.KeepsData : (place : Place) → List (String × Json) → place.Model → Prop
  | field, members, f =>
    (∀ given, Json.lookup "annotations" members = some (.obj given) → Json.InKeyOrder given →
      f.annotations.entries.map (fun e => (e.1, Json.str e.2)) = given) ∧
    ∀ v, Json.lookup "default" members = some v → v ≠ .null → f.default? = some v
  | body _, members, .derived d =>
    ∀ given, Json.lookup "annotations" members = some (.obj given) → Json.InKeyOrder given →
      d.annotations.entries.map (fun e => (e.1, Json.str e.2)) = given
  | _, _, _ => True

/-- Annotations and a default are kept as they were given, whatever keys they hold. -/
theorem Place.keepsData {place : Place} {members : List (String × Json)} {a : place.Model}
    (h : place.load (.obj members) = .ok a) : place.KeepsData members a := by
  cases place with
  | schema | element => trivial
  | field =>
    have hfield : Field.shape.Reads (.obj members) a := h
    rw [Field.reads_shape] at hfield
    obtain ⟨_, ⟨⟩, hparts⟩ := hfield
    refine ⟨entries_eq hparts.annotations, fun v hv hnull => ?_⟩
    have hdefault := hparts.default?
    rw [hv, optional_some_iff hnull] at hdefault
    obtain ⟨_, rfl, hd⟩ := hdefault
    exact hd.symm
  | body kind =>
    have hbody : TypeDef.shape.Reads (.obj [(tag kind, .obj members)]) a := h
    rw [TypeDef.reads_shape] at hbody
    generalize tag kind = name at hbody
    cases hbody with
    | base => trivial
    | derived hd =>
      obtain ⟨_, ⟨⟩, hcommon, -⟩ := hd
      exact entries_eq hcommon.annotations

/-- Annotations and defaults are not touched. -/
theorem Place.exists_prune_eq (place : Place) (members : List (String × Json)) {key : String}
    (hkey : key ∈ place.keys) (hdata : key = "annotations" ∨ key = "default") :
    ∃ rest, place.prune (.obj members) = .obj rest ∧
      Json.lookup key rest = Json.lookup key members := by
  have hrestrict : Json.lookup key (members.filter fun m => m.1 ∈ place.keys) =
      Json.lookup key members := Json.lookup_filter hkey members
  have hadjust : ∀ (other : String) (f : Json → Json), key ≠ other →
      Json.lookup key ((members.filter fun m => m.1 ∈ place.keys).map fun m =>
        if m.1 = other then (m.1, f m.2) else m) = Json.lookup key members := by
    intro other f hne
    rw [Json.lookup_map_if, if_neg hne, hrestrict]
  have hother : key ≠ "types" ∧ key ≠ "fields" ∧ key ≠ "elements" := by
    rcases hdata with rfl | rfl <;> decide
  cases place with
  | schema => exact ⟨_, rfl, hadjust _ _ hother.1⟩
  | body kind =>
    cases kind with
    | struct => exact ⟨_, rfl, hadjust _ _ hother.2.1⟩
    | enum => exact ⟨_, rfl, hadjust _ _ hother.2.2⟩
    | _ => exact ⟨_, rfl, hrestrict⟩
  | field | element => exact ⟨_, rfl, hrestrict⟩

/-- **Unknown keys are ignored everywhere.**  Without them a document is read as the
same schema or refused for the same reason; none of them is left at any place; and
what is given as annotations and as a default is data, which is neither pruned nor
ignored, whatever its keys are. -/
theorem Schema.ofDocument_pruneSchema (document : Json) :
    ofDocument (pruneSchema document) = ofDocument document ∧
    (∀ (place : Place) (fill : Json → Json) (members : List (String × Json)),
      Opening place .schema fill → pruneSchema document = fill (.obj members) →
      ∀ m ∈ members, m.1 ∈ place.keys) ∧
    (∀ (place : Place) (members : List (String × Json)) (key : String), key ∈ place.keys →
      key = "annotations" ∨ key = "default" → ∃ rest, place.prune (.obj members) = .obj rest ∧
        Json.lookup key rest = Json.lookup key members) ∧
    ∀ (place : Place) (members : List (String × Json)) (a : place.Model),
      place.load (.obj members) = .ok a → place.KeepsData members a := by
  refine ⟨?_, fun _ _ _ ho h => ho.mem_keys_of_prune h,
    fun place members _ hkey hdata => place.exists_prune_eq members hkey hdata,
    fun _ _ _ => Place.keepsData⟩
  cases document with
  | obj members =>
    have hload : ofJson (pruneSchema (.obj members)) = ofJson (.obj members) :=
      Place.schema.load_prune (.obj members)
    exact congrArg (Except.mapError LoadError.mismatch) hload
  | _ => rfl

/-- A key `x` that a schema, a struct and a field do not know, and the same key as
data in the default of the field. -/
theorem Schema.ofDocument_pruneSchema_struct :
    ofDocument (.obj [("types", .arr [.obj [("StructTypeDef", .obj [
        ("fields", .arr [.obj [("default", .obj [("x", .null)]), ("name", .str "f"),
          ("type", .str "Any")]]), ("name", .str "S"), ("type", .str "Struct")])]])]) =
      ofDocument (.obj [("types", .arr [.obj [("StructTypeDef", .obj [
        ("fields", .arr [.obj [("default", .obj [("x", .null)]), ("name", .str "f"),
          ("type", .str "Any"), ("x", .bool true)]]), ("name", .str "S"), ("type", .str "Struct"),
        ("x", .arr [])])]]), ("x", .null)]) ∧
    Place.field.KeepsData
      [("default", .obj [("x", .null)]), ("name", .str "f"), ("type", .str "Any")]
      { name := "f", type := "Any", default? := some (.obj [("x", .null)]) : Field } :=
  ⟨(ofDocument_pruneSchema (.obj [("types", .arr [.obj [("StructTypeDef", .obj [
      ("fields", .arr [.obj [("default", .obj [("x", .null)]), ("name", .str "f"),
        ("type", .str "Any"), ("x", .bool true)]]), ("name", .str "S"), ("type", .str "Struct"),
      ("x", .arr [])])]]), ("x", .null)])).1,
    (ofDocument_pruneSchema .null).2.2.2 .field _ _ rfl⟩

end ResourceSchema
