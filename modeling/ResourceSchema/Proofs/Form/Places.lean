/-
# Places in a schema document

A document has its parts at places of four kinds: the schema itself, the body of
a definition under its tag, and the fields and elements in the bodies of structs
and enumerations.  Each place has its keys, and under some of them nothing has to
be given (`Place.defaults`):

| given under the key | says the same as nothing |
| --- | --- |
| namespace, name and version of a schema | `null` |
| comment, pattern, sizes, bounds | `null` |
| items, keys and default of a field | `null` |
| types, values, fields, elements, variants | `[]` |
| annotations | an empty object |
| optional, closed | `false` |
| items of an array, keys and items of a map | `"Any"` |

An `Opening` is a document with one of its places left open.  What the document is
read as depends on what is put there only through what this is read as
(`Opening.load_eq`), and if that fails, so does the document.
-/

import ResourceSchema.Proofs.Form.Acceptance

namespace ResourceSchema

open Format

/-- The places of a document.  Of a body only the kind counts, not what the
definition adds. -/
inductive Place where
  | schema
  | body (kind : Detail)
  | field
  | element

namespace Place

/-- The keys of a place in declaration order. -/
def keys : Place → List String
  | schema => ["namespace", "name", "version", "comment", "types"]
  | body kind => Format.keys kind
  | field => fieldKeys
  | element => ["symbol", "comment"]

/-- What says the same as nothing under the keys that most records end with. -/
def remarkDefaults : List (String × Json) := [("comment", .null), ("annotations", .obj [])]

/-- What says the same as nothing under the three sizes. -/
def sizeDefaults : List (String × Json) := [("size", .null), ("minSize", .null), ("maxSize", .null)]

/-- What says the same as nothing under the keys of one kind. -/
def ownDefaults : Detail → List (String × Json)
  | .synonym => []
  | .text .. => [("pattern", .null), ("values", .arr []), ("minSize", .null), ("maxSize", .null)]
  | .number .. => [("min", .null), ("max", .null)]
  | .bytes _ => sizeDefaults
  | .struct .. => [("fields", .arr []), ("closed", .bool false)]
  | .array .. => ("items", .str "Any") :: sizeDefaults
  | .map .. => ("keys", .str "Any") :: ("items", .str "Any") :: sizeDefaults
  | .enum _ => [("elements", .arr [])]
  | .union _ => [("variants", .arr [])]

/-- What says the same as nothing under the keys of a place.  Under the keys that
are left out something has to be given. -/
def defaults : Place → List (String × Json)
  | schema =>
    [("namespace", .null), ("name", .null), ("version", .null), ("comment", .null),
      ("types", .arr [])]
  | body kind => ownDefaults kind ++ remarkDefaults
  | field =>
    [("optional", .bool false), ("items", .null), ("keys", .null), ("default", .null)] ++
      remarkDefaults
  | element => [("comment", .null)]

/-- What stands at a place. -/
def Model : Place → Type
  | schema => Schema
  | body _ => TypeDef
  | field => Field
  | element => Element

/-- Reads what stands at a place; a body is read under its tag. -/
def load : (place : Place) → Json → Except Mismatch place.Model
  | schema, v => Schema.shape.load v
  | body kind, v => TypeDef.shape.load (.obj [(tag kind, v)])
  | field, v => Field.shape.load v
  | element, v => Element.shape.load v

/-- No two parts of a place share a key. -/
theorem keys_nodup (place : Place) : place.keys.Nodup := by
  cases place with
  | body kind => cases kind <;> simp [keys, Format.keys]
  | _ => decide

end Place

/-- A body that is left open under one of its keys. -/
inductive Slot (keys : List String) (key : String) : (Json → Json) → Prop
  | object {before after : List (String × Json)} (h : key ∉ before.map Prod.fst) :
      Slot keys key fun x => .obj (before ++ (key, x) :: after)
  | list {before after : List Json} (h : keys[before.length]? = some key) :
      Slot keys key fun x => .arr (before ++ x :: after)

/-- What stands at a place of the second kind, with a place of the first kind in it
left open. -/
inductive Opening (inner : Place) : Place → (Json → Json) → Prop
  | here : Opening inner inner fun x => x
  | definition {kind : Detail} {body : Json → Json} {before after : List (String × Json)}
      {front back : List Json} (hkey : "types" ∉ before.map Prod.fst)
      (h : Opening inner (.body kind) body) : Opening inner .schema fun x =>
        .obj (before ++ ("types", .arr (front ++ .obj [(tag kind, body x)] :: back)) :: after)
  | field {fields : List Field} {closed : Bool} {slot field : Json → Json}
      {front back : List Json} (hs : Slot (keys (.struct fields closed)) "fields" slot)
      (h : Opening inner .field field) : Opening inner (.body (.struct fields closed)) fun x =>
        slot (.arr (front ++ field x :: back))
  | element {elements : List Element} {slot element : Json → Json} {front back : List Json}
      (hs : Slot (keys (.enum elements)) "elements" slot)
      (h : Opening inner .element element) : Opening inner (.body (.enum elements)) fun x =>
        slot (.arr (front ++ element x :: back))

/-! ### The parts at a place -/

/-- The parts of a record as they are. -/
def Parts.bare {α : Type} (parts : Parts α) (title : String) : Shape α :=
  .record title parts id id fun _ => rfl

/-- A record is loaded by loading its parts. -/
theorem Shape.load_record {α β : Type} {title : String} {parts : Parts β} {make : β → α}
    {split : α → β} {make_split : ∀ a, make (split a) = a} (v : Json) :
    (Shape.record title parts make split make_split).load v =
      ((parts.bare title).load v).map make := by
  cases v with
  | obj members =>
    rw [Parts.bare, load, load]
    cases (parts.ofObject members).toExcept <;> rfl
  | arr items =>
    rw [Parts.bare, load, load]
    cases parts.ofList title parts.count items.length items <;> rfl
  | _ => rfl

/-- The parts give what a table says to nothing, and refuse `null` unless it is
this. -/
def Parts.Agree : {α : Type} → Parts α → (String → Option Json) → Prop
  | _, .done, _ => True
  | _, .required key shape rest, default? =>
    (default? key = none ∧ ∀ a, shape.load .null ≠ .ok a) ∧ rest.Agree default?
  | _, .optional key _ rest, default? => default? key = some .null ∧ rest.Agree default?
  | _, .defaulted key shape value _ rest, default? =>
    ((∃ v, default? key = some v ∧ shape.load v = .ok value) ∧ ∀ a, shape.load .null ≠ .ok a) ∧
      rest.Agree default?

namespace Parts

variable {α : Type} {rest : Parts α} {default? : String → Option Json}

/-- A name and a supertype have to be given. -/
theorem agree_named (hname : default? "name" = none) (htype : default? "type" = none)
    (hr : rest.Agree default?) : rest.named.Agree default? :=
  ⟨⟨hname, nofun⟩, ⟨htype, nofun⟩, hr⟩

/-- A size and its bounds are open by default. -/
theorem agree_sizes (hsize : default? "size" = some .null) (hmin : default? "minSize" = some .null)
    (hmax : default? "maxSize" = some .null) (hr : rest.Agree default?) :
    (allSizes rest).Agree default? :=
  ⟨hsize, hmin, hmax, hr⟩

/-- A list that may be empty is empty by default. -/
theorem agree_listPart {β : Type} {key : String} {item : Shape β}
    (hkey : default? key = some (.arr [])) (hr : rest.Agree default?) :
    (listPart key item rest).Agree default? :=
  ⟨⟨⟨_, hkey, rfl⟩, nofun⟩, hr⟩

/-- A reference that may be to anything is to anything by default. -/
theorem agree_openReference {key : String} (hkey : default? key = some (.str "Any"))
    (hr : rest.Agree default?) : (openReference key rest).Agree default? :=
  ⟨⟨⟨_, hkey, rfl⟩, nofun⟩, hr⟩

/-- A flag is down by default. -/
theorem agree_flag {key : String} (hkey : default? key = some (.bool false))
    (hr : rest.Agree default?) :
    (defaulted key .flag false alwaysWritten rest).Agree default? :=
  ⟨⟨⟨_, hkey, rfl⟩, nofun⟩, hr⟩

/-- By default there is no comment and there are no annotations. -/
theorem agree_remarks (hcomment : default? "comment" = some .null)
    (hannotations : default? "annotations" = some (.obj [])) : remarks.Agree default? :=
  ⟨hcomment, ⟨⟨_, hannotations, rfl⟩, nofun⟩, trivial⟩

end Parts

/-- **Each place has a record** with its keys and its table. -/
theorem Place.exists_parts (place : Place) : ∃ (β : Type) (parts : Parts β) (title : String)
    (make : β → place.Model), (∀ v, place.load v = ((parts.bare title).load v).map make) ∧
      parts.keys = place.keys ∧ parts.Agree fun key => Json.lookup key place.defaults := by
  cases place with
  | schema =>
    exact ⟨_, _, _, _, Shape.load_record, rfl, rfl, rfl, rfl, rfl, Parts.agree_listPart rfl trivial⟩
  | field =>
    exact ⟨_, _, _, _, Shape.load_record, rfl, Parts.agree_named rfl rfl <|
      Parts.agree_flag rfl ⟨rfl, rfl, rfl, Parts.agree_remarks rfl rfl⟩⟩
  | element => exact ⟨_, _, _, _, Shape.load_record, rfl, ⟨rfl, nofun⟩, rfl, trivial⟩
  | body kind =>
    -- The case of a tag is found by comparing it with the tags before it.
    cases kind with
    | synonym =>
      exact ⟨_, _, _, _, fun _ => rfl, rfl, Parts.agree_named rfl rfl <|
        Parts.agree_remarks rfl rfl⟩
    | text =>
      exact ⟨_, _, _, _, fun _ => rfl, rfl, Parts.agree_named rfl rfl
        ⟨rfl, ⟨⟨_, rfl, rfl⟩, nofun⟩, rfl, rfl, Parts.agree_remarks rfl rfl⟩⟩
    | number =>
      exact ⟨_, _, _, _, fun _ => rfl, rfl, Parts.agree_named rfl rfl
        ⟨rfl, rfl, Parts.agree_remarks rfl rfl⟩⟩
    | bytes =>
      exact ⟨_, _, _, _, fun _ => rfl, rfl, Parts.agree_named rfl rfl <|
        Parts.agree_sizes rfl rfl rfl <| Parts.agree_remarks rfl rfl⟩
    | struct =>
      exact ⟨_, _, _, _, fun _ => rfl, rfl, Parts.agree_named rfl rfl <|
        Parts.agree_listPart rfl <| Parts.agree_flag rfl <| Parts.agree_remarks rfl rfl⟩
    | array =>
      exact ⟨_, _, _, _, fun _ => rfl, rfl, Parts.agree_named rfl rfl <|
        Parts.agree_openReference rfl <| Parts.agree_sizes rfl rfl rfl <|
        Parts.agree_remarks rfl rfl⟩
    | map =>
      exact ⟨_, _, _, _, fun _ => rfl, rfl, Parts.agree_named rfl rfl <|
        Parts.agree_openReference rfl <| Parts.agree_openReference rfl <|
        Parts.agree_sizes rfl rfl rfl <| Parts.agree_remarks rfl rfl⟩
    | enum =>
      exact ⟨_, _, _, _, fun _ => rfl, rfl, Parts.agree_named rfl rfl <|
        Parts.agree_listPart rfl <| Parts.agree_remarks rfl rfl⟩
    | union =>
      exact ⟨_, _, _, _, fun _ => rfl, rfl, Parts.agree_named rfl rfl <|
        Parts.agree_listPart rfl <| Parts.agree_remarks rfl rfl⟩

/-! ### What stands at a place counts only as what it is read as -/

/-- A failure stays a failure. -/
def Strict {α β : Type} (K : Except Mismatch α → Except Mismatch β) : Prop :=
  ∀ e, ∃ e', K (.error e) = .error e'

/-- What keeps failures keeps them when its results are changed. -/
theorem Strict.map {α β γ : Type} {K : Except Mismatch α → Except Mismatch β} (hK : Strict K)
    (f : β → γ) : Strict fun r => (K r).map f := by
  intro e
  obtain ⟨e', he⟩ := hK e
  exact ⟨e', congrArg (Except.map f) he⟩

/-- A list depends on each of its items. -/
theorem Shape.load_list_eq {α : Type} (item : Shape α) (front back : List Json) :
    ∃ K, Strict K ∧ ∀ v, (Shape.list item).load (.arr (front ++ v :: back)) = K (item.load v) := by
  refine ⟨fun r => do return (← front.mapM item.load) ++ (← r) :: (← back.mapM item.load),
    fun e => ?_, fun v => ?_⟩
  · cases front.mapM item.load with
    | error e' => exact ⟨e', rfl⟩
    | ok _ => exact ⟨e, rfl⟩
  · rw [load, List.mapM_append, List.mapM_cons]
    simp only [bind_assoc, pure_bind]

namespace Parts

/-- Only what the members hold under the keys of the parts counts. -/
theorem ofObject_congr : {α : Type} → (parts : Parts α) → {members others : List (String × Json)} →
    (∀ key ∈ parts.keys, Json.lookup key members = Json.lookup key others) →
    parts.ofObject members = parts.ofObject others
  | _, .done, _, _, _ => rfl
  | _, .required key _ rest, _, _, h => by
    rw [ofObject_required, ofObject_required, h key List.mem_cons_self,
      rest.ofObject_congr fun k hk => h k (List.mem_cons_of_mem _ hk)]
  | _, .optional key _ rest, _, _, h => by
    rw [ofObject_optional, ofObject_optional, h key List.mem_cons_self,
      rest.ofObject_congr fun k hk => h k (List.mem_cons_of_mem _ hk)]
  | _, .defaulted key _ _ _ rest, _, _, h => by
    rw [ofObject_defaulted, ofObject_defaulted, h key List.mem_cons_self,
      rest.ofObject_congr fun k hk => h k (List.mem_cons_of_mem _ hk)]

/-- One of the parts has this key and this shape, and may be absent. -/
inductive Has {γ : Type} (key : String) (shape : Shape γ) : {α : Type} → Parts α → Prop
  | here {β : Type} {value : γ} {omitted : γ → Bool} {rest : Parts β} :
      Has key shape (.defaulted key shape value omitted rest)
  | required {α β : Type} {other : String} {first : Shape α} {rest : Parts β}
      (h : Has key shape rest) : Has key shape (.required other first rest)
  | optional {α β : Type} {other : String} {first : Shape α} {rest : Parts β}
      (h : Has key shape rest) : Has key shape (.optional other first rest)
  | defaulted {α β : Type} {other : String} {first : Shape α} {value : α} {omitted : α → Bool}
      {rest : Parts β} (h : Has key shape rest) :
      Has key shape (.defaulted other first value omitted rest)

variable {γ : Type} {key : String} {shape : Shape γ}

/-- The key of a part is among the keys. -/
theorem Has.mem_keys {α : Type} {parts : Parts α} (h : parts.Has key shape) : key ∈ parts.keys := by
  induction h with
  | here => exact List.mem_cons_self
  | required _ ih | optional _ ih | defaulted _ ih => exact List.mem_cons_of_mem _ ih

/-- The key of a part differs from those of other parts. -/
theorem Has.ne {α : Type} {parts : Parts α} (h : parts.Has key shape) {other : String}
    (hother : other ∉ parts.keys) : key ≠ other :=
  fun he => hother (he ▸ h.mem_keys)

/-- What depends on the reading of a tree, still does so behind another part. -/
theorem exists_and_eq {α β : Type} (first : Outcome α) {tail : Json → Outcome β}
    (h : ∃ K : Except Mismatch γ → Outcome β, (∀ e b, K (.error e) ≠ .complete b) ∧
      ∀ v, tail v = K (shape.load v)) :
    ∃ K : Except Mismatch γ → Outcome (α × β), (∀ e a, K (.error e) ≠ .complete a) ∧
      ∀ v, first.and (tail v) = K (shape.load v) := by
  obtain ⟨K, hK, htail⟩ := h
  refine ⟨fun r => first.and (K r), ?_, fun v => by rw [htail]⟩
  rintro e ⟨a, b⟩ hab
  exact hK e b (Outcome.and_eq_complete_iff.1 hab).2

/-- In an object a record depends on what stands under each key. -/
theorem Has.ofObject_eq {α : Type} {parts : Parts α} (h : parts.Has key shape)
    (hkeys : parts.keys.Nodup) {before after : List (String × Json)}
    (hb : key ∉ before.map Prod.fst) : ∃ K : Except Mismatch γ → Outcome α,
      (∀ e a, K (.error e) ≠ .complete a) ∧
        ∀ v, parts.ofObject (before ++ (key, v) :: after) = K (shape.load v) := by
  have hother : ∀ {k}, key ≠ k → ∀ v, Json.lookup k (before ++ (key, v) :: after) =
      Json.lookup k (before ++ after) := fun hk v => Json.lookup_append_cons_of_ne hk before v after
  induction h with
  | @here _ value omitted rest =>
    obtain ⟨hkey, -⟩ := List.nodup_cons.1 hkeys
    refine ⟨fun r => (Outcome.ofLoad key r).and (rest.ofObject (before ++ after)), ?_, fun v => ?_⟩
    · rintro e ⟨a, b⟩ h
      cases (Outcome.and_eq_complete_iff.1 h).1
    · rw [ofObject_defaulted_some (Json.lookup_append_cons hb v after),
        rest.ofObject_congr fun k hk => hother (fun he => hkey (he ▸ hk)) v]
  | required h ih =>
    obtain ⟨hfirst, hrest⟩ := List.nodup_cons.1 hkeys
    simp only [ofObject_required, hother (h.ne hfirst)]
    exact exists_and_eq _ (ih hrest)
  | optional h ih =>
    obtain ⟨hfirst, hrest⟩ := List.nodup_cons.1 hkeys
    simp only [ofObject_optional, hother (h.ne hfirst)]
    exact exists_and_eq _ (ih hrest)
  | defaulted h ih =>
    obtain ⟨hfirst, hrest⟩ := List.nodup_cons.1 hkeys
    simp only [ofObject_defaulted, hother (h.ne hfirst)]
    exact exists_and_eq _ (ih hrest)

/-- What depends on the reading of a tree, still does so after another step. -/
theorem exists_step_eq {α β δ : Type} (first : Except Mismatch α) (f : α → β → δ)
    {tail : Json → Except Mismatch β} {whole : Json → Except Mismatch δ}
    (h : ∃ K, Strict K ∧ ∀ v, tail v = K (shape.load v))
    (herror : ∀ e, first = .error e → ∀ v, whole v = .error e)
    (hok : ∀ a, first = .ok a → ∀ v, whole v = (tail v).map (f a)) :
    ∃ K, Strict K ∧ ∀ v, whole v = K (shape.load v) := by
  obtain ⟨K, hK, htail⟩ := h
  cases hfirst : first with
  | error e => exact ⟨fun _ => .error e, fun _ => ⟨e, rfl⟩, herror e hfirst⟩
  | ok a => exact ⟨_, hK.map (f a), fun v => by rw [hok a hfirst, htail]⟩

/-- In a list a record depends on what stands at each position. -/
theorem Has.ofList_eq (title : String) (declared given : Nat) {α : Type} {parts : Parts α}
    (h : parts.Has key shape) (hkeys : parts.keys.Nodup) {before : List Json}
    (hb : parts.keys[before.length]? = some key) (after : List Json) :
    ∃ K : Except Mismatch γ → Except Mismatch α, Strict K ∧ ∀ v,
      parts.ofList title declared given (before ++ v :: after) = K (shape.load v) := by
  -- Along the way to the part, each part before it takes one of the items before the hole.
  induction h generalizing before with
  | @here _ value omitted rest =>
    obtain ⟨hkey, -⟩ := List.nodup_cons.1 hkeys
    cases before with
    | nil =>
      refine ⟨fun r => r.bind fun a => (rest.ofList title declared given after).map (a, ·),
        fun e => ⟨e, rfl⟩, fun v => ?_⟩
      rw [List.nil_append, ofList_defaulted_cons]
      cases shape.load v <;> rfl
    | cons b before =>
      rw [keys, List.length_cons, List.getElem?_cons_succ] at hb
      exact absurd (List.mem_of_getElem? hb) hkey
  | @required _ _ _ first _ h ih =>
    obtain ⟨hfirst, hrest⟩ := List.nodup_cons.1 hkeys
    cases before with
    | nil => exact absurd (Option.some.inj hb).symm (h.ne hfirst)
    | cons b before =>
      refine exists_step_eq (first.load b) Prod.mk (ih hrest hb) (fun e he v => ?_) fun a ha v => ?_
      · rw [List.cons_append, ofList_required_cons, he]
      · rw [List.cons_append, ofList_required_cons, ha]
  | @optional _ _ _ first _ h ih =>
    obtain ⟨hfirst, hrest⟩ := List.nodup_cons.1 hkeys
    cases before with
    | nil => exact absurd (Option.some.inj hb).symm (h.ne hfirst)
    | cons b before =>
      by_cases hnull : b = .null
      · subst hnull
        obtain ⟨K, hK, hload⟩ := ih hrest hb
        exact ⟨_, hK.map (none, ·), fun v => congrArg (Except.map (none, ·)) (hload v)⟩
      · refine exists_step_eq (first.load b) (fun a c => (some a, c)) (ih hrest hb)
          (fun e he v => ?_) fun a ha v => ?_
        · rw [List.cons_append, ofList_optional_cons hnull, he]
        · rw [List.cons_append, ofList_optional_cons hnull, ha]
  | @defaulted _ _ _ first _ _ _ h ih =>
    obtain ⟨hfirst, hrest⟩ := List.nodup_cons.1 hkeys
    cases before with
    | nil => exact absurd (Option.some.inj hb).symm (h.ne hfirst)
    | cons b before =>
      refine exists_step_eq (first.load b) Prod.mk (ih hrest hb) (fun e he v => ?_) fun a ha v => ?_
      · rw [List.cons_append, ofList_defaulted_cons, he]
      · rw [List.cons_append, ofList_defaulted_cons, ha]

end Parts

/-- What a record is read as depends on what stands where it is left open. -/
theorem Slot.load_eq {β γ : Type} {parts : Parts β} {key : String} {shape : Shape γ}
    {fill : Json → Json} (hs : Slot parts.keys key fill) (h : parts.Has key shape)
    (hkeys : parts.keys.Nodup) (title : String) :
    ∃ K, Strict K ∧ ∀ v, (parts.bare title).load (fill v) = K (shape.load v) := by
  cases hs with
  | object hb =>
    obtain ⟨K, hK, hload⟩ := h.ofObject_eq hkeys hb
    have hstrict : Strict fun r => (K r).toExcept := by
      intro e
      cases ho : K (.error e) with
      | complete a => exact absurd ho (hK e a)
      | missing k => exact ⟨_, congrArg Outcome.toExcept ho⟩
      | faulty k cause => exact ⟨_, congrArg Outcome.toExcept ho⟩
    refine ⟨_, hstrict.map id, fun v => ?_⟩
    rw [Parts.bare, Shape.load, hload]
  | @list before after hb =>
    obtain ⟨K, hK, hload⟩ :=
      h.ofList_eq title parts.count (before.length + (after.length + 1)) hkeys hb after
    refine ⟨_, hK.map id, fun v => ?_⟩
    rw [Parts.bare, Shape.load, List.length_append, List.length_cons, hload]

/-- What keeps failures inside something that keeps them keeps them. -/
theorem Strict.comp {α β γ : Type} {K : Except Mismatch β → Except Mismatch γ}
    {L : Except Mismatch α → Except Mismatch β} (hK : Strict K) (hL : Strict L) :
    Strict fun r => K (L r) := by
  intro e
  obtain ⟨e', he⟩ := hL e
  simp only [he]
  exact hK e'

/-- Only what is given under the keys of a place counts. -/
theorem Place.load_congr (place : Place) {members others : List (String × Json)}
    (h : ∀ key ∈ place.keys, Json.lookup key members = Json.lookup key others) :
    place.load (.obj members) = place.load (.obj others) := by
  obtain ⟨β, parts, title, make, hload, hkeys, -⟩ := place.exists_parts
  rw [hload, hload, Parts.bare, Shape.load, Shape.load, parts.ofObject_congr (hkeys ▸ h)]

/-- The record of a place has a list under this key. -/
def Place.Lists {γ : Type} (place : Place) (key : String) (item : Shape γ) : Prop :=
  ∃ (β : Type) (parts : Parts β) (title : String) (make : β → place.Model),
    (∀ v, place.load v = ((parts.bare title).load v).map make) ∧ parts.keys = place.keys ∧
      parts.Has key (.list item)

namespace Place

/-- A schema lists its types. -/
theorem lists_types : schema.Lists "types" TypeDef.shape :=
  ⟨_, _, _, _, Shape.load_record, rfl, .optional <| .optional <| .optional <| .optional .here⟩

/-- A structure lists its fields. -/
theorem lists_fields {fields : List Field} {closed : Bool} :
    (body (.struct fields closed)).Lists "fields" Field.shape :=
  ⟨_, _, _, _, fun _ => rfl, rfl, .required <| .required .here⟩

/-- An enumeration lists its elements. -/
theorem lists_elements {elements : List Element} :
    (body (.enum elements)).Lists "elements" Element.shape :=
  ⟨_, _, _, _, fun _ => rfl, rfl, .required <| .required .here⟩

variable {place : Place} {γ : Type} {key : String} {item : Shape γ} {slot : Json → Json}

/-- The key of a list is among the keys of its place. -/
theorem Lists.mem_keys (h : place.Lists key item) : key ∈ place.keys := by
  obtain ⟨β, parts, title, make, -, hkeys, hhas⟩ := h
  exact hkeys ▸ hhas.mem_keys

/-- A place depends on each of its lists. -/
theorem Lists.load_eq (h : place.Lists key item) (hs : Slot place.keys key slot) :
    ∃ K, Strict K ∧ ∀ v, place.load (slot v) = K ((Shape.list item).load v) := by
  obtain ⟨β, parts, title, make, hload, hkeys, hhas⟩ := h
  rw [← hkeys] at hs
  obtain ⟨K, hK, hslot⟩ := hs.load_eq hhas (hkeys ▸ place.keys_nodup) title
  exact ⟨_, hK.map make, fun v => by rw [hload, hslot]⟩

/-- A place depends on each item of its lists. -/
theorem Lists.exists_load_eq {α : Type} (h : place.Lists key item) (hs : Slot place.keys key slot)
    (front back : List Json) {inner : Json → Except Mismatch α} {fill : Json → Json}
    (hinner : ∃ K, Strict K ∧ ∀ x, item.load (fill x) = K (inner x)) :
    ∃ K, Strict K ∧ ∀ x, place.load (slot (.arr (front ++ fill x :: back))) = K (inner x) := by
  obtain ⟨K, hK, hinner⟩ := hinner
  obtain ⟨L, hL, hlist⟩ := item.load_list_eq front back
  obtain ⟨M, hM, hslot⟩ := h.load_eq hs
  exact ⟨_, hM.comp (hL.comp hK), fun x => by rw [hslot, hlist, hinner]⟩

end Place

namespace Opening

variable {inner outer : Place} {fill : Json → Json}

/-- **What stands at a place counts only as what it is read as,** and if it cannot be
read, nothing around it can. -/
theorem load_eq (h : Opening inner outer fill) :
    ∃ K, Strict K ∧ ∀ x, outer.load (fill x) = K (inner.load x) := by
  induction h with
  | here => exact ⟨id, fun e => ⟨e, rfl⟩, fun _ => rfl⟩
  | definition hkey _ ih => exact Place.lists_types.exists_load_eq (.object hkey) _ _ ih
  | field hs _ ih => exact Place.lists_fields.exists_load_eq hs _ _ ih
  | element hs _ ih => exact Place.lists_elements.exists_load_eq hs _ _ ih

/-- The way from the schema down leads through an object, unless it ends there. -/
theorem exists_members (h : Opening inner .schema fill) (x : Json)
    (hx : inner = .schema → ∃ members, x = .obj members) : ∃ members, fill x = .obj members := by
  cases h with
  | here => exact hx rfl
  | definition => exact ⟨_, rfl⟩

/-- The same for whole documents. -/
theorem ofDocument_eq (h : Opening inner .schema fill) :
    ∃ K : Except Mismatch inner.Model → Except Mismatch Schema, Strict K ∧
      ∀ x, (inner = .schema → ∃ members, x = .obj members) →
        Schema.ofDocument (fill x) = (K (inner.load x)).mapError .mismatch := by
  obtain ⟨K, hK, hload⟩ := h.load_eq
  refine ⟨K, hK, fun x hx => ?_⟩
  obtain ⟨members, hfill⟩ := h.exists_members x hx
  rw [← hload, hfill]
  rfl

end Opening

end ResourceSchema
