/-
# Shapes that give back what they write

Two conditions under which the two readings of a shape fit each other.  The
first is on the shape alone (`Shape.Lawful`): keys and tags tell its parts and
cases apart, a part is left out only where absence stands for its value, and
taking a value apart undoes putting it together.  The shapes of a schema are
lawful (`Schema.shape_lawful`).

The second is on the value (`Shape.NullFree`): no optional part of it has a
value that is written as `null`, which would be read as absence.  In a schema
only the default value of a field can be such a part
(`Schema.nullFree_iff`).
-/

import ResourceSchema.Proofs.Json.Members
import ResourceSchema.Schema.Document

namespace ResourceSchema

mutual
/-- No optional part of a value is written as `null`. -/
def Shape.NullFree : {α : Type} → Shape α → α → Prop
  | _, .list item, items => ∀ a ∈ items, item.NullFree a
  | _, .record _ parts _ split _, a => parts.NullFree (split a)
  | _, .tagged cases, a => cases.NullFree a
  | _, _, _ => True
/-- No optional part of the parts is written as `null`. -/
def Parts.NullFree : {α : Type} → Parts α → α → Prop
  | _, .done, _ => True
  | _, .required _ shape rest, (a, b) => shape.NullFree a ∧ rest.NullFree b
  | _, .optional _ shape rest, (a?, b) =>
    (∀ a, a? = some a → shape.print a ≠ .null ∧ shape.NullFree a) ∧ rest.NullFree b
  | _, .defaulted _ shape _ _ rest, (a, b) => shape.NullFree a ∧ rest.NullFree b
/-- No optional part of what stands under a value's tag is written as `null`. -/
def Cases.NullFree : {α : Type} → Cases α → α → Prop
  | _, .none, _ => True
  | _, .case _ shape _ unwrap? _ rest, a =>
    match unwrap? a with
    | some b => shape.NullFree b
    | none => rest.NullFree a
end

mutual
/-- What a shape has to satisfy for its values to be read as they were
written. -/
def Shape.Lawful : {α : Type} → Shape α → Prop
  | _, .list item => item.Lawful
  | _, .choice options name => ∀ a, options.find? (name · = name a) = some a
  | _, .record _ parts make split _ =>
    parts.keys.Nodup ∧ (∀ b, split (make b) = b) ∧ parts.Lawful
  | _, .tagged cases => cases.tags.Nodup ∧ (∀ a, (cases.member? a).isSome) ∧ cases.Lawful
  | _, _ => True
/-- Each part is lawful, and one that is omitted has its default value. -/
def Parts.Lawful : {α : Type} → Parts α → Prop
  | _, .done => True
  | _, .required _ shape rest => shape.Lawful ∧ rest.Lawful
  | _, .optional _ shape rest => shape.Lawful ∧ rest.Lawful
  | _, .defaulted _ shape value omitted rest =>
    shape.Lawful ∧ (∀ a, omitted a = true → a = value) ∧ shape.NullFree value ∧ rest.Lawful
/-- Each case is lawful, and no value belongs to two of them. -/
def Cases.Lawful : {α : Type} → Cases α → Prop
  | _, .none => True
  | _, .case _ shape wrap unwrap? _ rest =>
    shape.Lawful ∧ (∀ b, unwrap? (wrap b) = some b) ∧
      (∀ a, (unwrap? a).isSome → rest.member? a = none) ∧ rest.Lawful
end

/-! ### The shapes of a schema are lawful -/

/-- Annotations without entries are the empty ones. -/
theorem Annotations.eq_empty_of_isEmpty {a : Annotations} (h : a.isEmpty = true) : a = .empty := by
  rcases a with ⟨entries, _⟩
  obtain rfl := List.isEmpty_iff.1 h
  rfl

/-- A comment and annotations come back as they were written. -/
theorem remarks_lawful : remarks.Lawful :=
  ⟨trivial, trivial, fun _ h => Annotations.eq_empty_of_isEmpty h, trivial, trivial⟩

/-- So do bounds of a size. -/
theorem sizeRange_lawful {α : Type} {rest : Parts α} (h : rest.Lawful) : (sizeRange rest).Lawful :=
  ⟨trivial, trivial, h⟩

/-- So do a size and its bounds. -/
theorem allSizes_lawful {α : Type} {rest : Parts α} (h : rest.Lawful) : (allSizes rest).Lawful :=
  ⟨trivial, sizeRange_lawful h⟩

/-- So does a reference that may be to anything. -/
theorem openReference_lawful {α : Type} {rest : Parts α} (key : String) (h : rest.Lawful) :
    (openReference key rest).Lawful :=
  ⟨trivial, nofun, trivial, h⟩

/-- So does a list that may be empty, if its items do. -/
theorem listPart_lawful {α β : Type} {item : Shape α} {rest : Parts β} (key : String)
    (hi : item.Lawful) (h : rest.Lawful) : (listPart key item rest).Lawful :=
  ⟨hi, nofun, nofun, h⟩

/-- **A field comes back as it was written.** -/
theorem Field.shape_lawful : Field.shape.Lawful :=
  ⟨by decide, fun _ => rfl, trivial, trivial, trivial, nofun, trivial, trivial, trivial, trivial,
    remarks_lawful⟩

/-- **An element comes back as it was written.** -/
theorem Element.shape_lawful : Element.shape.Lawful :=
  ⟨by decide, fun _ => rfl, trivial, trivial, trivial⟩

/-- A case of definitions is lawful if its own parts are, no key is given twice, and no other
case takes its definitions. -/
theorem derivationCase_lawful {α : Type} {title : String} {parts : Parts α}
    {wrap : String × String × α → Derivation}
    {unwrap? : Derivation → Option (String × String × α)}
    {wrap_of_unwrap : ∀ d a, unwrap? d = some a → wrap a = d} {rest : Cases TypeDef}
    (hp : parts.Lawful) (hk : ("name" :: "type" :: parts.keys).Nodup)
    (hw : ∀ a, unwrap? (wrap a) = some a)
    (hd : ∀ d, (unwrap? d).isSome → rest.member? (.derived d) = none) (hr : rest.Lawful) :
    (derivationCase title parts wrap unwrap? wrap_of_unwrap rest).Lawful := by
  refine ⟨⟨hk, fun _ => rfl, trivial, trivial, hp⟩, hw, fun a ha => ?_, hr⟩
  cases a with
  | base b => cases ha
  | derived d => exact hd d ha

/-- **The shape of definitions is lawful.**  Each kind of derivation has a case
of its own, and so do the built-in types. -/
theorem TypeDef.shape_lawful : TypeDef.shape.Lawful := by
  have hunion : (unionCase .none).Lawful :=
    derivationCase_lawful (listPart_lawful _ trivial remarks_lawful) (by decide) (fun _ => rfl)
      (fun _ _ => rfl) trivial
  have henum : (enumCase <| unionCase .none).Lawful :=
    derivationCase_lawful (listPart_lawful _ Element.shape_lawful remarks_lawful) (by decide)
      (fun _ => rfl)
      (by rintro ⟨_, _, detail, _, _⟩ h; cases detail <;> first | rfl | cases h) hunion
  have hmap : (mapCase <| enumCase <| unionCase .none).Lawful :=
    derivationCase_lawful
      (openReference_lawful _ (openReference_lawful _ (allSizes_lawful remarks_lawful)))
      (by decide) (fun _ => rfl)
      (by rintro ⟨_, _, detail, _, _⟩ h; cases detail <;> first | rfl | cases h) henum
  have harray : (arrayCase <| mapCase <| enumCase <| unionCase .none).Lawful :=
    derivationCase_lawful (openReference_lawful _ (allSizes_lawful remarks_lawful)) (by decide)
      (fun _ => rfl)
      (by rintro ⟨_, _, detail, _, _⟩ h; cases detail <;> first | rfl | cases h) hmap
  have hstruct : (structCase <| arrayCase <| mapCase <| enumCase <| unionCase .none).Lawful :=
    derivationCase_lawful
      (listPart_lawful _ Field.shape_lawful ⟨trivial, nofun, trivial, remarks_lawful⟩)
      (by decide) (fun _ => rfl)
      (by rintro ⟨_, _, detail, _, _⟩ h; cases detail <;> first | rfl | cases h) harray
  have hbytes : (bytesCase <| structCase <| arrayCase <| mapCase <| enumCase <|
      unionCase .none).Lawful :=
    derivationCase_lawful (allSizes_lawful remarks_lawful) (by decide) (fun _ => rfl)
      (by rintro ⟨_, _, detail, _, _⟩ h; cases detail <;> first | rfl | cases h) hstruct
  have hnumber : (numberCase <| bytesCase <| structCase <| arrayCase <| mapCase <| enumCase <|
      unionCase .none).Lawful :=
    derivationCase_lawful ⟨trivial, trivial, remarks_lawful⟩ (by decide) (fun _ => rfl)
      (by rintro ⟨_, _, detail, _, _⟩ h; cases detail <;> first | rfl | cases h) hbytes
  have htext : (textCase <| numberCase <| bytesCase <| structCase <| arrayCase <| mapCase <|
      enumCase <| unionCase .none).Lawful :=
    derivationCase_lawful
      ⟨trivial, trivial, fun _ h => List.isEmpty_iff.1 h, nofun, sizeRange_lawful remarks_lawful⟩
      (by decide) (fun _ => rfl)
      (by rintro ⟨_, _, detail, _, _⟩ h; cases detail <;> first | rfl | cases h) hnumber
  have halias : (aliasCase <| textCase <| numberCase <| bytesCase <| structCase <| arrayCase <|
      mapCase <| enumCase <| unionCase .none).Lawful :=
    derivationCase_lawful remarks_lawful (by decide) (fun _ => rfl)
      (by rintro ⟨_, _, detail, _, _⟩ h; cases detail <;> first | rfl | cases h) htext
  refine ⟨by decide, ?_, BaseType.ofName?_name, fun _ => rfl, ?_, halias⟩
  · rintro (b | ⟨_, _, detail, _, _⟩)
    · rfl
    · cases detail <;> rfl
  · rintro (b | d) h
    · rfl
    · cases h

/-- **The shape of schemas is lawful.** -/
theorem Schema.shape_lawful : Schema.shape.Lawful :=
  ⟨by decide, fun _ => rfl, trivial, trivial, trivial, trivial,
    listPart_lawful _ TypeDef.shape_lawful trivial⟩

/-! ### Which schemas are free of nulls -/

/-- Neither a comment nor annotations can be confused with a part that is left open. -/
theorem remarks_nullFree (a : Option String × Annotations × Unit) : remarks.NullFree a :=
  ⟨fun _ _ => ⟨nofun, trivial⟩, trivial, trivial⟩

/-- Neither can bounds of a size. -/
theorem sizeRange_nullFree_iff {α : Type} {rest : Parts α} (min? max? : Option UInt32) (a : α) :
    (sizeRange rest).NullFree (min?, max?, a) ↔ rest.NullFree a :=
  ⟨fun h => h.2.2, fun h => ⟨fun _ _ => ⟨nofun, trivial⟩, fun _ _ => ⟨nofun, trivial⟩, h⟩⟩

/-- Neither can a size with its bounds. -/
theorem allSizes_nullFree (size? min? max? : Option UInt32)
    (a : Option String × Annotations × Unit) :
    (allSizes remarks).NullFree (size?, min?, max?, a) :=
  ⟨fun _ _ => ⟨nofun, trivial⟩, (sizeRange_nullFree_iff min? max? a).2 (remarks_nullFree a)⟩

/-- **Of a field only a default of null is lost.** -/
theorem Field.nullFree_iff (f : Field) : Field.shape.NullFree f ↔ f.default? ≠ some .null := by
  constructor
  · -- Among the eight parts the default value is the sixth.
    rintro ⟨_, _, _, _, _, hdefault, _⟩ hn
    exact (hdefault .null hn).1 rfl
  · intro h
    refine ⟨trivial, trivial, trivial, fun _ _ => ⟨nofun, trivial⟩, fun _ _ => ⟨nofun, trivial⟩,
      fun v hv => ⟨?_, trivial⟩, remarks_nullFree _⟩
    rintro rfl
    exact h hv

/-- The fields of a definition; only a struct has any. -/
def TypeDef.fields : TypeDef → List Field
  | .derived ⟨_, _, .struct fields _, _, _⟩ => fields
  | _ => []

/-- **Of a definition only the null defaults of its fields are lost.** -/
theorem TypeDef.nullFree_iff (t : TypeDef) :
    TypeDef.shape.NullFree t ↔ ∀ f ∈ t.fields, f.default? ≠ some .null := by
  rcases t with b | ⟨name, supertype, detail, comment?, annotations⟩
  · exact ⟨fun _ => nofun, fun _ => trivial⟩
  · cases detail with
    | struct fields closed =>
      constructor
      · rintro ⟨_, _, hfields, _⟩ f hf
        exact f.nullFree_iff.1 (hfields f hf)
      · exact fun h => ⟨trivial, trivial, fun f hf => f.nullFree_iff.2 (h f hf), trivial,
          remarks_nullFree _⟩
    | synonym => exact ⟨fun _ => nofun, fun _ => ⟨trivial, trivial, remarks_nullFree _⟩⟩
    | text pattern? values min? max? =>
      exact ⟨fun _ => nofun, fun _ => ⟨trivial, trivial, fun _ _ => ⟨nofun, trivial⟩,
        fun _ _ => trivial, (sizeRange_nullFree_iff min? max? _).2 (remarks_nullFree _)⟩⟩
    | number min? max? =>
      exact ⟨fun _ => nofun, fun _ => ⟨trivial, trivial, fun _ _ => ⟨nofun, trivial⟩,
        fun _ _ => ⟨nofun, trivial⟩, remarks_nullFree _⟩⟩
    | bytes sizes =>
      exact ⟨fun _ => nofun, fun _ => ⟨trivial, trivial, allSizes_nullFree _ _ _ _⟩⟩
    | array items sizes =>
      exact ⟨fun _ => nofun, fun _ => ⟨trivial, trivial, trivial, allSizes_nullFree _ _ _ _⟩⟩
    | map keys items sizes =>
      exact ⟨fun _ => nofun, fun _ => ⟨trivial, trivial, trivial, trivial,
        allSizes_nullFree _ _ _ _⟩⟩
    | enum elements =>
      exact ⟨fun _ => nofun, fun _ => ⟨trivial, trivial,
        fun _ _ => ⟨trivial, fun _ _ => ⟨nofun, trivial⟩, trivial⟩, remarks_nullFree _⟩⟩
    | union variants =>
      exact ⟨fun _ => nofun, fun _ => ⟨trivial, trivial, fun _ _ => trivial, remarks_nullFree _⟩⟩

/-- No field of a schema has `null` for its default value. -/
def Schema.NoNullDefault (schema : Schema) : Prop :=
  ∀ t ∈ schema.types, ∀ f ∈ t.fields, f.default? ≠ some .null

/-- **Only default values can be nulls.** -/
theorem Schema.nullFree_iff (schema : Schema) :
    Schema.shape.NullFree schema ↔ schema.NoNullDefault := by
  constructor
  · rintro ⟨_, _, _, _, htypes, _⟩ t ht
    exact t.nullFree_iff.1 (htypes t ht)
  · exact fun h => ⟨fun _ _ => ⟨nofun, trivial⟩, fun _ _ => ⟨nofun, trivial⟩,
      fun _ _ => ⟨nofun, trivial⟩, fun _ _ => ⟨nofun, trivial⟩,
      fun t ht => t.nullFree_iff.2 (h t ht), trivial⟩

end ResourceSchema
