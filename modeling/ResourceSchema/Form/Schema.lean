/-
# The JSON form of a schema

Every record of a schema with its keys, in declaration order.  The key `type`
of a definition names its supertype, and the key `type` of a field its type.
Nine kinds of derivation are told apart by their tags, and built-in types by a
tenth; missing element and key types stand for `Any`.
-/

import ResourceSchema.Form.Shape

namespace ResourceSchema

/-- The annotations at the end of a record: none if absent, and then not
written. -/
def annotationsPart : Parts (Annotations × Unit) :=
  .defaulted "annotations" .annotations .empty Annotations.isEmpty .done

/-- Comment and annotations, which end most records. -/
def remarks : Parts (Option String × Annotations × Unit) :=
  .optional "comment" .text annotationsPart

/-- Least and greatest size, and what follows them. -/
def sizeRange {α : Type} (rest : Parts α) : Parts (Option UInt32 × Option UInt32 × α) :=
  .optional "minSize" .size (.optional "maxSize" .size rest)

/-- The three sizes, and what follows them. -/
def allSizes {α : Type} (rest : Parts α) :
    Parts (Option UInt32 × Option UInt32 × Option UInt32 × α) :=
  .optional "size" .size (sizeRange rest)

/-- A reference to the type of elements, values or keys. -/
def openReference {α : Type} (key : String) (rest : Parts α) : Parts (String × α) :=
  .defaulted key .text BaseType.any.name alwaysWritten rest

/-- A list that is written even when it is empty. -/
def listPart {α β : Type} (key : String) (item : Shape α) (rest : Parts β) :
    Parts (List α × β) :=
  .defaulted key (.list item) [] alwaysWritten rest

/-- A field. -/
def Field.shape : Shape Field :=
  .record "StructFieldDef"
    (.required "name" .text <| .required "type" .text <|
      .defaulted "optional" .flag false alwaysWritten <|
      .optional "items" .text <| .optional "keys" .text <| .optional "default" .tree remarks)
    (fun (name, type, optional, items?, keys?, default?, comment?, annotations, ()) =>
      ⟨name, type, optional, items?, keys?, default?, comment?, annotations⟩)
    (fun f => (f.name, f.type, f.optional, f.items?, f.keys?, f.default?, f.comment?,
      f.annotations, ()))
    (fun _ => rfl)

/-- An element of an enumeration. -/
def Element.shape : Shape Element :=
  .record "EnumElementDef" (.required "symbol" .text <| .optional "comment" .text .done)
    (fun (symbol, comment?, ()) => ⟨symbol, comment?⟩)
    (fun e => (e.symbol, e.comment?, ()))
    (fun _ => rfl)

/-- A case of definitions: the derivations of one kind, whose bodies have a
name, a supertype and these parts. -/
def derivationCase {α : Type} (title : String) (parts : Parts α)
    (wrap : String × String × α → Derivation) (unwrap? : Derivation → Option (String × String × α))
    (wrap_of_unwrap : ∀ d a, unwrap? d = some a → wrap a = d) (rest : Cases TypeDef) :
    Cases TypeDef :=
  .case title
    (.record title (.required "name" .text (.required "type" .text parts)) id id fun _ => rfl)
    (fun a => .derived (wrap a))
    (fun
      | .derived d => unwrap? d
      | .base _ => none)
    (fun
      | .derived d, a, h => congrArg TypeDef.derived (wrap_of_unwrap d a h)
      | .base _, _, h => nomatch h)
    rest

/-- Built-in types by name. -/
def baseCase : Cases TypeDef → Cases TypeDef :=
  .case "BaseType" (.choice BaseType.all BaseType.name) .base
    (fun
      | .base b => some b
      | .derived _ => none)
    (by rintro (_ | _) _ h <;> cases h; rfl)

/-- Aliases. -/
def aliasCase : Cases TypeDef → Cases TypeDef :=
  derivationCase "AliasTypeDef" remarks
    (fun (name, type, comment?, annotations, ()) => ⟨name, type, .synonym, comment?, annotations⟩)
    (fun
      | ⟨name, type, .synonym, comment?, annotations⟩ => some (name, type, comment?, annotations, ())
      | _ => none)
    (by rintro ⟨_, _, detail, _, _⟩ _ h; cases detail <;> cases h; rfl)

/-- Texts. -/
def textCase : Cases TypeDef → Cases TypeDef :=
  derivationCase "StringTypeDef"
    (.optional "pattern" .text <| .defaulted "values" (.list .text) [] List.isEmpty <|
      sizeRange remarks)
    (fun (name, type, pattern?, values, min?, max?, comment?, annotations, ()) =>
      ⟨name, type, .text pattern? values min? max?, comment?, annotations⟩)
    (fun
      | ⟨name, type, .text pattern? values min? max?, comment?, annotations⟩ =>
        some (name, type, pattern?, values, min?, max?, comment?, annotations, ())
      | _ => none)
    (by rintro ⟨_, _, detail, _, _⟩ _ h; cases detail <;> cases h; rfl)

/-- Numbers. -/
def numberCase : Cases TypeDef → Cases TypeDef :=
  derivationCase "NumberTypeDef" (.optional "min" .number <| .optional "max" .number remarks)
    (fun (name, type, min?, max?, comment?, annotations, ()) =>
      ⟨name, type, .number min? max?, comment?, annotations⟩)
    (fun
      | ⟨name, type, .number min? max?, comment?, annotations⟩ =>
        some (name, type, min?, max?, comment?, annotations, ())
      | _ => none)
    (by rintro ⟨_, _, detail, _, _⟩ _ h; cases detail <;> cases h; rfl)

/-- Bytes. -/
def bytesCase : Cases TypeDef → Cases TypeDef :=
  derivationCase "BytesTypeDef" (allSizes remarks)
    (fun (name, type, size?, min?, max?, comment?, annotations, ()) =>
      ⟨name, type, .bytes ⟨size?, min?, max?⟩, comment?, annotations⟩)
    (fun
      | ⟨name, type, .bytes ⟨size?, min?, max?⟩, comment?, annotations⟩ =>
        some (name, type, size?, min?, max?, comment?, annotations, ())
      | _ => none)
    (by rintro ⟨_, _, detail, _, _⟩ _ h; cases detail <;> cases h; rfl)

/-- Structs. -/
def structCase : Cases TypeDef → Cases TypeDef :=
  derivationCase "StructTypeDef"
    (listPart "fields" Field.shape <| .defaulted "closed" .flag false alwaysWritten remarks)
    (fun (name, type, fields, closed, comment?, annotations, ()) =>
      ⟨name, type, .struct fields closed, comment?, annotations⟩)
    (fun
      | ⟨name, type, .struct fields closed, comment?, annotations⟩ =>
        some (name, type, fields, closed, comment?, annotations, ())
      | _ => none)
    (by rintro ⟨_, _, detail, _, _⟩ _ h; cases detail <;> cases h; rfl)

/-- Arrays. -/
def arrayCase : Cases TypeDef → Cases TypeDef :=
  derivationCase "ArrayTypeDef" (openReference "items" <| allSizes remarks)
    (fun (name, type, items, size?, min?, max?, comment?, annotations, ()) =>
      ⟨name, type, .array items ⟨size?, min?, max?⟩, comment?, annotations⟩)
    (fun
      | ⟨name, type, .array items ⟨size?, min?, max?⟩, comment?, annotations⟩ =>
        some (name, type, items, size?, min?, max?, comment?, annotations, ())
      | _ => none)
    (by rintro ⟨_, _, detail, _, _⟩ _ h; cases detail <;> cases h; rfl)

/-- Maps. -/
def mapCase : Cases TypeDef → Cases TypeDef :=
  derivationCase "MapTypeDef"
    (openReference "keys" <| openReference "items" <| allSizes remarks)
    (fun (name, type, keys, items, size?, min?, max?, comment?, annotations, ()) =>
      ⟨name, type, .map keys items ⟨size?, min?, max?⟩, comment?, annotations⟩)
    (fun
      | ⟨name, type, .map keys items ⟨size?, min?, max?⟩, comment?, annotations⟩ =>
        some (name, type, keys, items, size?, min?, max?, comment?, annotations, ())
      | _ => none)
    (by rintro ⟨_, _, detail, _, _⟩ _ h; cases detail <;> cases h; rfl)

/-- Enumerations. -/
def enumCase : Cases TypeDef → Cases TypeDef :=
  derivationCase "EnumTypeDef" (listPart "elements" Element.shape remarks)
    (fun (name, type, elements, comment?, annotations, ()) =>
      ⟨name, type, .enum elements, comment?, annotations⟩)
    (fun
      | ⟨name, type, .enum elements, comment?, annotations⟩ =>
        some (name, type, elements, comment?, annotations, ())
      | _ => none)
    (by rintro ⟨_, _, detail, _, _⟩ _ h; cases detail <;> cases h; rfl)

/-- Unions. -/
def unionCase : Cases TypeDef → Cases TypeDef :=
  derivationCase "UnionTypeDef" (listPart "variants" .text remarks)
    (fun (name, type, variants, comment?, annotations, ()) =>
      ⟨name, type, .union variants, comment?, annotations⟩)
    (fun
      | ⟨name, type, .union variants, comment?, annotations⟩ =>
        some (name, type, variants, comment?, annotations, ())
      | _ => none)
    (by rintro ⟨_, _, detail, _, _⟩ _ h; cases detail <;> cases h; rfl)

/-- A definition, in one of ten kinds. -/
def TypeDef.shape : Shape TypeDef :=
  .tagged <| baseCase <| aliasCase <| textCase <| numberCase <| bytesCase <| structCase <|
    arrayCase <| mapCase <| enumCase <| unionCase .none

/-- A schema. -/
def Schema.shape : Shape Schema :=
  .record "Schema"
    (.optional "namespace" .text <| .optional "name" .text <| .optional "version" .size <|
      .optional "comment" .text <| listPart "types" TypeDef.shape .done)
    (fun (package?, name?, version?, comment?, types, ()) =>
      ⟨package?, name?, version?, comment?, types⟩)
    (fun s => (s.package?, s.name?, s.version?, s.comment?, s.types, ()))
    (fun _ => rfl)

end ResourceSchema
