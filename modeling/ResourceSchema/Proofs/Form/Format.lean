/-
# The format of schema documents

Which trees stand for which schemas, key by key, and without any account of how a
tree is read.  Nothing here is said through shapes: every key stands where it is
used, and the keys of a body are listed once more in declaration order.

Definitions, fields and elements have *bodies*.  A body is an object, or a list
of its parts in declaration order that may end early and may not go on beyond
the last key (`Body`).  Either way something or nothing is given under each key,
and a part stands to what is given under its key in one of three ways:

| part | nothing given | `null` given | anything else given |
| --- | --- | --- | --- |
| `Required` | not allowed | a tree like any other | the value it stands for |
| `Optional` | no value | no value | the value it stands for |
| `Defaulted` | the default | a tree like any other | the value it stands for |

What is given under other keys does not matter.
-/

import Mathlib.Data.List.Forall2
import ResourceSchema.Schema.Basic

namespace ResourceSchema

namespace Format

/-! ### Values without parts -/

/-- A text. -/
def IsText (v : Json) (s : String) : Prop := v = .str s

/-- An integer between 0 and 2³² - 1.  A double is none, even if it is whole. -/
def IsSize (v : Json) (n : UInt32) : Prop :=
  ∃ word : Word, v = .num (.integer word) ∧ word.val = n.toNat

/-- Any number; an integer stands for the double nearest to it. -/
def IsNumber (v : Json) (x : Double) : Prop := ∃ n : Number, v = .num n ∧ n.toDouble = x

/-- A truth value. -/
def IsFlag (v : Json) (b : Bool) : Prop := v = .bool b

/-- An object of texts. -/
def IsTexts (v : Json) (a : Annotations) : Prop :=
  ∃ entries : List (String × String),
    v = .obj (entries.map fun e => (e.1, .str e.2)) ∧ Annotations.ofList entries = a

/-- Any tree, kept as it is. -/
def IsTree (v w : Json) : Prop := v = w

/-- A list, item by item. -/
def IsListOf {α : Type} (IsItem : Json → α → Prop) (v : Json) (as : List α) : Prop :=
  ∃ items, v = .arr items ∧ List.Forall₂ IsItem items as

/-- A built-in type: its name, or an object with `null` under its name. -/
def IsBuiltin (v : Json) (b : BaseType) : Prop := v = .str b.name ∨ v = .obj [(b.name, .null)]

/-! ### Parts and bodies -/

section Parts

variable {α : Type} (Is : Json → α → Prop)

/-- A part that has to be given. -/
inductive Required : Option Json → α → Prop
  | given {v : Json} {a : α} (h : Is v a) : Required (some v) a

/-- A part that may be absent or `null`. -/
inductive Optional : Option Json → Option α → Prop
  | absent : Optional none none
  | null : Optional (some .null) none
  | given {v : Json} {a : α} (hv : v ≠ .null) (h : Is v a) : Optional (some v) (some a)

/-- A part with a value to take if it is absent. -/
inductive Defaulted (value : α) : Option Json → α → Prop
  | absent : Defaulted value none value
  | given {v : Json} {a : α} (h : Is v a) : Defaulted value (some v) a

end Parts

/-- What a body gives under its keys, which are in declaration order. -/
inductive Body (keys : List String) : Json → (String → Option Json) → Prop
  | object (members : List (String × Json)) :
      Body keys (.obj members) fun key => Json.lookup key members
  | list (items : List Json) (h : items.length ≤ keys.length) :
      Body keys (.arr items) fun key => Json.lookup key (keys.zip items)

/-! ### Fields and elements -/

/-- The parts of a field. -/
structure FieldParts (given : String → Option Json) (f : Field) : Prop where
  name : Required IsText (given "name") f.name
  type : Required IsText (given "type") f.type
  optional : Defaulted IsFlag false (given "optional") f.optional
  items? : Optional IsText (given "items") f.items?
  keys? : Optional IsText (given "keys") f.keys?
  default? : Optional IsTree (given "default") f.default?
  comment? : Optional IsText (given "comment") f.comment?
  annotations : Defaulted IsTexts .empty (given "annotations") f.annotations

/-- The keys of a field. -/
def fieldKeys : List String :=
  ["name", "type", "optional", "items", "keys", "default", "comment", "annotations"]

/-- The body of a field. -/
def IsFieldBody (v : Json) (f : Field) : Prop :=
  ∃ given, Body fieldKeys v given ∧ FieldParts given f

/-- The parts of an element. -/
structure ElementParts (given : String → Option Json) (e : Element) : Prop where
  symbol : Required IsText (given "symbol") e.symbol
  comment? : Optional IsText (given "comment") e.comment?

/-- The body of an element. -/
def IsElementBody (v : Json) (e : Element) : Prop :=
  ∃ given, Body ["symbol", "comment"] v given ∧ ElementParts given e

/-! ### Definitions -/

/-- The parts that all derivations have. -/
structure CommonParts (given : String → Option Json) (d : Derivation) : Prop where
  name : Required IsText (given "name") d.name
  supertype : Required IsText (given "type") d.supertype
  comment? : Optional IsText (given "comment") d.comment?
  annotations : Defaulted IsTexts .empty (given "annotations") d.annotations

/-- The three sizes of bytes, arrays and maps. -/
structure SizesParts (given : String → Option Json) (sizes : Sizes) : Prop where
  size? : Optional IsSize (given "size") sizes.size?
  min? : Optional IsSize (given "minSize") sizes.min?
  max? : Optional IsSize (given "maxSize") sizes.max?

/-- The tags of the nine kinds of derivations. -/
def tag : Detail → String
  | .synonym => "AliasTypeDef"
  | .text .. => "StringTypeDef"
  | .number .. => "NumberTypeDef"
  | .bytes _ => "BytesTypeDef"
  | .struct .. => "StructTypeDef"
  | .array .. => "ArrayTypeDef"
  | .map .. => "MapTypeDef"
  | .enum _ => "EnumTypeDef"
  | .union _ => "UnionTypeDef"

/-- The keys of a body under these tags. -/
def keys : Detail → List String
  | .synonym => ["name", "type", "comment", "annotations"]
  | .text .. =>
    ["name", "type", "pattern", "values", "minSize", "maxSize", "comment", "annotations"]
  | .number .. => ["name", "type", "min", "max", "comment", "annotations"]
  | .bytes _ => ["name", "type", "size", "minSize", "maxSize", "comment", "annotations"]
  | .struct .. => ["name", "type", "fields", "closed", "comment", "annotations"]
  | .array .. => ["name", "type", "items", "size", "minSize", "maxSize", "comment", "annotations"]
  | .map .. =>
    ["name", "type", "keys", "items", "size", "minSize", "maxSize", "comment", "annotations"]
  | .enum _ => ["name", "type", "elements", "comment", "annotations"]
  | .union _ => ["name", "type", "variants", "comment", "annotations"]

/-- The parts that only derivations of one kind have. -/
def OwnParts (given : String → Option Json) : Detail → Prop
  | .synonym => True
  | .text pattern? values min? max? =>
    Optional IsText (given "pattern") pattern? ∧
      Defaulted (IsListOf IsText) [] (given "values") values ∧
      Optional IsSize (given "minSize") min? ∧ Optional IsSize (given "maxSize") max?
  | .number min? max? =>
    Optional IsNumber (given "min") min? ∧ Optional IsNumber (given "max") max?
  | .bytes sizes => SizesParts given sizes
  | .struct fields closed =>
    Defaulted (IsListOf IsFieldBody) [] (given "fields") fields ∧
      Defaulted IsFlag false (given "closed") closed
  | .array items sizes => Defaulted IsText "Any" (given "items") items ∧ SizesParts given sizes
  | .map keys items sizes =>
    Defaulted IsText "Any" (given "keys") keys ∧ Defaulted IsText "Any" (given "items") items ∧
      SizesParts given sizes
  | .enum elements => Defaulted (IsListOf IsElementBody) [] (given "elements") elements
  | .union variants => Defaulted (IsListOf IsText) [] (given "variants") variants

/-- The body of a derivation. -/
def IsDerivation (v : Json) (d : Derivation) : Prop :=
  ∃ given, Body (keys d.detail) v given ∧ CommonParts given d ∧ OwnParts given d.detail

/-- A definition: an object whose only key is a tag, with a body under it. -/
inductive IsDefinition : Json → TypeDef → Prop
  | base {body : Json} {b : BaseType} (h : IsBuiltin body b) :
      IsDefinition (.obj [("BaseType", body)]) (.base b)
  | derived {body : Json} {d : Derivation} (h : IsDerivation body d) :
      IsDefinition (.obj [(tag d.detail, body)]) (.derived d)

/-! ### Schemas -/

end Format

end ResourceSchema
