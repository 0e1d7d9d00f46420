/-
# Resolving references to type expressions

A reference stands for what its definition derives from.  A definition that
derives from `Array` is a list, one that derives from `Map` a map; their
element, key and value types are the definition's own where the definition is
an array or a map, and otherwise those given with the reference, with `Any` for
what is not given.  Nothing is given with the references inside a definition.
Everything else is a single token.

The elements of a list are boxed; the keys and values of a map are not.

References may go round in circles, so collections are followed 64 deep and no
further.
-/

import ResourceSchema.Error
import ResourceSchema.Registry.Source
import ResourceSchema.TypeExpr.Basic

namespace ResourceSchema

/-- What a reference stands for, one level deep: a token, or a collection of
further references. -/
inductive Meaning where
  | scalar (tokens : Tokens)
  | list (element : String)
  | map (key value : String)
deriving DecidableEq, Repr

/-- The element type of an array's own definition. -/
def TypeDef.arrayItems? : TypeDef → Option String
  | .derived ⟨_, _, .array items _, _, _⟩ => some items
  | _ => none

/-- The key and value types of a map's own definition. -/
def TypeDef.mapParts? : TypeDef → Option (String × String)
  | .derived ⟨_, _, .map keys items _, _, _⟩ => some (keys, items)
  | _ => none

/-- The type given with a reference; one that is absent or empty is `Any`. -/
def givenOrAny : Option String → String
  | some given => if given = "" then BaseType.any.name else given
  | none => BaseType.any.name

/-- The tokens of a reference that is no collection.  A derivation of a struct
is a class of its own name, except what is itself called `Struct`. -/
def scalarTokens (reference : String) (definition : TypeDef) : BaseType → Tokens
  | .any => .object
  | .string | .symbol | .timestamp | .uuid => .string
  | .bool => ⟨"boolean", "Boolean"⟩
  | .int8 => ⟨"byte", "Byte"⟩
  | .int16 => ⟨"short", "Short"⟩
  | .int32 => ⟨"int", "Integer"⟩
  | .int64 => ⟨"long", "Long"⟩
  | .float32 => ⟨"float", "Float"⟩
  | .float64 => ⟨"double", "Double"⟩
  | .struct => if definition.name = BaseType.struct.name then .object else .same reference
  | .bytes | .enum | .union | .array | .map => .same reference

/-- What a definition that derives from `base` stands for. -/
def TypeDef.meaning (definition : TypeDef) (reference : String) (items? keys? : Option String) :
    BaseType → Meaning
  | .array => .list (definition.arrayItems?.getD (givenOrAny items?))
  | .map =>
    let (keys, items) := definition.mapParts?.getD (givenOrAny keys?, givenOrAny items?)
    .map keys items
  | other => .scalar (scalarTokens reference definition other)

namespace TypeSource

/-- What a reference stands for. -/
def meaning (source : TypeSource) (reference : String) (items? keys? : Option String) :
    Except GenerateError Meaning :=
  match source.find? reference with
  | none => .error (.unknownType reference)
  | some definition =>
    match source.base? definition with
    | none => .error (.noBaseType reference)
    | some base => .ok (definition.meaning reference items? keys? base)

/-- How deep collections may be nested. -/
def maxNesting : Nat := 64

/-- The expression of a reference, following so many levels of references. -/
def resolveWithin (source : TypeSource) :
    Nat → String → Bool → Option String → Option String → Except GenerateError TypeExpr
  | 0, reference, _, _, _ => .error (.recursiveType reference maxNesting)
  | levels + 1, reference, boxed, items?, keys? =>
    match source.meaning reference items? keys? with
    | .error e => .error e
    | .ok (.scalar tokens) => .ok (.token (tokens.pick boxed))
    | .ok (.list element) =>
      (source.resolveWithin levels element true none none).map .list
    | .ok (.map key value) =>
      match source.resolveWithin levels key false none none with
      | .error e => .error e
      | .ok k => (source.resolveWithin levels value false none none).map (.map k)

/-- The expression of a reference: boxed if its value may be absent, with the
element and key types that are given with it. -/
def resolve (source : TypeSource) (reference : String) (optional : Bool)
    (items? keys? : Option String) : Except GenerateError TypeExpr :=
  source.resolveWithin (maxNesting + 1) reference optional items? keys?

/-- The expression of a field's type. -/
def resolveField (source : TypeSource) (field : Field) : Except GenerateError TypeExpr :=
  source.resolve field.type field.optional field.items? field.keys?

end TypeSource

end ResourceSchema
