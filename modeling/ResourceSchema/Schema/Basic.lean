/-
# Schemas

A schema names itself, its version and its namespace, and lists type
definitions in order.  A type definition is a built-in type or a derivation: a
name, the name of the type it derives from, and a detail that says what kind of
derivation it is and what it adds.  The detail and the supertype are
independent of each other: nothing stops an array from deriving from `String`.

Types refer to each other by name only.
-/

import ResourceSchema.Json.Value
import ResourceSchema.Schema.BaseType

namespace ResourceSchema

/-- Annotations: texts by key.  They are kept in key order, so the order in
which they were given makes no difference. -/
structure Annotations where
  entries : List (String × String)
  inKeyOrder : Json.InKeyOrder entries
deriving DecidableEq

namespace Annotations

/-- No annotations. -/
def empty : Annotations := ⟨[], List.Pairwise.nil⟩

instance : Inhabited Annotations := ⟨empty⟩

/-- Whether there are no annotations. -/
def isEmpty (a : Annotations) : Bool := a.entries.isEmpty

/-- The annotations with these entries, the last of each key counting. -/
def ofList (entries : List (String × String)) : Annotations :=
  ⟨Json.arrange entries, Json.inKeyOrder_arrange entries⟩

end Annotations

/-- A field of a struct.  `items?` and `keys?` are the element and key types of
a collection that the field's type leaves open. -/
structure Field where
  name : String
  type : String
  optional : Bool := false
  items? : Option String := none
  keys? : Option String := none
  default? : Option Json := none
  comment? : Option String := none
  annotations : Annotations := .empty
deriving BEq, DecidableEq, Inhabited

/-- An element of an enumeration. -/
structure Element where
  symbol : String
  comment? : Option String := none
deriving BEq, DecidableEq, Inhabited

/-- The sizes that values may have. -/
structure Sizes where
  size? : Option UInt32 := none
  min? : Option UInt32 := none
  max? : Option UInt32 := none
deriving BEq, DecidableEq, Inhabited

/-- The kind of a derivation and what it adds to its supertype. -/
inductive Detail where
  | synonym
  | text (pattern? : Option String) (values : List String) (minSize? maxSize? : Option UInt32)
  | number (min? max? : Option Double)
  | bytes (sizes : Sizes)
  | struct (fields : List Field) (closed : Bool)
  | array (items : String) (sizes : Sizes)
  | map (keys items : String) (sizes : Sizes)
  | enum (elements : List Element)
  | union (variants : List String)
deriving BEq, DecidableEq, Inhabited

/-- A type derived from another. -/
structure Derivation where
  name : String
  supertype : String
  detail : Detail
  comment? : Option String := none
  annotations : Annotations := .empty
deriving BEq, DecidableEq, Inhabited

/-- A type definition. -/
inductive TypeDef where
  | base (type : BaseType)
  | derived (derivation : Derivation)
deriving BEq, DecidableEq, Inhabited

namespace TypeDef

/-- The name a definition is found by. -/
def name : TypeDef → String
  | base b => b.name
  | derived d => d.name

/-- The name of the type a definition derives from.  A built-in type derives
from none. -/
def supertype? : TypeDef → Option String
  | base _ => none
  | derived d => some d.supertype

/-- The annotations of a definition.  A built-in type cannot have any. -/
def annotations? : TypeDef → Option Annotations
  | base _ => none
  | derived d => some d.annotations

end TypeDef

/-- A schema. -/
structure Schema where
  package? : Option String := none
  name? : Option String := none
  version? : Option UInt32 := none
  comment? : Option String := none
  types : List TypeDef := []
deriving BEq, DecidableEq, Inhabited

namespace Derivation

/-- Another name for a type. -/
def synonym (name of : String) : Derivation := ⟨name, of, .synonym, none, .empty⟩

/-- A text without constraints. -/
def text (name : String) : Derivation :=
  ⟨name, BaseType.string.name, .text none [] none none, none, .empty⟩

/-- A number without bounds. -/
def number (name : String) (base : BaseType) : Derivation :=
  ⟨name, base.name, .number none none, none, .empty⟩

/-- Bytes of any length. -/
def bytes (name : String) : Derivation := ⟨name, BaseType.bytes.name, .bytes {}, none, .empty⟩

/-- An open struct with these fields. -/
def struct (name : String) (fields : List Field) : Derivation :=
  ⟨name, BaseType.struct.name, .struct fields false, none, .empty⟩

/-- An array of any length. -/
def array (name items : String) : Derivation :=
  ⟨name, BaseType.array.name, .array items {}, none, .empty⟩

/-- A map of any size. -/
def map (name keys items : String) : Derivation :=
  ⟨name, BaseType.map.name, .map keys items {}, none, .empty⟩

/-- An enumeration of these symbols. -/
def enum (name : String) (symbols : List String) : Derivation :=
  ⟨name, BaseType.enum.name, .enum (symbols.map ({ symbol := · })), none, .empty⟩

/-- A union of these types. -/
def union (name : String) (variants : List String) : Derivation :=
  ⟨name, BaseType.union.name, .union variants, none, .empty⟩

end Derivation

end ResourceSchema
