/-
# The registry of types

A registry holds definitions in the order in which they were registered, the
built-in types first, and an index from names to positions.  A name is
registered once: a later definition of the same name is turned away, so neither
a built-in type nor an earlier definition is ever shadowed.
-/

import Std.Data.TreeMap
import ResourceSchema.Schema.Basic

namespace ResourceSchema

/-- Registered definitions, and where each name is. -/
structure Registry where
  types : Array TypeDef
  index : Std.TreeMap String Nat

namespace Registry

/-- Nothing is registered, not even the built-in types. -/
def empty : Registry := ⟨#[], ∅⟩

/-- Whether a name is registered. -/
def has (r : Registry) (name : String) : Bool := r.index.contains name

/-- The number of registered definitions. -/
def size (r : Registry) : Nat := r.types.size

/-- Registers a definition, unless its name is taken, and says whether it did. -/
def add (r : Registry) (definition : TypeDef) : Bool × Registry :=
  if r.has definition.name then (false, r)
  else
    (true, ⟨r.types.push definition, r.index.insert definition.name r.types.size⟩)

/-- Registers definitions one after another. -/
def addAll (r : Registry) (definitions : List TypeDef) : Registry :=
  definitions.foldl (fun r d => (r.add d).2) r

/-- The registry of the built-in types. -/
def builtin : Registry := empty.addAll (BaseType.all.map .base)

/-- The registry of a schema: its definitions after the built-in types. -/
def ofSchema (schema : Schema) : Registry := builtin.addAll schema.types

/-- The definition with this name. -/
def find? (r : Registry) (name : String) : Option TypeDef := do
  let position ← r.index[name]?
  r.types[position]?

end Registry

/-- The built-in type at the end of a chain of supertypes, if it is reached
within so many steps. -/
def baseWithin (find? : String → Option TypeDef) : Nat → TypeDef → Option BaseType
  | 0, _ => none
  | _ + 1, .base b => some b
  | steps + 1, .derived d => (find? d.supertype).bind (baseWithin find? steps)

namespace Registry

/-- The built-in type that a definition derives from, if there is one.  A chain
that visits more definitions than are registered, the definition itself aside,
visits one of them again. -/
def base? (r : Registry) (definition : TypeDef) : Option BaseType :=
  baseWithin r.find? (r.size + 1) definition

end Registry

end ResourceSchema
