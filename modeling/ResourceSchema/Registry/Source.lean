/-
# Where types are looked up

Resolving a reference needs two answers: the definition of a name, and the
built-in type that a definition derives from.  `TypeSource` is anything that
gives them; a registry is one, and so is a plain list of definitions with the
bases they are said to have.
-/

import ResourceSchema.Registry.Basic

namespace ResourceSchema

/-- Definitions by name, and the built-in types they derive from. -/
structure TypeSource where
  find? : String → Option TypeDef
  base? : TypeDef → Option BaseType

/-- A registry as a source. -/
def Registry.source (r : Registry) : TypeSource := ⟨r.find?, r.base?⟩

/-- A list of definitions with their bases.  Of two with one name the first
counts. -/
def TypeSource.ofList (entries : List (TypeDef × Option BaseType)) : TypeSource where
  find? name := (entries.find? (·.1.name = name)).map (·.1)
  base? definition := (entries.find? (·.1.name = definition.name)).bind (·.2)

end ResourceSchema
