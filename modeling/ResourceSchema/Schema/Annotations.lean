/-
# Looking up annotations

The annotations of a name are those of the first definition of that name that
can be annotated in its own right.  Built-in types, aliases and enumerations
are passed over, so they do not hide a later definition of the same name.
-/

import ResourceSchema.Schema.Basic

namespace ResourceSchema

/-- Whether the annotations of a definition are looked up. -/
def TypeDef.isAnnotated : TypeDef → Bool
  | .base _ => false
  | .derived ⟨_, _, .synonym, _, _⟩ => false
  | .derived ⟨_, _, .enum _, _, _⟩ => false
  | .derived _ => true

/-- The annotations of a name, none if nothing has it. -/
def annotationsOf (name : String) (types : List TypeDef) : Annotations :=
  (((types.filter TypeDef.isAnnotated).find? (·.name = name)).bind TypeDef.annotations?).getD
    .empty

end ResourceSchema
