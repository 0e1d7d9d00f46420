/-
# Java type expressions

A type expression is a token, a list of boxed elements, or a map from keys to
values.  A boolean or numeric type has two tokens: a primitive one and the
class that boxes it.
-/

import ResourceSchema.Schema.BaseType

namespace ResourceSchema

/-- A Java type expression. -/
inductive TypeExpr where
  | token (name : String)
  | list (element : TypeExpr)
  | map (key value : TypeExpr)
deriving DecidableEq, Repr

/-- The text of a type expression. -/
def TypeExpr.render : TypeExpr → String
  | token name => name
  | list element => "List<" ++ element.render ++ ">"
  | map key value => "Map<" ++ key.render ++ "," ++ value.render ++ ">"

/-- How deep lists and maps are nested in a type expression. -/
def TypeExpr.depth : TypeExpr → Nat
  | token _ => 0
  | list element => element.depth + 1
  | map key value => max key.depth value.depth + 1

/-- The tokens of a type: where a value is always present, and where it may be
absent or is an element of a list. -/
structure Tokens where
  primitive : String
  boxed : String
deriving DecidableEq, Repr

namespace Tokens

/-- A type that is written the same way everywhere. -/
def same (name : String) : Tokens := ⟨name, name⟩

/-- The token for a place. -/
def pick (tokens : Tokens) (boxed : Bool) : String :=
  if boxed then tokens.boxed else tokens.primitive

/-- The token of anything. -/
def object : Tokens := same "Object"

/-- The token of texts. -/
def string : Tokens := same "String"

end Tokens

end ResourceSchema
