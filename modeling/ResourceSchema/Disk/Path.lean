/-
# Paths

A path is a text in which slashes separate names.  Paths are joined and shown
as they were given and never altered; only when a path is followed do empty
names and single dots count for nothing.
-/

import ResourceSchema.Text.Split

namespace ResourceSchema

/-- A path as it was given. -/
abbrev Path : Type := String

namespace Path

/-- The path of `name` below `left`: a slash comes between them unless `left`
is empty or brings one. -/
def join (left : Path) (name : String) : Path :=
  if left.toList = [] ∨ left.toList.getLast? = some '/' then left ++ name
  else left ++ "/" ++ name

/-- Whether a name counts when a path is followed. -/
def isName (piece : String) : Bool := piece ≠ "" ∧ piece ≠ "."

/-- The names along a path. -/
def names (path : Path) : List String := (pieces '/' path).filter isName

/-- Whether a path ends in a way that only a folder can answer: with a slash or
a single dot. -/
def asksForFolder (path : Path) : Bool :=
  match (pieces '/' path).getLast? with
  | some last => !isName last
  | none => false

/-- Whether a single dot follows the last name. -/
def endsWithDot (path : Path) : Bool :=
  ((pieces '/' path).filter (· ≠ "")).getLast? = some "."

end Path

end ResourceSchema
