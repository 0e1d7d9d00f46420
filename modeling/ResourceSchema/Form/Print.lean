/-
# The tree of a value

`Shape.print` gives the tree that a value is written as.  A record becomes an
object without the parts that are absent or omitted, a choice its name, and a
tagged value an object with one key, that of its first case; a value of no case
would become `null`.
-/

import ResourceSchema.Form.Shape

namespace ResourceSchema

/-- A size is an integer of 64 bits. -/
theorem fitsWord_toNat (n : UInt32) : FitsWord n.toNat := by
  have := n.toNat_lt
  simp only [FitsWord]
  omega

/-- A size as an integer of a tree. -/
def wordOfSize (n : UInt32) : Word := ⟨n.toNat, fitsWord_toNat n⟩

mutual
/-- The tree that a value is written as. -/
def Shape.print : {α : Type} → Shape α → α → Json
  | _, .text, s => .str s
  | _, .size, n => .num (.integer (wordOfSize n))
  | _, .number, x => .num (.double x)
  | _, .flag, b => .bool b
  | _, .annotations, a => .obj (a.entries.map fun e => (e.1, .str e.2))
  | _, .tree, v => v
  | _, .list item, items => .arr (items.map item.print)
  | _, .choice _ name, a => .str (name a)
  | _, .record _ parts _ split _, a => Json.object (parts.members (split a))
  | _, .tagged cases, a =>
    match cases.member? a with
    | some member => .obj [member]
    | none => .null
/-- The members of an object for the parts, in declaration order. -/
def Parts.members : {α : Type} → Parts α → α → List (String × Json)
  | _, .done, _ => []
  | _, .required key shape rest, (a, b) => (key, shape.print a) :: rest.members b
  | _, .optional key shape rest, (some a, b) => (key, shape.print a) :: rest.members b
  | _, .optional _ _ rest, (none, b) => rest.members b
  | _, .defaulted key shape _ omitted rest, (a, b) =>
    if omitted a then rest.members b else (key, shape.print a) :: rest.members b
/-- The tag of a value's case and the tree of what stands under it. -/
def Cases.member? : {α : Type} → Cases α → α → Option (String × Json)
  | _, .none, _ => none
  | _, .case tag shape _ unwrap? _ rest, a =>
    match unwrap? a with
    | some b => some (tag, shape.print b)
    | none => rest.member? a
end

end ResourceSchema
