/-
# Forms of values as data

A `Shape α` describes how values of `α` are written as JSON trees: which trees
stand for a value, and which tree a value is written as.  Records list their
parts in declaration order with their keys, and a tagged value is an object
with one key.  `Shape.load` and `Shape.print` (in the modules beside this one)
are two readings of one description, so a key or a default is stated once.

A part of a record is one of three kinds:

| kind | absent | `null` | written |
| --- | --- | --- | --- |
| required | a mismatch | as its own shape says | always |
| optional | `none` | `none` | when there is a value |
| defaulted | the default | as its own shape says | unless it is omitted |
-/

import ResourceSchema.Schema.Basic

namespace ResourceSchema

mutual
/-- How values of a type are written as JSON trees. -/
inductive Shape : Type → Type 1
  /-- A text. -/
  | text : Shape String
  /-- An integer of 32 bits without sign. -/
  | size : Shape UInt32
  /-- A double.  Integers are taken for the nearest one. -/
  | number : Shape Double
  /-- A truth value. -/
  | flag : Shape Bool
  /-- An object of texts. -/
  | annotations : Shape Annotations
  /-- Any tree, kept as it is. -/
  | tree : Shape Json
  /-- A list. -/
  | list {α : Type} (item : Shape α) : Shape (List α)
  /-- One of several names. -/
  | choice {α : Type} (options : List α) (name : α → String) : Shape α
  /-- A record, as an object or as a list of its parts. -/
  | record {α β : Type} (title : String) (parts : Parts β) (make : β → α) (split : α → β)
      (make_split : ∀ a, make (split a) = a) : Shape α
  /-- An object whose only key says which shape its value has. -/
  | tagged {α : Type} (cases : Cases α) : Shape α
/-- The parts of a record in declaration order. -/
inductive Parts : Type → Type 1
  | done : Parts Unit
  | required {α β : Type} (key : String) (shape : Shape α) (rest : Parts β) : Parts (α × β)
  | optional {α β : Type} (key : String) (shape : Shape α) (rest : Parts β) :
      Parts (Option α × β)
  | defaulted {α β : Type} (key : String) (shape : Shape α) (value : α) (omitted : α → Bool)
      (rest : Parts β) : Parts (α × β)
/-- The tags of a tagged value, with the shape of what stands under each and how
it is turned into the value and back. -/
inductive Cases : Type → Type 1
  | none {α : Type} : Cases α
  | case {α β : Type} (tag : String) (shape : Shape β) (wrap : β → α) (unwrap? : α → Option β)
      (wrap_of_unwrap : ∀ a b, unwrap? a = some b → wrap b = a) (rest : Cases α) : Cases α
end

/-- A part that is written even when it has its default value. -/
def alwaysWritten {α : Type} : α → Bool := fun _ => false

/-- The keys of a record's parts. -/
def Parts.keys : {α : Type} → Parts α → List String
  | _, .done => []
  | _, .required key _ rest => key :: rest.keys
  | _, .optional key _ rest => key :: rest.keys
  | _, .defaulted key _ _ _ rest => key :: rest.keys

/-- The number of a record's parts. -/
def Parts.count {α : Type} (parts : Parts α) : Nat := parts.keys.length

/-- The tags of a tagged value. -/
def Cases.tags : {α : Type} → Cases α → List String
  | _, .none => []
  | _, .case tag _ _ _ _ rest => tag :: rest.tags

end ResourceSchema
