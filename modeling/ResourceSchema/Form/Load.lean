/-
# Loading a value from its tree

`Shape.load` gives the value that a tree stands for, or the mismatch that is
reported.  In an object the mismatch under the least key is reported, whatever
the order of declaration; only if there is none, the first required part in
declaration order that is missing.  In a list of parts the mismatches are met
in declaration order.  Keys that are not the record's are not looked at.
-/

import ResourceSchema.Form.Shape
import ResourceSchema.Form.Mismatch

namespace ResourceSchema

-- Powers are those of the core library, also where Mathlib brings its own.
attribute [local instance (high)] instPowNat

/-- What the parts looked at so far come to: all of them are there, or the
mismatch under the least key, or else the first missing key. -/
inductive Outcome (α : Type) where
  | complete (value : α)
  | missing (key : String)
  | faulty (key : String) (cause : Mismatch)

namespace Outcome

/-- A part that is there and loads to a value or not. -/
def ofLoad {α : Type} (key : String) : Except Mismatch α → Outcome α
  | .ok value => .complete value
  | .error cause => .faulty key cause

/-- A part and the parts declared after it. -/
def and {α β : Type} : Outcome α → Outcome β → Outcome (α × β)
  | .faulty key cause, .faulty key' cause' =>
    if key' < key then .faulty key' cause' else .faulty key cause
  | .faulty key cause, _ => .faulty key cause
  | _, .faulty key cause => .faulty key cause
  | .missing key, _ => .missing key
  | _, .missing key => .missing key
  | .complete a, .complete b => .complete (a, b)

/-- The value, or what is reported. -/
def toExcept {α : Type} : Outcome α → Except Mismatch α
  | .complete value => .ok value
  | .missing key => .error (.missingKey key)
  | .faulty _ cause => .error cause

end Outcome

/-- A text. -/
def loadText : Json → Except Mismatch String
  | .str s => .ok s
  | v => .error (.wrongType v.found .text)

/-- A size: an integer of 32 bits without sign, never a double. -/
def loadSize : Json → Except Mismatch UInt32
  | .num (.integer n) =>
    if 0 ≤ n.val ∧ n.val < 2 ^ (32 : Nat) then .ok (UInt32.ofNat n.val.toNat) else .error (.notASize n.val)
  | v => .error (.wrongType v.found .size)

/-- A double; an integer is taken for the nearest one. -/
def loadNumber : Json → Except Mismatch Double
  | .num n => .ok n.toDouble
  | v => .error (.wrongType v.found .number)

/-- A truth value. -/
def loadFlag : Json → Except Mismatch Bool
  | .bool b => .ok b
  | v => .error (.wrongType v.found .flag)

/-- Annotations: an object of texts. -/
def loadAnnotations : Json → Except Mismatch Annotations
  | .obj members => (members.mapM fun m => (loadText m.2).map (m.1, ·)).map .ofList
  | v => .error (.wrongType v.found .object)

/-- The option with this name. -/
def findOption {α : Type} (options : List α) (name : α → String) (tag : String) :
    Except Mismatch α :=
  match options.find? (name · = tag) with
  | some a => .ok a
  | none => .error (.unknownTag tag (options.map name))

/-- One of several names, as a text or as the key of an object that holds
`null` under it. -/
def loadChoice {α : Type} (options : List α) (name : α → String) : Json → Except Mismatch α
  | .str tag => findOption options name tag
  | .obj [(tag, body)] =>
    match findOption options name tag, body with
    | .error e, _ => .error e
    | .ok a, .null => .ok a
    | .ok _, v => .error (.wrongType v.found .nothing)
  | .obj _ => .error .notASingleKey
  | v => .error (.wrongType v.found .tag)

mutual
/-- The value that a tree stands for. -/
def Shape.load : {α : Type} → Shape α → Json → Except Mismatch α
  | _, .text, v => loadText v
  | _, .size, v => loadSize v
  | _, .number, v => loadNumber v
  | _, .flag, v => loadFlag v
  | _, .annotations, v => loadAnnotations v
  | _, .tree, v => .ok v
  | _, .list item, .arr items => items.mapM item.load
  | _, .list _, v => .error (.wrongType v.found .list)
  | _, .choice options name, v => loadChoice options name v
  | _, .record _ parts make _ _, .obj members => (parts.ofObject members).toExcept.map make
  | _, .record title parts make _ _, .arr items =>
    (parts.ofList title parts.count items.length items).map make
  | _, .record title _ _ _ _, v => .error (.wrongType v.found (.record title))
  | _, .tagged cases, .obj [(tag, body)] => cases.ofBody cases.tags tag (some body)
  | _, .tagged _, .obj _ => .error .notASingleKey
  | _, .tagged cases, .str tag => cases.ofBody cases.tags tag none
  | _, .tagged _, v => .error (.wrongType v.found .tag)
/-- The parts that the members of an object come to. -/
def Parts.ofObject : {α : Type} → Parts α → List (String × Json) → Outcome α
  | _, .done, _ => .complete ()
  | _, .required key shape rest, members =>
    Outcome.and
      (match Json.lookup key members with
        | some v => .ofLoad key (shape.load v)
        | none => .missing key)
      (rest.ofObject members)
  | _, .optional key shape rest, members =>
    Outcome.and
      (match Json.lookup key members with
        | some .null => .complete none
        | some v => .ofLoad key ((shape.load v).map some)
        | none => .complete none)
      (rest.ofObject members)
  | _, .defaulted key shape value _ rest, members =>
    Outcome.and
      (match Json.lookup key members with
        | some v => .ofLoad key (shape.load v)
        | none => .complete value)
      (rest.ofObject members)
/-- The parts in a list, which stand in declaration order and may end early.
The title, the number of parts declared and the number given are for the
report. -/
def Parts.ofList (title : String) (declared given : Nat) :
    {α : Type} → Parts α → List Json → Except Mismatch α
  | _, .done, [] => .ok ()
  | _, .done, _ :: _ => .error (.tooLong given)
  | _, .required _ _ _, [] => .error (.tooShort given title declared)
  | _, .required _ shape rest, v :: items =>
    match shape.load v with
    | .error e => .error e
    | .ok a => (rest.ofList title declared given items).map (a, ·)
  | _, .optional _ _ rest, [] => (rest.ofList title declared given []).map (none, ·)
  | _, .optional _ _ rest, .null :: items =>
    (rest.ofList title declared given items).map (none, ·)
  | _, .optional _ shape rest, v :: items =>
    match shape.load v with
    | .error e => .error e
    | .ok a => (rest.ofList title declared given items).map (some a, ·)
  | _, .defaulted _ _ value _ rest, [] => (rest.ofList title declared given []).map (value, ·)
  | _, .defaulted _ shape _ _ rest, v :: items =>
    match shape.load v with
    | .error e => .error e
    | .ok a => (rest.ofList title declared given items).map (a, ·)
/-- The case with this tag.  Without a body there is only the tag to report. -/
def Cases.ofBody (known : List String) :
    {α : Type} → Cases α → String → Option Json → Except Mismatch α
  | _, .none, tag, _ => .error (.unknownTag tag known)
  | _, .case tag' shape wrap _ _ rest, tag, body =>
    if tag = tag' then
      match body with
      | some v => (shape.load v).map wrap
      | none => .error (.wrongType .bareTag .body)
    else rest.ofBody known tag body
end

end ResourceSchema
