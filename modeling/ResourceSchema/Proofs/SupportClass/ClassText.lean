/-
# The class a text declares

A class is read from its tokens: the header, the members one after another, and the
closing bracket as the last token (`ClassText.ofText?`).  Integer constants and
fields without a value are told apart, and whatever ends in a block is kept as it is.
A text with anything else in it declares no class.

The method `codeToString` is read further when it is the only method of its name and
its body is a switch over its parameter in which every case returns a literal and the
default returns the number in decimal (`ClassText.cases?`).  What it returns is
looked up as it would run: the first case whose label is a constant of that value
(`ClassText.codeToString`).
-/

import ResourceSchema.Proofs.SupportClass.Tokens

namespace ResourceSchema

/-- A member of a class: an integer constant, a field, or a block with what stands
before it. -/
inductive ClassMember where
  | constant (name : String) (value : Nat)
  | field (name : String)
  | block (tokens : List Token)
deriving DecidableEq, Repr

namespace ClassMember

/-- The member that tokens declare. -/
def ofTokens? : List Token → Option ClassMember
  | [.keyword "public", .keyword "final", .keyword "static", .keyword "int", .name name,
      .mark '=', .number value, .mark ';'] => some (.constant name value)
  | [.keyword "int", .name name, .mark ';'] => some (.field name)
  | [.name _, .name name, .mark ';'] => some (.field name)
  | tokens => if tokens.getLast? = some (.mark '\x7d') then some (.block tokens) else none

/-- How many brackets are open around the next token of a class, and what has been read
of the member under way. -/
inductive Front where
  | within (depth : Nat) (front : List Token)
  | closed
deriving DecidableEq, Repr

/-- A member is complete. -/
def complete (tokens : List Token) : Option (List ClassMember × Front) :=
  (ofTokens? tokens).map fun m => ([m], .within 0 [])

/-- The reader of members, which ends with the bracket that closes the class. -/
def reader : Reader Front Token ClassMember where
  step
    | .closed, _ => none
    | .within 0 front, t =>
      if t = .mark '\x7d' then (if front = [] then some ([], .closed) else none)
      else if t = .mark '\x7b' then some ([], .within 1 (front ++ [t]))
      else if t = .mark ';' then complete (front ++ [t])
      else some ([], .within 0 (front ++ [t]))
    | .within (depth + 1) front, t =>
      if t = .mark '\x7d' then
        (if depth = 0 then complete (front ++ [t]) else some ([], .within depth (front ++ [t])))
      else if t = .mark '\x7b' then some ([], .within (depth + 2) (front ++ [t]))
      else some ([], .within (depth + 1) (front ++ [t]))

/-- The name of a constant with its value. -/
def constant? : ClassMember → Option (String × Nat)
  | .constant name value => some (name, value)
  | _ => none

/-- The name that a constant or a field takes. -/
def fieldName? : ClassMember → Option String
  | .constant name _ | .field name => some name
  | .block _ => none

/-- The name before the first parenthesis of a block. -/
def methodName? : ClassMember → Option String
  | .block tokens =>
    match (tokens.takeWhile (· ≠ .mark '(')).getLast? with
    | some (.name name) => some name
    | _ => none
  | _ => none

end ClassMember

/-- A case of a switch: the constant it is for, and the text it returns. -/
structure Case where
  label : String
  result : String
deriving DecidableEq, Repr

namespace Case

/-- The cases up to the default and the end of the method. -/
def ofTokens? : List Token → Option (List Case)
  | .keyword "case" :: .name label :: .mark ':' :: .keyword "return" :: .text result ::
      .mark ';' :: rest => (ofTokens? rest).map (⟨label, result⟩ :: ·)
  | [.keyword "default", .mark ':', .keyword "return", .text "", .mark '+', .name "code",
      .mark ';', .mark '\x7d', .mark '\x7d'] => some []
  | _ => none

/-- The cases of the method that turns a code into a text. -/
def ofMethod? : List Token → Option (List Case)
  | .keyword "public" :: .keyword "static" :: .name "String" :: .name "codeToString" ::
      .mark '(' :: .keyword "int" :: .name "code" :: .mark ')' :: .mark '\x7b' ::
      .keyword "switch" :: .mark '(' :: .name "code" :: .mark ')' :: .mark '\x7b' :: rest =>
    ofTokens? rest
  | _ => none

end Case

/-- A class as its text declares it. -/
structure ClassText where
  name : String
  parent : String
  members : List ClassMember
deriving DecidableEq, Repr

namespace ClassText

/-- The class that tokens declare. -/
def ofTokens? : List Token → Option ClassText
  | .keyword "public" :: .keyword "class" :: .name name :: .keyword "extends" ::
      .name parent :: .mark '\x7b' :: rest =>
    match ClassMember.reader.run (.within 0 []) rest with
    | some (members, .closed) => some ⟨name, parent, members⟩
    | _ => none
  | _ => none

/-- The class that a text declares. -/
def ofText? (text : String) : Option ClassText := (Token.ofText? text).bind ofTokens?

variable (cls : ClassText)

/-- The constants with their values. -/
def constants : List (String × Nat) := cls.members.filterMap ClassMember.constant?

/-- The names of constants and fields. -/
def fieldNames : List String := cls.members.filterMap ClassMember.fieldName?

/-- The value of a constant. -/
def value? (name : String) : Option Nat :=
  (cls.constants.find? (·.1 = name)).map Prod.snd

/-- The cases of the only method named `codeToString`. -/
def cases? : Option (List Case) :=
  match cls.members.filter (·.methodName? = some "codeToString") with
  | [.block tokens] => Case.ofMethod? tokens
  | _ => none

/-- Whether a label has the value of a code. -/
def denotes (label : String) (code : Int32) : Bool :=
  match cls.value? label with
  | some value => (value : Int) = code.toInt
  | none => false

/-- What `codeToString` returns. -/
def codeToString (cases : List Case) (code : Int32) : String :=
  match cases.find? fun c => cls.denotes c.label code with
  | some c => c.result
  | none => toString code.toInt

end ClassText

end ResourceSchema
