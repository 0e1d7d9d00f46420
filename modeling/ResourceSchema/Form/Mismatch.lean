/-
# Why a tree does not have a form

A tree that is valid JSON may still not have the form that is asked of it.
`Mismatch` lists the ways, and `Mismatch.message` words them: what was found
against what was expected, an integer outside its range, a tag that is not one
of the known ones, a required key that is missing, and a list of parts that is
too short or too long.
-/

import ResourceSchema.Json.Value
import ResourceSchema.Double.Text

namespace ResourceSchema

/-- What was found. -/
inductive Found where
  | null
  | bool (value : Bool)
  | num (value : Number)
  | str (value : String)
  | list
  | object
  | bareTag
deriving DecidableEq

/-- What was expected. -/
inductive Expected where
  | text
  | size
  | number
  | flag
  | list
  | object
  | record (title : String)
  | tag
  | body
  | nothing
deriving DecidableEq, Repr

/-- Why a tree does not have a form. -/
inductive Mismatch where
  | wrongType (found : Found) (expected : Expected)
  | notASize (value : Int)
  | notASingleKey
  | unknownTag (tag : String) (known : List String)
  | missingKey (key : String)
  | tooShort (length : Nat) (title : String) (parts : Nat)
  | tooLong (length : Nat)
deriving DecidableEq

/-- What a tree is when it is not what was expected. -/
def Json.found : Json → Found
  | .null => .null
  | .bool b => .bool b
  | .num n => .num n
  | .str s => .str s
  | .arr _ => .list
  | .obj _ => .object

/-- Lower-case hexadecimal digits of a character code. -/
def codeDigits (c : Char) : List Char := Nat.toDigits 16 c.toNat

/-- A character of a quotation in a message.  Control characters of ASCII are
shown by an escape; every character beyond ASCII is shown as it is. -/
def shownChar (c : Char) : List Char :=
  if c = '"' then ['\\', '"']
  else if c = '\\' then ['\\', '\\']
  else if c = '\t' then ['\\', 't']
  else if c = '\n' then ['\\', 'n']
  else if c = '\r' then ['\\', 'r']
  else if c = '\x00' then ['\\', '0']
  else if c.toNat < 0x20 ∨ c.toNat = 0x7f then
    ['\\', 'u', '\x7b'] ++ codeDigits c ++ ['\x7d']
  else [c]

/-- A quotation in a message. -/
def shownText (s : String) : String :=
  "\"" ++ String.ofList (s.toList.flatMap shownChar) ++ "\""

/-- A word set off in a message. -/
def marked (word : String) : String := "`" ++ word ++ "`"

/-- What was found, in words. -/
def Found.message : Found → String
  | null => "null"
  | bool b => "boolean " ++ marked (if b then "true" else "false")
  | num (.integer n) => "integer " ++ marked (toString n.val)
  | num (.double x) => "floating point " ++ marked x.text
  | str s => "string " ++ shownText s
  | list => "sequence"
  | object => "map"
  | bareTag => "unit variant"

/-- What was expected, in words. -/
def Expected.message : Expected → String
  | text => "a string"
  | size => "u32"
  | number => "f64"
  | flag => "a boolean"
  | list => "a sequence"
  | object => "a map"
  | record title => "struct " ++ title
  | tag => "string or map"
  | body => "newtype variant"
  | nothing => "unit"

/-- The known tags, in words. -/
def knownTags : List String → String
  | [] => "there are no variants"
  | [a] => "expected " ++ marked a
  | [a, b] => "expected " ++ marked a ++ " or " ++ marked b
  | tags => "expected one of " ++ ", ".intercalate (tags.map marked)

/-- The mismatch in words. -/
def Mismatch.message : Mismatch → String
  | wrongType found expected =>
    "invalid type: " ++ found.message ++ ", expected " ++ expected.message
  | notASize n => "invalid value: integer " ++ marked (toString n) ++ ", expected u32"
  | notASingleKey => "invalid value: map, expected map with a single key"
  | unknownTag tag known => "unknown variant " ++ marked tag ++ ", " ++ knownTags known
  | missingKey key => "missing field " ++ marked key
  | tooShort length title parts =>
    "invalid length " ++ toString length ++ ", expected struct " ++ title ++ " with " ++
      toString parts ++ " elements"
  | tooLong length => "invalid length " ++ toString length ++ ", expected fewer elements in array"

end ResourceSchema
