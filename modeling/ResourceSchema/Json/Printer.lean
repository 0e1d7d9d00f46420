/-
# The written form of a tree

`Json.text` writes a tree on one line without blanks.  A text is quoted with
the escapes it needs and no others: the quote, the backslash and the control
characters.
-/

import ResourceSchema.Json.Value
import ResourceSchema.Double.Text

namespace ResourceSchema

/-- A digit of a hexadecimal number below 16. -/
def hexDigit (n : Nat) : Char :=
  if n < 10 then Char.ofNat (n + '0'.toNat) else Char.ofNat (n - 10 + 'a'.toNat)

/-- A character as it stands between quotes. -/
def quotedChar (c : Char) : List Char :=
  if c = '"' then ['\\', '"']
  else if c = '\\' then ['\\', '\\']
  else if c.toNat < 0x20 then
    ['\\', 'u', '0', '0', hexDigit (c.toNat / 16), hexDigit (c.toNat % 16)]
  else [c]

/-- A text between quotes. -/
def quoted (text : String) : String :=
  "\"" ++ String.ofList (text.toList.flatMap quotedChar) ++ "\""

/-- A number's text. -/
def Number.text : Number → String
  | .integer n => toString n.val
  | .double x => x.text

mutual
/-- A tree's text. -/
def Json.text : Json → String
  | .null => "null"
  | .bool true => "true"
  | .bool false => "false"
  | .num n => n.text
  | .str s => quoted s
  | .arr items => "[" ++ Json.itemsText items ++ "]"
  | .obj members => "\x7b" ++ Json.membersText members ++ "\x7d"
/-- Items with commas between them. -/
def Json.itemsText : List Json → String
  | [] => ""
  | [v] => v.text
  | v :: w :: rest => v.text ++ "," ++ Json.itemsText (w :: rest)
/-- Members with commas between them. -/
def Json.membersText : List (String × Json) → String
  | [] => ""
  | [(k, v)] => quoted k ++ ":" ++ v.text
  | (k, v) :: m :: rest => quoted k ++ ":" ++ v.text ++ "," ++ Json.membersText (m :: rest)
end

end ResourceSchema
