/-
# The grammar of JSON texts

Which texts spell which trees, production by production, and without any account
of how a text is read.

| part | spelling |
| --- | --- |
| `null`, `true`, `false` | the word (`Simple`) |
| a number | a literal that has it for its value (`IsLiteral`, `Denotes`) |
| a text | its characters between quotes, each in any of its spellings (`Letter`) |
| a list | its items between brackets, with commas between them (`Listed`) |
| an object | its members between braces, in any order, a key given again counting for the last time (`Arranged`) |

Blanks may stand around every value, key, comma and colon.  `Spells depth` allows
lists and objects inside each other up to `depth` levels, those that a repeated
key hides included.

A literal without fraction and exponent that fits 64 bits is an integer, except
`-0`; every other one is the double nearest to it, and one beyond the range of
doubles has no value.
-/

import ResourceSchema.Json.Literal
import ResourceSchema.Proofs.Double.Nearest

namespace ResourceSchema

namespace Grammar

/-- Spaces, tabs, line feeds and carriage returns. -/
def Blanks (text : List Char) : Prop := ∀ c ∈ text, c ∈ [' ', '\t', '\n', '\r']

/-! ### Texts between quotes -/

/-- A hexadecimal digit of either case. -/
def IsHexDigit (c : Char) (value : Nat) : Prop :=
  value < 16 ∧ (c = Nat.digitChar value ∨ c = (Nat.digitChar value).toUpper)

instance (c : Char) (value : Nat) : Decidable (IsHexDigit c value) :=
  inferInstanceAs (Decidable (_ ∧ _))

/-- Four hexadecimal digits. -/
inductive HexCode : List Char → Nat → Prop
  | digits {a b c d : Char} {w x y z : Nat} (ha : IsHexDigit a w) (hb : IsHexDigit b x)
      (hc : IsHexDigit c y) (hd : IsHexDigit d z) :
      HexCode [a, b, c, d] (4096 * w + 256 * x + 16 * y + z)

/-- The letters that may follow a backslash, and what they stand for. -/
def shortEscapes : List (Char × Char) :=
  [('"', '"'), ('\\', '\\'), ('/', '/'), ('b', '\x08'), ('f', '\x0c'), ('n', '\n'), ('r', '\r'),
    ('t', '\t')]

/-- The spellings of one character between quotes. -/
inductive Letter : List Char → Char → Prop
  | plain {c : Char} (hquote : c ≠ '"') (hslash : c ≠ '\\') (hcontrol : 0x20 ≤ c.toNat) :
      Letter [c] c
  | short {e c : Char} (h : (e, c) ∈ shortEscapes) : Letter ['\\', e] c
  | code {digits : List Char} {c : Char} (h : HexCode digits c.toNat) :
      Letter ('\\' :: 'u' :: digits) c
  | pair {leading trailing : List Char} {c : Char} (hc : 0x10000 ≤ c.toNat)
      (hl : HexCode leading (0xD800 + (c.toNat - 0x10000) / 0x400))
      (ht : HexCode trailing (0xDC00 + (c.toNat - 0x10000) % 0x400)) :
      Letter ('\\' :: 'u' :: leading ++ '\\' :: 'u' :: trailing) c

/-- The spellings of several characters between quotes. -/
inductive Letters : List Char → List Char → Prop
  | nil : Letters [] []
  | cons {text rest : List Char} {c : Char} {cs : List Char} (h : Letter text c)
      (hr : Letters rest cs) : Letters (text ++ rest) (c :: cs)

/-- The spellings of a text. -/
inductive Quoted : List Char → String → Prop
  | letters {text : List Char} {s : String} (h : Letters text s.toList) :
      Quoted ('"' :: text ++ ['"']) s

/-! ### Numbers -/

/-- Digits from zero to nine. -/
def Digits (text : List Char) : Prop := ∀ c ∈ text, c.isDigit = true

/-- A whole part has no superfluous zero in front. -/
inductive IsWhole : List Char → Prop
  | zero : IsWhole ['0']
  | digits {c : Char} {cs : List Char} (hc : c.isDigit = true) (hzero : c ≠ '0') (h : Digits cs) :
      IsWhole (c :: cs)

/-- A fraction is left out or has digits after its point. -/
inductive IsFraction : List Char → List Char → Prop
  | absent : IsFraction [] []
  | digits {cs : List Char} (hne : cs ≠ []) (h : Digits cs) : IsFraction ('.' :: cs) cs

/-- An exponent is left out or has digits, with or without a sign. -/
inductive IsExponent : List Char → Option (Bool × List Char) → Prop
  | absent : IsExponent [] none
  | unsigned {e : Char} {cs : List Char} (he : e = 'e' ∨ e = 'E') (hne : cs ≠ []) (h : Digits cs) :
      IsExponent (e :: cs) (some (false, cs))
  | plus {e : Char} {cs : List Char} (he : e = 'e' ∨ e = 'E') (hne : cs ≠ []) (h : Digits cs) :
      IsExponent (e :: '+' :: cs) (some (false, cs))
  | minus {e : Char} {cs : List Char} (he : e = 'e' ∨ e = 'E') (hne : cs ≠ []) (h : Digits cs) :
      IsExponent (e :: '-' :: cs) (some (true, cs))

/-- A minus sign, if there is one. -/
inductive IsSign : List Char → Bool → Prop
  | absent : IsSign [] false
  | minus : IsSign ['-'] true

/-- A literal, part by part. -/
inductive IsLiteral : List Char → Literal → Prop
  | parts {sign whole point power fraction : List Char} {negative : Bool}
      {exponent : Option (Bool × List Char)} (hs : IsSign sign negative) (hw : IsWhole whole)
      (hf : IsFraction point fraction) (he : IsExponent power exponent) :
      IsLiteral (sign ++ whole ++ point ++ power) ⟨negative, whole, fraction, exponent⟩

/-- The power of ten that an exponent asks for. -/
def exponentValue : Option (Bool × List Char) → ℤ
  | none => 0
  | some (true, digits) => -(digitsValue digits : ℤ)
  | some (false, digits) => digitsValue digits

/-- The magnitude of a literal. -/
def modulus (l : Literal) : ℚ :=
  (digitsValue l.whole + digitsValue l.fraction / 10 ^ l.fraction.length) *
    10 ^ exponentValue l.exponent

/-- A literal without fraction and exponent is an integer, if it fits 64 bits and
is not `-0`. -/
def IsInteger (l : Literal) (n : Word) : Prop :=
  l.fraction = [] ∧ l.exponent = none ∧
    ((l.negative = false ∧ n.val = digitsValue l.whole) ∨
      (l.negative = true ∧ n.val = -(digitsValue l.whole : ℤ) ∧ n.val ≠ 0))

/-- The value of a literal. -/
inductive Denotes (l : Literal) : Number → Prop
  | integer {n : Word} (h : IsInteger l n) : Denotes l (.integer n)
  | double {x : Double} (h : ∀ n, ¬ IsInteger l n) (hrange : Double.InRange (modulus l))
      (hnear : Double.IsNearest (modulus l) x) (hsign : x.negative = l.negative) :
      Denotes l (.double x)

/-! ### Values -/

/-- Values without parts. -/
inductive Simple : List Char → Json → Prop
  | null : Simple ['n', 'u', 'l', 'l'] .null
  | yes : Simple ['t', 'r', 'u', 'e'] (.bool true)
  | no : Simple ['f', 'a', 'l', 's', 'e'] (.bool false)
  | num {text : List Char} {l : Literal} {n : Number} (hl : IsLiteral text l) (hn : Denotes l n) :
      Simple text (.num n)
  | str {text : List Char} {s : String} (h : Quoted text s) : Simple text (.str s)

section Parts

variable {α : Type} (Core : List Char → α → Prop) (Inner : List Char → Json → Prop)

/-- Blanks around what stands in between. -/
inductive Padded : List Char → α → Prop
  | blanks {before core after : List Char} {a : α} (hb : Blanks before) (h : Core core a)
      (ha : Blanks after) : Padded (before ++ core ++ after) a

/-- One entry or several, with commas between them. -/
inductive Series : List Char → List α → Prop
  | one {text : List Char} {a : α} (h : Padded Core text a) : Series text [a]
  | cons {text rest : List Char} {a : α} {as : List α} (h : Padded Core text a)
      (hr : Series rest as) : Series (text ++ ',' :: rest) (a :: as)

/-- Entries with commas between them, or only blanks. -/
inductive Listed : List Char → List α → Prop
  | none {text : List Char} (h : Blanks text) : Listed text []
  | some {text : List Char} {as : List α} (h : Series Core text as) : Listed text as

/-- A member: a key and a value with a colon between them. -/
inductive Member : List Char → String × Json → Prop
  | pair {name after before text : List Char} {key : String} {v : Json} (hk : Quoted name key)
      (ha : Blanks after) (hb : Blanks before) (h : Inner text v) :
      Member (name ++ after ++ ':' :: before ++ text) (key, v)

/-- Members in key order, of which each key has the value it is given last. -/
def Arranged (given members : List (String × Json)) : Prop :=
  Json.InKeyOrder members ∧ ∀ key, Json.lookup key members = Json.lookup key given.reverse

/-- Lists and objects with such values in them. -/
inductive Composite : List Char → Json → Prop
  | list {inside : List Char} {items : List Json} (h : Listed Inner inside items) :
      Composite ('[' :: inside ++ [']']) (.arr items)
  | object {inside : List Char} {given members : List (String × Json)}
      (h : Listed (Member Inner) inside given) (ha : Arranged given members) :
      Composite ('\x7b' :: inside ++ ['\x7d']) (.obj members)

end Parts

/-- The spellings of a tree with lists and objects nested at most `depth`
deep. -/
def Spells : Nat → List Char → Json → Prop
  | 0, text, v => Simple text v
  | depth + 1, text, v => Simple text v ∨ Composite (Spells depth) text v

/-- The texts of a tree, nested at most 127 deep. -/
def Renders (text : String) (v : Json) : Prop := Padded (Spells 127) text.toList v

end Grammar

end ResourceSchema
