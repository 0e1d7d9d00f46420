/-
# The strict JSON reader

`Json.parse` reads exactly one JSON value with blanks around it: no comments,
no trailing commas, no second spelling of a literal.  Lists and objects may be
nested 127 deep.  A reader of a part is given the text from there on and gives
back what follows the part, together with the fact that it is shorter.

The first fault met in reading order is the one reported, so a text has at most
one complaint, and its position depends on nothing that follows it.
-/

import ResourceSchema.Json.Literal
import ResourceSchema.Json.Quoted

namespace ResourceSchema

/-- The blanks between tokens: space, tab, line feed and carriage return. -/
def isBlank (c : Char) : Bool := c = ' ' ∨ c = '\t' ∨ c = '\n' ∨ c = '\r'

/-- A text without the blanks in front. -/
def skipBlanks (text : List Char) : List Char := text.dropWhile isBlank

/-- Behind the blanks no more is left than there was. -/
theorem skipBlanks_length_le (text : List Char) : (skipBlanks text).length ≤ text.length :=
  (List.dropWhile_sublist _).length_le

/-- Behind the character that follows the blanks less is left than there was. -/
theorem length_lt_of_skipBlanks {text rest : List Char} {c : Char}
    (h : skipBlanks text = c :: rest) : rest.length < text.length := by
  have := skipBlanks_length_le text
  simp only [h, List.length_cons] at this
  omega

/-- What a reader found at the start of `text`, and the shorter text after it. -/
structure Taken (α : Type) (text : List Char) where
  value : α
  rest : List Char
  shorter : rest.length < text.length

namespace Json

/-- A reader of a part of a text. -/
abbrev Reader (α : Type) : Type :=
  (text : List Char) → Except Stop (Taken α text)

/-- The letters of a literal name, each in its turn. -/
def readName : List Char → List Char → Except Stop (List Char)
  | [], text => .ok text
  | _ :: _, [] => .error (.atEnd .endInValue)
  | e :: expected, c :: text =>
    if c = e then readName expected text else .error (.next .expectedLiteral (c :: text))

/-- A name leaves no more than it was given. -/
theorem readName_rest {expected text rest : List Char} (h : readName expected text = .ok rest) :
    rest.length ≤ text.length := by
  fun_induction readName expected text with
  | case1 => simp_all
  | case2 => simp at h
  | case3 _ text _ ih =>
    have := ih h
    simp only [List.length_cons]
    omega
  | case4 => simp at h

/-- The items of a list after those in `done`, which are in reverse order: the
text starts where a comma or the closing bracket is due. -/
def readItems (item : Reader Json) (done : List Json) (text : List Char) :
    Except Stop (Taken (List Json) text) :=
  match h : skipBlanks text with
  | [] => .error (.atEnd .endInList)
  | ']' :: rest => .ok ⟨done.reverse, rest, length_lt_of_skipBlanks h⟩
  | ',' :: rest =>
    have hrest := length_lt_of_skipBlanks h
    match h' : skipBlanks rest with
    | [] => .error (.atEnd .endInValue)
    | ']' :: after => .error (.next .trailingComma (']' :: after))
    | c :: after => do
      let next ← item (c :: after)
      have hnext : next.rest.length < text.length := by
        have := next.shorter
        have := skipBlanks_length_le rest
        rw [h'] at this
        omega
      let all ← readItems item (next.value :: done) next.rest
      return ⟨all.value, all.rest, Nat.lt_trans all.shorter hnext⟩
  | c :: rest => .error (.next .expectedListCommaOrEnd (c :: rest))
termination_by text.length

/-- A list after its opening bracket. -/
def readList (item : Reader Json) (text : List Char) : Except Stop (Taken (List Json) text) :=
  match h : skipBlanks text with
  | [] => .error (.atEnd .endInList)
  | ']' :: rest => .ok ⟨[], rest, length_lt_of_skipBlanks h⟩
  | c :: rest => do
    let first ← item (c :: rest)
    have hfirst : first.rest.length < text.length := by
      have := first.shorter
      have := skipBlanks_length_le text
      rw [h] at this
      omega
    let all ← readItems item [first.value] first.rest
    return ⟨all.value, all.rest, Nat.lt_trans all.shorter hfirst⟩

/-- A member of an object after the opening quote of its key. -/
def readMember (value : Reader Json) (text : List Char) :
    Except Stop (Taken (String × Json) text) :=
  match h : readQuoted [] text with
  | .error stop => .error stop
  | .ok (key, afterKey) =>
    have hkey := readQuoted_rest h
    match h' : skipBlanks afterKey with
    | [] => .error (.atEnd .endInObject)
    | ':' :: rest => do
      let v ← value rest
      have hrest := length_lt_of_skipBlanks h'
      return ⟨(key, v.value), v.rest, by have := v.shorter; omega⟩
    | c :: rest => .error (.next .expectedColon (c :: rest))

/-- The members of an object after those in `done`, which are in reverse order:
the text starts where a comma or the closing brace is due. -/
def readMembers (value : Reader Json) (done : List (String × Json)) (text : List Char) :
    Except Stop (Taken (List (String × Json)) text) :=
  match h : skipBlanks text with
  | [] => .error (.atEnd .endInObject)
  | '\x7d' :: rest => .ok ⟨done.reverse, rest, length_lt_of_skipBlanks h⟩
  | ',' :: rest =>
    have hrest := length_lt_of_skipBlanks h
    match h' : skipBlanks rest with
    | [] => .error (.atEnd .endInValue)
    | '"' :: key => do
      let next ← readMember value key
      have hnext : next.rest.length < text.length := by
        have := next.shorter
        have := length_lt_of_skipBlanks h'
        omega
      let all ← readMembers value (next.value :: done) next.rest
      return ⟨all.value, all.rest, Nat.lt_trans all.shorter hnext⟩
    | '\x7d' :: after => .error (.next .trailingComma ('\x7d' :: after))
    | c :: after => .error (.next .keyNotString (c :: after))
  | c :: rest => .error (.next .expectedObjectCommaOrEnd (c :: rest))
termination_by text.length

/-- An object after its opening brace. -/
def readObject (value : Reader Json) (text : List Char) :
    Except Stop (Taken (List (String × Json)) text) :=
  match h : skipBlanks text with
  | [] => .error (.atEnd .endInObject)
  | '\x7d' :: rest => .ok ⟨[], rest, length_lt_of_skipBlanks h⟩
  | '"' :: key => do
    let first ← readMember value key
    have hfirst : first.rest.length < text.length := by
      have := first.shorter
      have := length_lt_of_skipBlanks h
      omega
    let all ← readMembers value [first.value] first.rest
    return ⟨all.value, all.rest, Nat.lt_trans all.shorter hfirst⟩
  | c :: rest => .error (.next .keyNotString (c :: rest))

/-- The literal name `c :: name`, read up to `c`. -/
def readLiteralName (text : List Char) (name : List Char) (meaning : Json) (rest : List Char)
    (hrest : rest.length < text.length) : Except Stop (Taken Json text) :=
  match h : readName name rest with
  | .ok after => .ok ⟨meaning, after, Nat.lt_of_le_of_lt (readName_rest h) hrest⟩
  | .error stop => .error stop

/-- A value in which lists and objects are nested at most `depth` deep. -/
def readValue (depth : Nat) (text : List Char) : Except Stop (Taken Json text) :=
  match h : skipBlanks text with
  | [] => .error (.atEnd .endInValue)
  | c :: rest =>
    have hrest := length_lt_of_skipBlanks h
    if c = 'n' then readLiteralName text ['u', 'l', 'l'] .null rest hrest
    else if c = 't' then readLiteralName text ['r', 'u', 'e'] (.bool true) rest hrest
    else if c = 'f' then readLiteralName text ['a', 'l', 's', 'e'] (.bool false) rest hrest
    else if c = '-' ∨ c.isDigit then
      match hn : readNumber (c :: rest) with
      | .ok (n, after) =>
        .ok ⟨.num n, after, by
          have := readNumber_rest hn
          simp only [List.length_cons] at this
          omega⟩
      | .error stop => .error stop
    else if c = '"' then
      match hq : readQuoted [] rest with
      | .ok (s, after) => .ok ⟨.str s, after, Nat.lt_trans (readQuoted_rest hq) hrest⟩
      | .error stop => .error stop
    else if c = '[' then
      match depth with
      | 0 => .error (.next .tooDeep (c :: rest))
      | inner + 1 => do
        let items ← readList (readValue inner) rest
        return ⟨.arr items.value, items.rest, Nat.lt_trans items.shorter hrest⟩
    else if c = '\x7b' then
      match depth with
      | 0 => .error (.next .tooDeep (c :: rest))
      | inner + 1 => do
        let members ← readObject (readValue inner) rest
        return ⟨object members.value, members.rest, Nat.lt_trans members.shorter hrest⟩
    else .error (.next .expectedValue (c :: rest))

/-- How deep lists and objects may be nested. -/
def maxDepth : Nat := 127

/-- A whole text: one value with blanks around it. -/
def readDocument (text : List Char) : Except Stop Json := do
  let document ← readValue maxDepth text
  match skipBlanks document.rest with
  | [] => return document.value
  | c :: rest => .error (.next .trailingCharacters (c :: rest))

/-- The tree that a text spells. -/
def parse (text : String) : Except SyntaxError Json :=
  (readDocument text.toList).mapError fun stop => stop.locate text.toList

end Json

end ResourceSchema
