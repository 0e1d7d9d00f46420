/-
# Where and why a text is not JSON

A reader that stops reports a `Stop`: what is wrong, the text it had not read
yet, and whether the first byte of that text is part of the complaint.  The
offset of the stop is counted in UTF-8 bytes, so a complaint may end inside a
character.  A line ends with its line feed: `Position.ofOffset` counts the line
feeds before the offset, and the bytes since the last of them.
-/

namespace ResourceSchema

/-- What can be wrong with a text that should be JSON. -/
inductive Fault where
  | endInList
  | endInObject
  | endInValue
  | endInString
  | expectedValue
  | expectedLiteral
  | expectedColon
  | expectedListCommaOrEnd
  | expectedObjectCommaOrEnd
  | keyNotString
  | trailingComma
  | trailingCharacters
  | tooDeep
  | invalidNumber
  | numberOutOfRange
  | invalidEscape
  | loneSurrogate
  | unfinishedSurrogatePair
  | controlCharacter
deriving DecidableEq, Repr

/-- The wording of a fault. -/
def Fault.message : Fault → String
  | endInList => "EOF while parsing a list"
  | endInObject => "EOF while parsing an object"
  | endInValue => "EOF while parsing a value"
  | endInString => "EOF while parsing a string"
  | expectedValue => "expected value"
  | expectedLiteral => "expected ident"
  | expectedColon => "expected `:`"
  | expectedListCommaOrEnd => "expected `,` or `]`"
  | expectedObjectCommaOrEnd => "expected `,` or `\x7d`"
  | keyNotString => "key must be a string"
  | trailingComma => "trailing comma"
  | trailingCharacters => "trailing characters"
  | tooDeep => "recursion limit exceeded"
  | invalidNumber => "invalid number"
  | numberOutOfRange => "number out of range"
  | invalidEscape => "invalid escape"
  | loneSurrogate => "lone leading surrogate in hex escape"
  | unfinishedSurrogatePair => "unexpected end of hex escape"
  | controlCharacter => "control character (\\u0000-\\u001F) found while parsing a string"

-- The zero of the sum is that of the core library, also where Mathlib brings its own.
attribute [local instance (high)] Zero.ofOfNat0

/-- The number of bytes of a text. -/
def byteCount (text : List Char) : Nat :=
  (text.map Char.utf8Size).sum

/-- A reader's complaint: the text it had not read, and the bytes of it that
belong to the complaint. -/
structure Stop where
  fault : Fault
  rest : List Char
  bytes : Nat
deriving DecidableEq

namespace Stop

/-- A complaint about what was read. -/
def here (fault : Fault) (rest : List Char) : Stop := ⟨fault, rest, 0⟩

/-- A complaint about the next byte. -/
def next (fault : Fault) (rest : List Char) : Stop := ⟨fault, rest, 1⟩

/-- A complaint at the end of the text. -/
def atEnd (fault : Fault) : Stop := ⟨fault, [], 0⟩

/-- The bytes of `text` before the end of the complaint. -/
def offset (stop : Stop) (text : List Char) : Nat :=
  byteCount text - byteCount stop.rest + stop.bytes

end Stop

/-- A line, from one, and the bytes of it that were read. -/
structure Position where
  line : Nat
  column : Nat
deriving DecidableEq, Repr

/-- One byte further for each of the first `offset` bytes of a text. -/
def Position.advance (p : Position) : List Char → Nat → Position
  | [], _ => p
  | c :: rest, offset =>
    if offset = 0 then p
    else if c = '\n' then Position.advance ⟨p.line + 1, 0⟩ rest (offset - 1)
    else Position.advance ⟨p.line, p.column + min offset c.utf8Size⟩ rest (offset - c.utf8Size)

/-- The position after the first `offset` bytes of a text. -/
def Position.ofOffset (text : List Char) (offset : Nat) : Position :=
  Position.advance ⟨1, 0⟩ text offset

/-- A fault and its position in the text. -/
structure SyntaxError where
  fault : Fault
  position : Position
deriving DecidableEq

/-- Where a reader's complaint lies in the whole text. -/
def Stop.locate (stop : Stop) (text : List Char) : SyntaxError :=
  ⟨stop.fault, Position.ofOffset text (stop.offset text)⟩

/-- The fault and its position, in words. -/
def SyntaxError.message (e : SyntaxError) : String :=
  e.fault.message ++ " at line " ++ toString e.position.line ++
    " column " ++ toString e.position.column

end ResourceSchema
