/-
# Number literals

A literal is an optional minus sign, a whole part without a superfluous zero in
front, an optional fraction, and an optional exponent.  `Literal.number?` is
its value.  Without fraction and exponent it is an integer, if it fits 64 bits:
unsigned without the sign, signed with it.  Everything else, `-0` included, is
the double nearest to it; a literal beyond the largest double has no value, and
one too small for any other double is a zero.
-/

import ResourceSchema.Json.Value
import ResourceSchema.Json.Fault

namespace ResourceSchema

-- Powers are those of the core library, also where Mathlib brings its own.
attribute [local instance (high)] instPowNat

/-- The parts of a number literal.  The parts are runs of digits. -/
structure Literal where
  negative : Bool
  whole : List Char
  fraction : List Char
  exponent : Option (Bool × List Char)
deriving DecidableEq

/-- The number a run of digits stands for. -/
def digitsValue (digits : List Char) : Nat :=
  digits.foldl (fun n c => 10 * n + (c.toNat - '0'.toNat)) 0

namespace Literal

/-- All digits before the exponent. -/
def significand (l : Literal) : Nat :=
  digitsValue (l.whole ++ l.fraction)

/-- The power of ten of the last digit. -/
def scale (l : Literal) : Int :=
  let shift : Int := match l.exponent with
    | none => 0
    | some (true, digits) => -(digitsValue digits)
    | some (false, digits) => digitsValue digits
  shift - l.fraction.length

/-- The integer that the literal spells, if it is one and fits 64 bits. -/
def integer? (l : Literal) : Option Word :=
  let n : Int := if l.negative then -l.significand else l.significand
  if l.fraction ≠ [] ∨ l.exponent.isSome ∨ (l.negative ∧ n = 0) then none
  else if h : FitsWord n then some ⟨n, h⟩
  else none

/-- The value of the literal, unless it is out of range. -/
def number? (l : Literal) : Option Number :=
  match l.integer? with
  | some n => some (.integer n)
  | none => (Double.ofDecimal? l.negative l.significand l.scale).map .double

/-- The number of digits of an exponent that are enough to see that it exceeds
the largest signed 32-bit integer. -/
def excessiveDigits? (digits : List Char) : Option Nat :=
  (List.range (digits.length + 1)).find? fun n => 2 ^ (31 : Nat) ≤ digitsValue (digits.take n)

/-- How much of the end of the literal is left unread when it is found to be
out of range: nothing, unless a positive exponent is excessive by itself. -/
def unreadWhenOutOfRange (l : Literal) : List Char :=
  match l.exponent with
  | some (false, digits) =>
    match excessiveDigits? digits with
    | some n => digits.drop n
    | none => []
  | _ => []

end Literal

/-- The digits at the start of a text. -/
def leadingDigits (text : List Char) : List Char := text.takeWhile Char.isDigit

/-- A text without the digits at its start. -/
def afterDigits (text : List Char) : List Char := text.dropWhile Char.isDigit

/-- Behind the digits no more is left than there was. -/
theorem afterDigits_length_le (text : List Char) : (afterDigits text).length ≤ text.length :=
  (List.dropWhile_sublist _).length_le

/-- The whole part of a literal: a single zero, or digits that do not start
with one. -/
def readWhole : List Char → Except Stop (List Char × List Char)
  | [] => .error (.atEnd .endInValue)
  | '0' :: rest =>
    if leadingDigits rest = [] then .ok (['0'], rest) else .error (.next .invalidNumber rest)
  | c :: rest =>
    if c.isDigit then .ok (c :: leadingDigits rest, afterDigits rest)
    else .error (.next .invalidNumber (c :: rest))

/-- The fraction of a literal, empty if there is no point. -/
def readFraction : List Char → Except Stop (List Char × List Char)
  | '.' :: rest =>
    if leadingDigits rest ≠ [] then .ok (leadingDigits rest, afterDigits rest)
    else if rest = [] then .error (.atEnd .endInValue)
    else .error (.next .invalidNumber rest)
  | text => .ok ([], text)

/-- The digits of an exponent, of which there must be one. -/
def readExponentDigits (negative : Bool) (text : List Char) :
    Except Stop (Option (Bool × List Char) × List Char) :=
  if leadingDigits text ≠ [] then .ok (some (negative, leadingDigits text), afterDigits text)
  else if text = [] then .error (.atEnd .endInValue)
  else .error (.next .invalidNumber text)

/-- The exponent of a literal, if there is one. -/
def readExponent : List Char → Except Stop (Option (Bool × List Char) × List Char)
  | c :: rest =>
    if c = 'e' ∨ c = 'E' then
      match rest with
      | '+' :: digits => readExponentDigits false digits
      | '-' :: digits => readExponentDigits true digits
      | digits => readExponentDigits false digits
    else .ok (none, c :: rest)
  | [] => .ok (none, [])

/-- A literal without its sign. -/
def readUnsigned (negative : Bool) (text : List Char) : Except Stop (Literal × List Char) := do
  let (whole, text) ← readWhole text
  let (fraction, text) ← readFraction text
  let (exponent, text) ← readExponent text
  return (⟨negative, whole, fraction, exponent⟩, text)

/-- A literal. -/
def readLiteral : List Char → Except Stop (Literal × List Char)
  | '-' :: rest => readUnsigned true rest
  | text => readUnsigned false text

/-- A number. -/
def readNumber (text : List Char) : Except Stop (Number × List Char) := do
  let (literal, rest) ← readLiteral text
  match literal.number? with
  | some n => return (n, rest)
  | none => .error (.here .numberOutOfRange (literal.unreadWhenOutOfRange ++ rest))

/-- A whole part takes at least one character. -/
theorem readWhole_rest {text digits rest : List Char} (h : readWhole text = .ok (digits, rest)) :
    rest.length < text.length := by
  unfold readWhole at h
  split at h
  · simp at h
  · split at h <;> simp_all
  · rename_i text _
    split at h
    · have := afterDigits_length_le text
      injection h with h
      injection h with _ h
      subst h
      simp only [List.length_cons]
      omega
    · simp at h

/-- A fraction leaves no more than it was given. -/
theorem readFraction_rest {text digits rest : List Char}
    (h : readFraction text = .ok (digits, rest)) : rest.length ≤ text.length := by
  unfold readFraction at h
  split at h
  · rename_i text
    have := afterDigits_length_le text
    split at h
    · injection h with h
      injection h with _ h
      subst h
      simp only [List.length_cons]
      omega
    · split at h <;> simp at h
  · simp_all

/-- The digits of an exponent leave no more than they were given. -/
theorem readExponentDigits_rest {negative : Bool} {text rest : List Char}
    {e : Option (Bool × List Char)} (h : readExponentDigits negative text = .ok (e, rest)) :
    rest.length ≤ text.length := by
  have := afterDigits_length_le text
  unfold readExponentDigits at h
  split at h
  · injection h with h
    injection h with _ h
    exact h ▸ this
  · split at h <;> simp at h

/-- An exponent leaves no more than it was given. -/
theorem readExponent_rest {text rest : List Char} {e : Option (Bool × List Char)}
    (h : readExponent text = .ok (e, rest)) : rest.length ≤ text.length := by
  unfold readExponent at h
  split at h
  · split at h
    · split at h
      all_goals
        have := readExponentDigits_rest h
        simp only [List.length_cons] at *
        omega
    · simp_all
  · simp_all

/-- A literal without its sign takes at least one character. -/
theorem readUnsigned_rest {negative : Bool} {text rest : List Char} {l : Literal}
    (h : readUnsigned negative text = .ok (l, rest)) : rest.length < text.length := by
  unfold readUnsigned at h
  cases hw : readWhole text with
  | error e => simp [hw, bind, Except.bind] at h
  | ok w =>
    cases hf : readFraction w.2 with
    | error e => simp [hw, hf, bind, Except.bind] at h
    | ok f =>
      cases he : readExponent f.2 with
      | error e => simp [hw, hf, he, bind, Except.bind] at h
      | ok e =>
        simp only [hw, hf, he, bind, Except.bind, pure, Except.pure, Except.ok.injEq,
          Prod.mk.injEq] at h
        have h₁ := readWhole_rest hw
        have h₂ := readFraction_rest hf
        have h₃ := readExponent_rest he
        rw [← h.2]
        omega

/-- A literal takes at least one character. -/
theorem readLiteral_rest {text rest : List Char} {l : Literal}
    (h : readLiteral text = .ok (l, rest)) : rest.length < text.length := by
  unfold readLiteral at h
  split at h
  · have := readUnsigned_rest h
    simp only [List.length_cons]
    omega
  · exact readUnsigned_rest h

/-- **A number takes at least one character,** so reading on from behind it ends. -/
theorem readNumber_rest {text rest : List Char} {n : Number}
    (h : readNumber text = .ok (n, rest)) : rest.length < text.length := by
  unfold readNumber at h
  cases hl : readLiteral text with
  | error e => simp [hl, bind, Except.bind] at h
  | ok l =>
    have := readLiteral_rest hl
    simp only [hl, bind, Except.bind] at h
    split at h
    · simp only [pure, Except.pure, Except.ok.injEq, Prod.mk.injEq] at h
      exact h.2 ▸ this
    · simp at h

end ResourceSchema
