/-
# Quoted text

Between the quotes a character stands for itself, unless it is a control
character, which is refused, or a backslash, which starts an escape.  A `\u`
escape gives the code of a character in four hexadecimal digits; characters
beyond the first 65536 are written as a pair of such escapes, a leading and a
trailing surrogate, and a surrogate that is not part of a pair is refused.
-/

import ResourceSchema.Json.Fault

namespace ResourceSchema

/-- The value of a hexadecimal digit of either case. -/
def hexDigit? (c : Char) : Option Nat :=
  if '0' ≤ c ∧ c ≤ '9' then some (c.toNat - '0'.toNat)
  else if 'a' ≤ c ∧ c ≤ 'f' then some (c.toNat - 'a'.toNat + 10)
  else if 'A' ≤ c ∧ c ≤ 'F' then some (c.toNat - 'A'.toNat + 10)
  else none

/-- The value of four hexadecimal digits. -/
def hexValue? : List Char → Option Nat
  | [a, b, c, d] => do
    return 4096 * (← hexDigit? a) + 256 * (← hexDigit? b) + 16 * (← hexDigit? c) + (← hexDigit? d)
  | _ => none

/-- Codes that announce a second escape. -/
def isLeadingSurrogate (code : Nat) : Bool := 0xD800 ≤ code ∧ code ≤ 0xDBFF

/-- Codes that only follow a leading surrogate. -/
def isTrailingSurrogate (code : Nat) : Bool := 0xDC00 ≤ code ∧ code ≤ 0xDFFF

/-- The character that a pair of surrogates stands for. -/
def pairedChar (leading trailing : Nat) : Char :=
  Char.ofNat ((leading - 0xD800) * 1024 + (trailing - 0xDC00) + 0x10000)

/-- Four hexadecimal digits.  Fewer than four bytes are an unfinished text, and
four bytes of anything else are an invalid escape. -/
def readHex (text : List Char) : Except Stop (Nat × List Char) :=
  if byteCount (text.take 4) < 4 then .error (.atEnd .endInString)
  else match hexValue? (text.take 4) with
    | some code => .ok (code, text.drop 4)
    | none => .error ⟨.invalidEscape, text, 4⟩

/-- The second escape of a pair. -/
def readTrailing (leading : Nat) : List Char → Except Stop (Char × List Char)
  | [] => .error (.atEnd .endInString)
  | ['\\'] => .error (.atEnd .endInString)
  | '\\' :: 'u' :: text => do
    let (trailing, rest) ← readHex text
    if isTrailingSurrogate trailing then .ok (pairedChar leading trailing, rest)
    else .error (.here .loneSurrogate rest)
  | '\\' :: text => .error (.next .unfinishedSurrogatePair text)
  | text => .error (.next .unfinishedSurrogatePair text)

/-- What follows a `\u`. -/
def readUnicode (text : List Char) : Except Stop (Char × List Char) := do
  let (code, rest) ← readHex text
  if isTrailingSurrogate code then .error (.here .loneSurrogate rest)
  else if isLeadingSurrogate code then readTrailing code rest
  else .ok (Char.ofNat code, rest)

/-- The character that a letter after a backslash stands for. -/
def shortEscape? : Char → Option Char
  | '"' => some '"'
  | '\\' => some '\\'
  | '/' => some '/'
  | 'b' => some '\x08'
  | 'f' => some '\x0c'
  | 'n' => some '\n'
  | 'r' => some '\r'
  | 't' => some '\t'
  | _ => none

/-- What follows a backslash. -/
def readEscape : List Char → Except Stop (Char × List Char)
  | [] => .error (.atEnd .endInString)
  | 'u' :: text => readUnicode text
  | c :: text =>
    match shortEscape? c with
    | some d => .ok (d, text)
    | none => .error (.next .invalidEscape (c :: text))

/-- Four hexadecimal digits leave less than they were given. -/
theorem readHex_rest {text : List Char} {code : Nat} {rest : List Char}
    (h : readHex text = .ok (code, rest)) : rest.length < text.length := by
  unfold readHex at h
  split at h
  · simp at h
  · split at h
    · rename_i hv
      injection h with h
      injection h with _ h
      subst h
      have : text ≠ [] := by rintro rfl; simp [hexValue?] at hv
      have := List.length_pos_iff.2 this
      simp only [List.length_drop]
      omega
    · simp at h

/-- The second half of a surrogate pair leaves less than it was given. -/
theorem readTrailing_rest {leading : Nat} {text : List Char} {c : Char} {rest : List Char}
    (h : readTrailing leading text = .ok (c, rest)) : rest.length < text.length := by
  unfold readTrailing at h
  split at h
  · simp at h
  · simp at h
  · rename_i text
    cases hx : readHex text with
    | error e => simp [hx, bind, Except.bind] at h
    | ok r =>
      simp only [hx, bind, Except.bind] at h
      split at h
      · injection h with h
        injection h with _ h
        have := readHex_rest hx
        subst h
        simp only [List.length_cons]
        omega
      · simp at h
  · simp at h
  · simp at h

/-- A Unicode escape takes at least one character. -/
theorem readUnicode_rest {text : List Char} {c : Char} {rest : List Char}
    (h : readUnicode text = .ok (c, rest)) : rest.length < text.length := by
  unfold readUnicode at h
  cases hx : readHex text with
  | error e => simp [hx, bind, Except.bind] at h
  | ok r =>
    simp only [hx, bind, Except.bind] at h
    have hr := readHex_rest hx
    split at h
    · simp at h
    · split at h
      · have := readTrailing_rest h
        omega
      · injection h with h
        injection h with _ h
        exact h ▸ hr

/-- An escape takes at least one character. -/
theorem readEscape_rest {text : List Char} {c : Char} {rest : List Char}
    (h : readEscape text = .ok (c, rest)) : rest.length < text.length := by
  unfold readEscape at h
  split at h
  · simp at h
  · have := readUnicode_rest h
    simp only [List.length_cons]
    omega
  · split at h
    · injection h with h
      injection h with _ h
      subst h
      simp
    · simp at h

/-- The characters up to the closing quote, after those in `done`, which are in
reverse order. -/
def readQuoted (done : List Char) : List Char → Except Stop (String × List Char)
  | [] => .error (.atEnd .endInString)
  | '"' :: rest => .ok (String.ofList done.reverse, rest)
  | '\\' :: text =>
    match h : readEscape text with
    | .ok (c, rest) =>
      have := readEscape_rest h
      readQuoted (c :: done) rest
    | .error stop => .error stop
  | c :: rest =>
    if c.toNat < 0x20 then .error (.next .controlCharacter (c :: rest))
    else readQuoted (c :: done) rest
termination_by text => text.length

/-- **A quoted text takes at least its closing quote,** so reading on from behind it ends. -/
theorem readQuoted_rest {done text : List Char} {s : String} {rest : List Char}
    (h : readQuoted done text = .ok (s, rest)) : rest.length < text.length := by
  fun_induction readQuoted done text with
  | case1 => simp at h
  | case2 => simp_all
  | case3 done text c rest' hx hlt ih =>
    have := ih h
    have := readEscape_rest hx
    simp only [List.length_cons]
    omega
  | case4 => simp at h
  | case5 => simp at h
  | case6 done c rest' _ _ _ ih =>
    have := ih h
    simp only [List.length_cons]
    omega

end ResourceSchema
