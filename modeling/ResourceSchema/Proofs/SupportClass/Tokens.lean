/-
# The words of a Java class

A text is read character by character: every character takes the reader from one
state to the next and may complete a token (`Reader`).  The tokens are keywords,
names, decimal integers, string literals and single marks.  What the classes written
here do without is refused rather than read in part: comments, character literals,
text blocks, annotations, escapes of any kind, integers in another base or above
`2³¹ - 1`, and fractions.

Every character leaves the reader in one state, so a text is read piece by piece
(`Reader.Reads.append`).  A word that may be the name of something, a number as it is
written in decimal and a text that needs no escapes are read back as what they are
(`reads_word`, `reads_decimal`, `reads_plain`).
-/

import Mathlib.Algebra.Group.Nat.Defs
import ResourceSchema.SupportClass.Basic

namespace ResourceSchema

/-! ### Readers -/

/-- A reader takes one item at a time.  It may give something out and goes on in
another state, or it refuses the item. -/
structure Reader (σ α β : Type) where
  step : σ → α → Option (List β × σ)

namespace Reader

variable {σ α β γ : Type}

/-- What a reader gives out over a list, and the state in which it ends. -/
def run (r : Reader σ α β) : σ → List α → Option (List β × σ)
  | s, [] => some ([], s)
  | s, a :: as => do
    let (out, s') ← r.step s a
    let (outs, s'') ← r.run s' as
    return (out ++ outs, s'')

/-- From one state a list is read up to another, and that much is given out. -/
def Reads (r : Reader σ α β) (s : σ) (as : List α) (out : List β) (s' : σ) : Prop :=
  r.run s as = some (out, s')

instance [DecidableEq σ] [DecidableEq β] (r : Reader σ α β) (s : σ) (as : List α) (out : List β)
    (s' : σ) : Decidable (r.Reads s as out s') :=
  inferInstanceAs (Decidable (r.run s as = some (out, s')))

variable {r : Reader σ α β} {s s' s'' : σ} {a : α} {as as' : List α} {out out' : List β}

/-- Nothing is read as nothing. -/
theorem Reads.nil : r.Reads s [] [] s := rfl

/-- Reading goes on from the state after the first item. -/
theorem reads_cons_iff : r.Reads s (a :: as) out s' ↔
    ∃ first mid rest, r.step s a = some (first, mid) ∧ r.Reads mid as rest s' ∧
      first ++ rest = out := by
  simp only [Reads, run]
  constructor
  · intro h
    obtain ⟨⟨first, mid⟩, hstep, h⟩ := Option.bind_eq_some_iff.1 h
    obtain ⟨⟨rest, last⟩, hrest, h⟩ := Option.bind_eq_some_iff.1 h
    obtain ⟨hout, rfl⟩ := Prod.mk.inj (Option.some.inj h)
    exact ⟨first, mid, rest, hstep, hrest, hout⟩
  · rintro ⟨first, mid, rest, hstep, hrest, rfl⟩
    exact Option.bind_eq_some_iff.2 ⟨(first, mid), hstep,
      Option.bind_eq_some_iff.2 ⟨(rest, s'), hrest, rfl⟩⟩

/-- One step, and reading on from there. -/
theorem Reads.cons (h : r.step s a = some (out, s')) (hrest : r.Reads s' as out' s'') :
    r.Reads s (a :: as) (out ++ out') s'' :=
  reads_cons_iff.2 ⟨out, s', out', h, hrest, rfl⟩

/-- A single step is a reading. -/
theorem reads_singleton (h : r.step s a = some (out, s')) : r.Reads s [a] out s' :=
  reads_cons_iff.2 ⟨out, s', [], h, .nil, List.append_nil out⟩

/-- **A list is read piece by piece.** -/
theorem Reads.append (h : r.Reads s as out s') (h' : r.Reads s' as' out' s'') :
    r.Reads s (as ++ as') (out ++ out') s'' := by
  induction as generalizing s out with
  | nil =>
    obtain ⟨rfl, rfl⟩ := Prod.mk.inj (Option.some.inj h)
    exact h'
  | cons a as ih =>
    obtain ⟨first, mid, rest, hstep, hrest, rfl⟩ := reads_cons_iff.1 h
    rw [List.cons_append, List.append_assoc]
    exact .cons hstep (ih hrest)

/-- Pieces that each end where they begin are read one after another. -/
theorem Reads.flatMap {cs : List γ} {f : γ → List α} {g : γ → List β}
    (h : ∀ c ∈ cs, r.Reads s (f c) (g c) s) : r.Reads s (cs.flatMap f) (cs.flatMap g) s := by
  induction cs with
  | nil => exact .nil
  | cons c cs ih =>
    rw [List.flatMap_cons, List.flatMap_cons]
    exact (h c List.mem_cons_self).append (ih fun d hd => h d (List.mem_cons_of_mem c hd))

/-- Items that are only kept are kept in their order. -/
theorem Reads.keep {kept : List α → σ} {front : List α}
    (h : ∀ a ∈ as, ∀ front, r.step (kept front) a = some ([], kept (front ++ [a]))) :
    r.Reads (kept front) as [] (kept (front ++ as)) := by
  induction as generalizing front with
  | nil =>
    rw [List.append_nil]
    exact .nil
  | cons a as ih =>
    rw [List.append_cons]
    exact .cons (h a List.mem_cons_self front) (ih fun b hb => h b (List.mem_cons_of_mem a hb))

end Reader

/-! ### Tokens -/

/-- A token of a Java text. -/
inductive Token where
  | keyword (word : String)
  | name (word : String)
  | number (value : Nat)
  | text (content : String)
  | mark (c : Char)
deriving DecidableEq, Repr

/-- The words that are no names. -/
def keywords : List String :=
  ["_", "abstract", "assert", "boolean", "break", "byte", "case", "catch", "char", "class",
   "const", "continue", "default", "do", "double", "else", "enum", "extends", "false", "final",
   "finally", "float", "for", "goto", "if", "implements", "import", "instanceof", "int",
   "interface", "long", "native", "new", "null", "package", "private", "protected", "public",
   "return", "short", "static", "strictfp", "super", "switch", "synchronized", "this", "throw",
   "throws", "transient", "true", "try", "void", "volatile", "while"]

/-- The marks that are tokens of their own. -/
def marks : List Char := ['(', ')', '\x7b', '\x7d', '<', '>', '=', ':', ';', ',', '.', '+']

/-- Whether a character can stand in a word. -/
def inWord (c : Char) : Bool := c.isAlphanum || c = '_' || c = '$'

/-- Whether a character can start a word. -/
def startsWord (c : Char) : Bool := inWord c && !c.isDigit

/-- Whether a character stands for itself in a string literal. -/
def isPlain (c : Char) : Bool := c ≠ '"' && c ≠ '\\' && c ≠ '\n' && c ≠ '\r'

namespace Token

/-- The token of a word. -/
def ofWord (word : String) : Token := if word ∈ keywords then .keyword word else .name word

/-- The token of digits that are an integer in decimal. -/
def ofDigits? (digits : List Char) : Option Token :=
  let value := Nat.ofDigitChars 10 digits 0
  if digits = Nat.toDigits 10 value ∧ value < 2 ^ 31 then some (.number value) else none

/-- What has been read of the token under way; after a token or a blank, the last
character. -/
inductive Front where
  | after (last : Char)
  | word (front : List Char)
  | number (front : List Char)
  | text (front : List Char)
deriving DecidableEq, Repr

/-- Whether a character at once after another makes a different token with it: a
third quotation mark starts a text block, and a digit after a point a fraction. -/
def joins (last c : Char) : Bool := last = '"' && c = '"' || last = '.' && c.isDigit

/-- What a character starts. -/
def start? (c : Char) : Option (List Token × Front) :=
  if c = ' ' ∨ c = '\n' then some ([], .after c)
  else if startsWord c then some ([], .word [c])
  else if c.isDigit then some ([], .number [c])
  else if c = '"' then some ([], .text [])
  else if c ∈ marks then some ([.mark c], .after c)
  else none

/-- A token is complete, and the character starts what comes next. -/
def endsBefore (token : Token) (c : Char) : Option (List Token × Front) :=
  (start? c).map fun (out, s) => (token :: out, s)

/-- The reader of tokens. -/
def reader : Reader Front Char Token where
  step
    | .after last, c => if joins last c then none else start? c
    | .word front, c =>
      if inWord c then some ([], .word (front ++ [c]))
      else endsBefore (ofWord (String.ofList front)) c
    | .number front, c =>
      if c.isDigit then some ([], .number (front ++ [c]))
      else if inWord c ∨ c = '.' then none
      else (ofDigits? front).bind fun token => endsBefore token c
    | .text front, c =>
      if c = '"' then some ([.text (String.ofList front)], .after c)
      else if isPlain c then some ([], .text (front ++ [c]))
      else none

/-- The tokens of a text. -/
def ofText? (text : String) : Option (List Token) :=
  match reader.run (.after '\n') text.toList with
  | some (tokens, .after _) => some tokens
  | _ => none

end Token

/-- A word that may be the name of something. -/
structure IsName (word : String) : Prop where
  startsWord : word.toList.head?.any startsWord
  inWord : word.toList.all inWord
  not_keyword : word ∉ keywords

instance (word : String) : Decidable (IsName word) :=
  decidable_of_iff (word.toList.head?.any startsWord ∧ word.toList.all inWord ∧ word ∉ keywords)
    ⟨fun ⟨h, h', h''⟩ => ⟨h, h', h''⟩, fun ⟨h, h', h''⟩ => ⟨h, h', h''⟩⟩

/-! ### Reading what is written -/

namespace Token

variable {word content : String} {n : Nat} {c : Char} {out : List Token} {s : Front}

/-- A name is no keyword, and so the token of its word is a name. -/
theorem ofWord_of_isName (h : IsName word) : ofWord word = .name word := if_neg h.not_keyword

/-- The digits of a number of 31 bits are read as that number. -/
theorem ofDigits?_toDigits (h : n < 2 ^ 31) :
    ofDigits? (Nat.toDigits 10 n) = some (.number n) := by
  unfold ofDigits?
  dsimp only
  rw [Nat.ofDigitChars_ten_toDigits, if_pos ⟨rfl, h⟩]

/-- A letter starts a word. -/
theorem start?_of_startsWord (h : startsWord c = true) : start? c = some ([], .word [c]) := by
  have hblank : ¬ (c = ' ' ∨ c = '\n') := by
    rintro (rfl | rfl) <;> exact absurd h (by decide)
  rw [start?, if_neg hblank, if_pos h]

/-- A digit starts a number. -/
theorem start?_of_isDigit (h : c.isDigit = true) : start? c = some ([], .number [c]) := by
  have hblank : ¬ (c = ' ' ∨ c = '\n') := by
    rintro (rfl | rfl) <;> exact absurd h (by decide)
  have hword : ¬ startsWord c = true := by
    rw [startsWord, h, Bool.not_true, Bool.and_false]
    exact Bool.false_ne_true
  rw [start?, if_neg hblank, if_neg hword, if_pos h]

/-- A token ends before a character that starts another. -/
theorem endsBefore_eq (token : Token) (h : start? c = some (out, s)) :
    endsBefore token c = some (token :: out, s) := by
  rw [endsBefore, h, Option.map_some]

/-- **A name is read as itself,** before a character that starts something else. -/
theorem reads_name (h : IsName word) (hc : inWord c = false) (hstart : start? c = some (out, s)) :
    reader.Reads (.after ' ') (word.toList ++ [c]) (.name word :: out) s := by
  have hlast : reader.step (.word word.toList) c = some (.name word :: out, s) := by
    show (if inWord c then _ else endsBefore (ofWord (String.ofList word.toList)) c) = _
    rw [hc, if_neg Bool.false_ne_true, String.ofList_toList, ofWord_of_isName h,
      endsBefore_eq _ hstart]
  have hinside := List.all_eq_true.1 h.inWord
  have hfirst := h.startsWord
  generalize word.toList = letters at hlast hinside hfirst ⊢
  rcases letters with _ | ⟨d, ds⟩
  · cases hfirst
  · have hd : reader.step (.after ' ') d = _ := start?_of_startsWord hfirst
    have hds : reader.Reads (.word [d]) ds [] (.word ([d] ++ ds)) :=
      .keep fun e he front => if_pos (hinside e (List.mem_cons_of_mem d he))
    exact (Reader.Reads.cons hd hds).append (Reader.reads_singleton hlast)

/-- **A number in decimal is read as that number.** -/
theorem reads_number (h : n < 2 ^ 31) (hc : inWord c = false) (hpoint : c ≠ '.')
    (hstart : start? c = some (out, s)) :
    reader.Reads (.after ' ') ((toString n).toList ++ [c]) (.number n :: out) s := by
  rw [Nat.toString_eq_repr, Nat.toList_repr]
  have hdigit : c.isDigit = false := by
    simp only [inWord, Char.isAlphanum, Bool.or_eq_false_iff] at hc
    exact hc.1.1.2
  have hlast : reader.step (.number (Nat.toDigits 10 n)) c = some (.number n :: out, s) := by
    show (if c.isDigit then some ([], Front.number (Nat.toDigits 10 n ++ [c]))
      else if inWord c ∨ c = '.' then none
      else (ofDigits? (Nat.toDigits 10 n)).bind fun token => endsBefore token c) = _
    rw [hdigit, if_neg Bool.false_ne_true, if_neg (by simp [hc, hpoint]), ofDigits?_toDigits h,
      Option.bind_some, endsBefore_eq _ hstart]
  have hdigits (d : Char) (hd : d ∈ Nat.toDigits 10 n) : d.isDigit = true :=
    Nat.isDigit_of_mem_toDigits (by omega) (by omega) hd
  have hne : Nat.toDigits 10 n ≠ [] := Nat.toDigits_ne_nil
  generalize Nat.toDigits 10 n = digits at hlast hdigits hne ⊢
  rcases digits with _ | ⟨d, ds⟩
  · cases hne rfl
  · have hd : reader.step (.after ' ') d = _ := start?_of_isDigit (hdigits d List.mem_cons_self)
    have hds : reader.Reads (.number [d]) ds [] (.number ([d] ++ ds)) :=
      .keep fun e he front => if_pos (hdigits e (List.mem_cons_of_mem d he))
    exact (Reader.Reads.cons hd hds).append (Reader.reads_singleton hlast)

/-- **A text that needs no escapes is read as itself** between quotation marks. -/
theorem reads_text (h : content.toList.all isPlain) :
    reader.Reads (.after ' ') ('"' :: (content.toList ++ ['"'])) [.text content] (.after '"') := by
  have hinside : reader.Reads (.text []) content.toList [] (.text ([] ++ content.toList)) := by
    refine .keep fun c hc front => ?_
    have hquote : c ≠ '"' := by
      rintro rfl
      exact absurd (List.all_eq_true.1 h _ hc) (by decide)
    show (if c = '"' then some ([Token.text (String.ofList front)], Front.after c)
      else if isPlain c then some ([], .text (front ++ [c])) else none) = _
    rw [if_neg hquote, if_pos (List.all_eq_true.1 h c hc)]
  have hclose : reader.step (.text content.toList) '"' = some ([.text content], .after '"') := by
    show some ([Token.text (String.ofList content.toList)], Front.after '"') = _
    rw [String.ofList_toList]
  have hopen : reader.step (.after ' ') '"' = some ([], .text []) := rfl
  exact .cons hopen (hinside.append (Reader.reads_singleton hclose))

/-- A literal is read; a text block is refused. -/
example : ofText? "case OK: return \"OK\";\n" =
      some [.keyword "case", .name "OK", .mark ':', .keyword "return", .text "OK", .mark ';'] ∧
    ofText? "case OK: return \"\"\"OK\"\"\";\n" = none := by
  decide +kernel

end Token

end ResourceSchema
