/-
# Quoted texts are read by their grammar

The reader of quoted texts accepts exactly the spellings of the grammar, and what
it gives back is the text they spell (`readQuoted_eq_ok_iff`).  A quoted text ends
at the first quote that is not part of a letter, so nothing has to be known of
what follows it, and each reader of a part is described by one equivalence, from
a hexadecimal digit up to the whole text.
-/

import Mathlib.Tactic.IntervalCases
import ResourceSchema.Json.Quoted
import ResourceSchema.Proofs.Json.Grammar

namespace ResourceSchema

open Grammar

/-! ### Hexadecimal digits -/

/-- A hexadecimal digit has the value the grammar gives it. -/
theorem hexDigit?_eq_some_iff {c : Char} {value : Nat} :
    hexDigit? c = some value ↔ IsHexDigit c value := by
  constructor
  · intro h
    have hclass : '0' ≤ c ∧ c ≤ '9' ∨ 'a' ≤ c ∧ c ≤ 'f' ∨ 'A' ≤ c ∧ c ≤ 'F' := by
      unfold hexDigit? at h
      split at h
      · left
        assumption
      · split at h
        · right
          left
          assumption
        · split at h
          · right
            right
            assumption
          · cases h
    simp only [Char.le_def, UInt32.le_iff_toNat_le, Char.toNat_val] at hclass
    change 48 ≤ c.toNat ∧ c.toNat ≤ 57 ∨ 97 ≤ c.toNat ∧ c.toNat ≤ 102 ∨
      65 ≤ c.toNat ∧ c.toNat ≤ 70 at hclass
    obtain ⟨n, hn⟩ : ∃ n, c.toNat = n := ⟨_, rfl⟩
    obtain rfl : c = Char.ofNat n := by rw [← hn, Char.ofNat_toNat]
    rw [hn] at hclass
    clear hn
    rcases hclass with ⟨hlow, hhigh⟩ | ⟨hlow, hhigh⟩ | ⟨hlow, hhigh⟩
    all_goals interval_cases n <;> cases h <;> exact ⟨by decide, by decide⟩
  · rintro ⟨hlt, h⟩
    interval_cases value <;> rcases h with rfl | rfl <;> decide

/-- A hexadecimal digit is one byte. -/
theorem Grammar.IsHexDigit.utf8Size_eq {c : Char} {value : Nat} (h : IsHexDigit c value) :
    c.utf8Size = 1 := by
  obtain ⟨hlt, h⟩ := h
  interval_cases value <;> rcases h with rfl | rfl <;> decide

/-- Four digits have the value the grammar gives them. -/
theorem hexValue?_eq_some_iff {digits : List Char} {n : Nat} :
    hexValue? digits = some n ↔ HexCode digits n := by
  constructor
  · intro h
    unfold hexValue? at h
    split at h
    · rename_i a b c d
      simp only [Option.bind_eq_bind, Option.bind_eq_some_iff, pure, Option.some.injEq] at h
      obtain ⟨w, ha, x, hb, y, hc, z, hd, rfl⟩ := h
      exact .digits (hexDigit?_eq_some_iff.1 ha) (hexDigit?_eq_some_iff.1 hb)
        (hexDigit?_eq_some_iff.1 hc) (hexDigit?_eq_some_iff.1 hd)
    · cases h
  · rintro ⟨ha, hb, hc, hd⟩
    rw [hexValue?, hexDigit?_eq_some_iff.2 ha, hexDigit?_eq_some_iff.2 hb,
      hexDigit?_eq_some_iff.2 hc, hexDigit?_eq_some_iff.2 hd]
    rfl

/-- Four digits make a number of 16 bits. -/
theorem Grammar.HexCode.lt {digits : List Char} {n : Nat} (h : HexCode digits n) : n < 0x10000 := by
  obtain ⟨⟨hw, -⟩, ⟨hx, -⟩, ⟨hy, -⟩, ⟨hz, -⟩⟩ := h
  omega

/-- Four digits are four bytes. -/
theorem Grammar.HexCode.byteCount_eq {digits : List Char} {n : Nat} (h : HexCode digits n) :
    byteCount digits = 4 := by
  obtain ⟨ha, hb, hc, hd⟩ := h
  simp only [byteCount, List.map_cons, List.map_nil, List.sum_cons, List.sum_nil, ha.utf8Size_eq,
    hb.utf8Size_eq, hc.utf8Size_eq, hd.utf8Size_eq, Nat.reduceAdd]

/-- Four digits are four characters. -/
theorem Grammar.HexCode.length_eq {digits : List Char} {n : Nat} (h : HexCode digits n) :
    digits.length = 4 := by
  cases h
  rfl

/-- **Four digits are read as the grammar says.** -/
theorem readHex_eq_ok_iff {text rest : List Char} {n : Nat} :
    readHex text = .ok (n, rest) ↔ ∃ digits, text = digits ++ rest ∧ HexCode digits n := by
  constructor
  · intro h
    unfold readHex at h
    split at h
    · cases h
    · split at h
      · rename_i hv
        cases h
        exact ⟨_, (List.take_append_drop 4 text).symm, hexValue?_eq_some_iff.1 hv⟩
      · cases h
  · rintro ⟨digits, rfl, h⟩
    have htake : (digits ++ rest).take 4 = digits := List.take_left' h.length_eq
    have hdrop : (digits ++ rest).drop 4 = rest := List.drop_left' h.length_eq
    rw [readHex, htake, hdrop, h.byteCount_eq, if_neg (by omega), hexValue?_eq_some_iff.2 h]

/-! ### Escapes -/

/-- The escapes of one character are those of the grammar. -/
theorem shortEscape?_eq_some_iff {e c : Char} :
    shortEscape? e = some c ↔ (e, c) ∈ shortEscapes := by
  constructor
  · intro h
    unfold shortEscape? at h
    split at h <;> cases h <;> decide
  · intro h
    simp only [shortEscapes, List.mem_cons, Prod.mk.injEq, List.not_mem_nil, or_false] at h
    rcases h with ⟨rfl, rfl⟩ | ⟨rfl, rfl⟩ | ⟨rfl, rfl⟩ | ⟨rfl, rfl⟩ | ⟨rfl, rfl⟩ | ⟨rfl, rfl⟩ |
      ⟨rfl, rfl⟩ | ⟨rfl, rfl⟩ <;> rfl

/-- The second half of a pair is an escape of four digits that make a trailing surrogate. -/
theorem readTrailing_eq_ok_iff {leading : Nat} {text rest : List Char} {c : Char} :
    readTrailing leading text = .ok (c, rest) ↔ ∃ digits trailing,
      text = '\\' :: 'u' :: digits ++ rest ∧ HexCode digits trailing ∧
        isTrailingSurrogate trailing = true ∧ pairedChar leading trailing = c := by
  constructor
  · intro h
    unfold readTrailing at h
    split at h
    · cases h
    · cases h
    · rename_i text
      rcases hx : readHex text with e | ⟨trailing, after⟩
      · simp [hx, bind, Except.bind] at h
      · simp only [hx, bind, Except.bind] at h
        split at h
        · rename_i ht
          simp only [Except.ok.injEq, Prod.mk.injEq] at h
          obtain ⟨hc, rfl⟩ := h
          obtain ⟨digits, rfl, hd⟩ := readHex_eq_ok_iff.1 hx
          exact ⟨digits, trailing, rfl, hd, ht, hc⟩
        · cases h
    · cases h
    · cases h
  · rintro ⟨digits, trailing, rfl, hd, ht, rfl⟩
    have hx := (@readHex_eq_ok_iff _ rest _).2 ⟨digits, rfl, hd⟩
    rw [List.cons_append, List.cons_append, readTrailing, hx]
    simp only [bind, Except.bind, ht, if_true]

/-- No character has the code of a surrogate. -/
theorem not_surrogate (c : Char) :
    isTrailingSurrogate c.toNat = false ∧ isLeadingSurrogate c.toNat = false := by
  have hvalid : c.toNat < 0xD800 ∨ 0xDFFF < c.toNat ∧ c.toNat < 0x110000 := c.valid
  simp only [isTrailingSurrogate, isLeadingSurrogate, decide_eq_false_iff_not]
  omega

/-- A number that is no surrogate and is small enough is the number of a character. -/
theorem toNat_ofNat {n : Nat} (h : n < 0xD800 ∨ 0xDFFF < n ∧ n < 0x110000) :
    (Char.ofNat n).toNat = n := by
  rw [Char.ofNat, dif_pos h]
  rfl

/-- Two surrogates make a character exactly if they are the two that the grammar splits it
into. -/
theorem pairedChar_eq_iff {leading trailing : Nat} {c : Char}
    (hl : isLeadingSurrogate leading = true) (ht : isTrailingSurrogate trailing = true) :
    pairedChar leading trailing = c ↔ 0x10000 ≤ c.toNat ∧
      leading = 0xD800 + (c.toNat - 0x10000) / 0x400 ∧
      trailing = 0xDC00 + (c.toNat - 0x10000) % 0x400 := by
  simp only [isLeadingSurrogate, isTrailingSurrogate, decide_eq_true_eq] at hl ht
  constructor
  · rintro rfl
    rw [pairedChar, toNat_ofNat (by omega)]
    omega
  · rintro ⟨hc, hleading, htrailing⟩
    have hcode : (leading - 0xD800) * 1024 + (trailing - 0xDC00) + 0x10000 = c.toNat := by omega
    rw [pairedChar, hcode, Char.ofNat_toNat]

/-- What follows a `\u` is a spelling of the character that is read. -/
theorem exists_letter_of_readUnicode {text rest : List Char} {c : Char}
    (h : readUnicode text = .ok (c, rest)) :
    ∃ used, text = used ++ rest ∧ Letter ('\\' :: 'u' :: used) c := by
  unfold readUnicode at h
  rcases hx : readHex text with e | ⟨code, after⟩
  · simp [hx, bind, Except.bind] at h
  · obtain ⟨digits, rfl, hd⟩ := readHex_eq_ok_iff.1 hx
    simp only [hx, bind, Except.bind] at h
    split at h
    · cases h
    · rename_i htrailing
      split at h
      · rename_i hleading
        obtain ⟨low, trailing, rfl, hlow, ht, hc⟩ := readTrailing_eq_ok_iff.1 h
        obtain ⟨hbeyond, hl, ht⟩ := (pairedChar_eq_iff hleading ht).1 hc
        rw [hl] at hd
        rw [ht] at hlow
        exact ⟨digits ++ '\\' :: 'u' :: low, by simp, .pair hbeyond hd hlow⟩
      · rename_i hleading
        simp only [Except.ok.injEq, Prod.mk.injEq] at h
        obtain ⟨rfl, rfl⟩ := h
        have hlt := hd.lt
        simp only [isTrailingSurrogate, isLeadingSurrogate, decide_eq_true_eq] at htrailing hleading
        refine ⟨digits, rfl, .code ?_⟩
        rwa [toNat_ofNat (by omega)]

/-- The number of a character is read as that character. -/
theorem readUnicode_code {digits rest : List Char} {c : Char} (h : HexCode digits c.toNat) :
    readUnicode (digits ++ rest) = .ok (c, rest) := by
  obtain ⟨htrailing, hleading⟩ := not_surrogate c
  rw [readUnicode, readHex_eq_ok_iff.2 ⟨digits, rfl, h⟩]
  simp only [bind, Except.bind, htrailing, hleading, Bool.false_eq_true, if_false,
    Char.ofNat_toNat]

/-- A pair of surrogates is read as its character. -/
theorem readUnicode_pair {high low rest : List Char} {c : Char} {leading trailing : Nat}
    (hc : 0x10000 ≤ c.toNat) (hl : HexCode high leading) (ht : HexCode low trailing)
    (hleading : leading = 0xD800 + (c.toNat - 0x10000) / 0x400)
    (htrailing : trailing = 0xDC00 + (c.toNat - 0x10000) % 0x400) :
    readUnicode (high ++ '\\' :: 'u' :: low ++ rest) = .ok (c, rest) := by
  have hvalid : c.toNat < 0xD800 ∨ 0xDFFF < c.toNat ∧ c.toNat < 0x110000 := c.valid
  have hfirst : isLeadingSurrogate leading = true := by
    simp only [isLeadingSurrogate, decide_eq_true_eq]
    omega
  have hother : isTrailingSurrogate leading = false := by
    simp only [isTrailingSurrogate, decide_eq_false_iff_not]
    omega
  have hsecond : isTrailingSurrogate trailing = true := by
    simp only [isTrailingSurrogate, decide_eq_true_eq]
    omega
  have hpair := (pairedChar_eq_iff hfirst hsecond).2 ⟨hc, hleading, htrailing⟩
  rw [List.append_assoc, readUnicode, readHex_eq_ok_iff.2 ⟨high, rfl, hl⟩]
  simp only [bind, Except.bind, hother, hfirst, Bool.false_eq_true, if_false, if_true]
  exact readTrailing_eq_ok_iff.2 ⟨low, trailing, rfl, ht, hsecond, hpair⟩

/-- **A Unicode escape is read as the grammar says.** -/
theorem readUnicode_eq_ok_iff {text rest : List Char} {c : Char} :
    readUnicode text = .ok (c, rest) ↔
      ∃ used, text = used ++ rest ∧ Letter ('\\' :: 'u' :: used) c := by
  constructor
  · exact exists_letter_of_readUnicode
  · rintro ⟨used, rfl, h⟩
    generalize htext : '\\' :: 'u' :: used = text at h
    cases h with
    | plain => cases htext
    | short h =>
      cases htext
      exact absurd h (by simp [shortEscapes])
    | code h =>
      cases htext
      exact readUnicode_code h
    | @pair high low _ hc hl ht =>
      obtain rfl : used = high ++ '\\' :: 'u' :: low := by simpa using htext
      exact readUnicode_pair hc hl ht rfl rfl

/-- **An escape is read as the grammar says.** -/
theorem readEscape_eq_ok_iff {text rest : List Char} {c : Char} :
    readEscape text = .ok (c, rest) ↔ ∃ used, text = used ++ rest ∧ Letter ('\\' :: used) c := by
  constructor
  · intro h
    unfold readEscape at h
    split at h
    · cases h
    · obtain ⟨used, rfl, hletter⟩ := readUnicode_eq_ok_iff.1 h
      exact ⟨'u' :: used, rfl, hletter⟩
    · rename_i e text _
      split at h
      · rename_i hshort
        cases h
        exact ⟨[e], rfl, .short (shortEscape?_eq_some_iff.1 hshort)⟩
      · cases h
  · rintro ⟨used, rfl, h⟩
    generalize htext : '\\' :: used = text at h
    cases h with
    | plain _ hslash =>
      cases htext
      exact absurd rfl hslash
    | @short e _ h =>
      cases htext
      have hne : e ≠ 'u' := by
        rintro rfl
        simp [shortEscapes] at h
      rw [List.singleton_append, readEscape.eq_3 _ _ hne, shortEscape?_eq_some_iff.2 h]
    | code h =>
      cases htext
      exact readUnicode_eq_ok_iff.2 ⟨_, rfl, .code h⟩
    | pair hc hl ht =>
      cases htext
      exact readUnicode_eq_ok_iff.2 ⟨_, rfl, .pair hc hl ht⟩

/-! ### Whole texts -/

/-- A quote ends a text. -/
theorem readQuoted_quote {done rest : List Char} :
    readQuoted done ('"' :: rest) = .ok (String.ofList done.reverse, rest) := by
  rw [readQuoted]

/-- **One letter is read at a time.** -/
theorem readQuoted_letter {done text rest : List Char} {c : Char} (h : Letter text c) :
    readQuoted done (text ++ rest) = readQuoted (c :: done) rest := by
  have hescape : ∀ used, Letter ('\\' :: used) c →
      readQuoted done ('\\' :: used ++ rest) = readQuoted (c :: done) rest := by
    intro used h
    have hread := readEscape_eq_ok_iff.2 ⟨used, (rfl : used ++ rest = _), h⟩
    rw [List.cons_append, readQuoted]
    split
    · rename_i hx
      rw [hread] at hx
      cases hx
      rfl
    · rename_i hx
      rw [hread] at hx
      cases hx
  cases h with
  | plain hquote hslash hcontrol =>
    rw [List.singleton_append, readQuoted, if_neg (by omega)]
    · exact hquote
    · exact hslash
  | short h => exact hescape _ (.short h)
  | code h => exact hescape _ (.code h)
  | pair hc hl ht => exact hescape _ (.pair hc hl ht)

/-- **Quoted texts are read by their grammar.**  What is read is added to what was
read before. -/
theorem readQuoted_eq_ok_iff {done text rest : List Char} {s : String} :
    readQuoted done text = .ok (s, rest) ↔ ∃ letters cs,
      text = letters ++ '"' :: rest ∧ Letters letters cs ∧
        s = String.ofList (done.reverse ++ cs) := by
  constructor
  · intro h
    fun_induction readQuoted done text with
    | case1 => cases h
    | case2 =>
      cases h
      exact ⟨[], [], rfl, .nil, by rw [List.append_nil]⟩
    | case3 done text c after hx _ ih =>
      obtain ⟨letters, cs, rfl, hletters, rfl⟩ := ih h
      obtain ⟨used, rfl, hletter⟩ := readEscape_eq_ok_iff.1 hx
      exact ⟨_, _, by simp, .cons hletter hletters, by simp⟩
    | case4 => cases h
    | case5 => cases h
    | case6 done c after hquote hslash hcontrol ih =>
      obtain ⟨letters, cs, rfl, hletters, rfl⟩ := ih h
      have hletter : Letter [c] c := .plain hquote hslash (not_lt.1 hcontrol)
      exact ⟨_, _, by simp, .cons hletter hletters, by simp⟩
  · rintro ⟨letters, cs, rfl, h, rfl⟩
    induction h generalizing done with
    | nil => rw [List.nil_append, readQuoted_quote, List.append_nil]
    | cons hletter _ ih =>
      rw [List.append_assoc, readQuoted_letter hletter, ih, List.reverse_cons, List.append_assoc,
        List.singleton_append]

/-- After its opening quote a quoted text of the grammar is read as what it
spells, and only such a text is read. -/
theorem readQuoted_nil_eq_ok_iff {text rest : List Char} {s : String} :
    readQuoted [] text = .ok (s, rest) ↔
      ∃ quoted, '"' :: text = quoted ++ rest ∧ Quoted quoted s := by
  rw [readQuoted_eq_ok_iff]
  constructor
  · rintro ⟨letters, cs, rfl, h, rfl⟩
    exact ⟨'"' :: letters ++ ['"'], by simp, .letters (by simpa using h)⟩
  · rintro ⟨_, htext, ⟨h⟩⟩
    simp only [List.cons_append, List.append_assoc, List.nil_append, List.cons.injEq,
      true_and] at htext
    exact ⟨_, _, htext, h, by simp⟩

/-- Ordinary characters spell themselves. -/
theorem Grammar.letters_self {cs : List Char}
    (h : ∀ c ∈ cs, c ≠ '"' ∧ c ≠ '\\' ∧ 0x20 ≤ c.toNat) : Letters cs cs := by
  induction cs with
  | nil => exact .nil
  | cons c cs ih =>
    obtain ⟨hquote, hslash, hcontrol⟩ := h c List.mem_cons_self
    exact .cons (.plain hquote hslash hcontrol) (ih fun d hd => h d (List.mem_cons_of_mem _ hd))

end ResourceSchema
