/-
# Numbers are read by their grammar

A literal is read up to its last part, so it is read as a whole only where what
follows could not belong to it (`Ends`).  There the reader of literals accepts
exactly the literals of the grammar (`exists_isLiteral_of_readLiteral`,
`readLiteral_of_isLiteral`), and their value is the one that the grammar gives
them (`Literal.number?_eq_some_iff`): all digits in front of the exponent,
shifted by the fraction and the exponent, are the whole part and the fraction
times a power of ten.
-/

import ResourceSchema.Proofs.Json.Grammar
import ResourceSchema.Proofs.Results

namespace ResourceSchema

open Grammar

/-! ### Runs of digits -/

/-- The text does not go on with a digit. -/
def NoDigit (text : List Char) : Prop := ∀ c, text.head? = some c → c.isDigit = false

/-- The text does not go on with anything that a literal could go on with. -/
def Ends (text : List Char) : Prop :=
  ∀ c, text.head? = some c → c.isDigit = false ∧ c ≠ '.' ∧ ¬ (c = 'e' ∨ c = 'E')

/-- Where a number ends no digit follows. -/
theorem Ends.noDigit {text : List Char} (h : Ends text) : NoDigit text := fun c hc => (h c hc).1

/-- The leading digits are all there are, if none follows. -/
theorem leadingDigits_append {digits rest : List Char} (h : Digits digits) (hr : NoDigit rest) :
    leadingDigits (digits ++ rest) = digits := by
  rw [leadingDigits, List.takeWhile_append_of_pos h]
  cases rest with
  | nil => simp
  | cons c rest => simp [hr c rfl]

/-- What follows the digits is what is behind them. -/
theorem afterDigits_append {digits rest : List Char} (h : Digits digits) (hr : NoDigit rest) :
    afterDigits (digits ++ rest) = rest := by
  rw [afterDigits, List.dropWhile_append_of_pos h]
  cases rest with
  | nil => rfl
  | cons c rest => simp [hr c rfl]

/-- Nothing is lost when the digits are taken off. -/
theorem leadingDigits_append_afterDigits (text : List Char) :
    leadingDigits text ++ afterDigits text = text := List.takeWhile_append_dropWhile

/-- The leading digits are digits. -/
theorem digits_leadingDigits (text : List Char) : Digits (leadingDigits text) :=
  List.all_eq_true.1 List.all_takeWhile

/-! ### The parts of a literal -/

/-- What is read as a whole part is one. -/
theorem isWhole_of_readWhole {text whole rest : List Char}
    (h : readWhole text = .ok (whole, rest)) : text = whole ++ rest ∧ IsWhole whole := by
  unfold readWhole at h
  split at h
  · cases h
  · split at h
    · cases h
      exact ⟨rfl, .zero⟩
    · cases h
  · rename_i c text hzero
    split at h
    · rename_i hdigit
      cases h
      refine ⟨by rw [List.cons_append, leadingDigits_append_afterDigits], ?_⟩
      exact .digits hdigit hzero (digits_leadingDigits text)
    · cases h

/-- A whole part is read, if no digit follows. -/
theorem readWhole_of_isWhole {whole rest : List Char} (h : IsWhole whole) (hr : NoDigit rest) :
    readWhole (whole ++ rest) = .ok (whole, rest) := by
  cases h with
  | zero =>
    have hnone : leadingDigits rest = [] := @leadingDigits_append [] rest nofun hr
    rw [List.singleton_append, readWhole, if_pos hnone]
  | digits hc hzero h =>
    rw [List.cons_append, readWhole, if_pos hc, leadingDigits_append h hr, afterDigits_append h hr]
    exact hzero

/-- What is read as a fraction is one. -/
theorem isFraction_of_readFraction {text fraction rest : List Char}
    (h : readFraction text = .ok (fraction, rest)) :
    ∃ point, text = point ++ rest ∧ IsFraction point fraction := by
  unfold readFraction at h
  split at h
  · rename_i text
    split at h
    · rename_i hne
      cases h
      refine ⟨'.' :: leadingDigits text, ?_, .digits hne (digits_leadingDigits text)⟩
      rw [List.cons_append, leadingDigits_append_afterDigits]
    · split at h <;> cases h
  · cases h
    exact ⟨[], rfl, .absent⟩

/-- A fraction is read, if neither a digit nor a point follows. -/
theorem readFraction_of_isFraction {point fraction rest : List Char} (h : IsFraction point fraction)
    (hr : NoDigit rest) (hpoint : rest.head? ≠ some '.') :
    readFraction (point ++ rest) = .ok (fraction, rest) := by
  cases h with
  | absent =>
    rw [List.nil_append, readFraction]
    rintro rest rfl
    exact hpoint rfl
  | digits hne h =>
    rw [List.cons_append, readFraction, leadingDigits_append h hr, afterDigits_append h hr,
      if_pos hne]

/-- The digits of an exponent are all that lead, and there is one at least. -/
theorem readExponentDigits_eq_ok_iff {negative : Bool} {text rest : List Char}
    {exponent : Option (Bool × List Char)} :
    readExponentDigits negative text = .ok (exponent, rest) ↔ leadingDigits text ≠ [] ∧
      exponent = some (negative, leadingDigits text) ∧ rest = afterDigits text := by
  rw [readExponentDigits]
  split
  · rename_i hne
    simp only [Except.ok.injEq, Prod.mk.injEq, ne_eq, hne, not_false_eq_true, true_and]
    exact and_congr eq_comm eq_comm
  · rename_i hne
    refine iff_of_false (fun h => ?_) fun h => hne h.1
    split at h <;> cases h

/-- What is read as an exponent is one. -/
theorem isExponent_of_readExponent {text rest : List Char} {exponent : Option (Bool × List Char)}
    (h : readExponent text = .ok (exponent, rest)) :
    ∃ power, text = power ++ rest ∧ IsExponent power exponent := by
  unfold readExponent at h
  split at h
  · rename_i c text
    split at h
    · rename_i hletter
      split at h
      · rename_i digits
        obtain ⟨hne, rfl, rfl⟩ := readExponentDigits_eq_ok_iff.1 h
        refine ⟨c :: '+' :: leadingDigits digits, ?_, .plus hletter hne (digits_leadingDigits _)⟩
        rw [List.cons_append, List.cons_append, leadingDigits_append_afterDigits]
      · rename_i digits
        obtain ⟨hne, rfl, rfl⟩ := readExponentDigits_eq_ok_iff.1 h
        refine ⟨c :: '-' :: leadingDigits digits, ?_, .minus hletter hne (digits_leadingDigits _)⟩
        rw [List.cons_append, List.cons_append, leadingDigits_append_afterDigits]
      · obtain ⟨hne, rfl, rfl⟩ := readExponentDigits_eq_ok_iff.1 h
        refine ⟨c :: leadingDigits text, ?_, .unsigned hletter hne (digits_leadingDigits _)⟩
        rw [List.cons_append, leadingDigits_append_afterDigits]
    · cases h
      exact ⟨[], rfl, .absent⟩
  · cases h
    exact ⟨[], rfl, .absent⟩

/-- An exponent is read, if the number ends behind it. -/
theorem readExponent_of_isExponent {power rest : List Char} {exponent : Option (Bool × List Char)}
    (h : IsExponent power exponent) (hr : Ends rest) :
    readExponent (power ++ rest) = .ok (exponent, rest) := by
  have hdigits : ∀ {negative : Bool} {cs : List Char}, cs ≠ [] → Digits cs →
      readExponentDigits negative (cs ++ rest) = .ok (some (negative, cs), rest) := by
    intro negative cs hne h
    rw [readExponentDigits_eq_ok_iff, leadingDigits_append h hr.noDigit,
      afterDigits_append h hr.noDigit]
    exact ⟨hne, rfl, rfl⟩
  cases h with
  | absent =>
    rw [List.nil_append]
    cases rest with
    | nil => rfl
    | cons c rest => exact if_neg (hr c rfl).2.2
  | plus he hne h | minus he hne h =>
    rw [List.cons_append, List.cons_append, readExponent, if_pos he, hdigits hne h]
  | @unsigned e cs he hne h =>
    -- The first digit is no sign.
    have hsign : ∀ {sign : Char} {tail : List Char}, cs ++ rest = sign :: tail →
        sign.isDigit = true := by
      intro sign tail heq
      obtain ⟨c, cs, rfl⟩ := List.exists_cons_of_ne_nil hne
      cases heq
      exact h _ List.mem_cons_self
    rw [List.cons_append, readExponent, if_pos he, hdigits hne h]
    · exact fun _ heq => absurd (hsign heq) (by decide)
    · exact fun _ heq => absurd (hsign heq) (by decide)

/-! ### Whole literals -/

/-- What is read behind a sign is a literal together with it. -/
theorem isLiteral_of_readUnsigned {negative : Bool} {sign text rest : List Char} {l : Literal}
    (hs : IsSign sign negative) (h : readUnsigned negative text = .ok (l, rest)) :
    ∃ used, sign ++ text = used ++ rest ∧ IsLiteral used l := by
  unfold readUnsigned at h
  obtain ⟨⟨whole, afterWhole⟩, hw, h⟩ := exists_of_bind_eq_ok h
  obtain ⟨⟨fraction, afterFraction⟩, hf, h⟩ := exists_of_bind_eq_ok h
  obtain ⟨⟨exponent, afterExponent⟩, he, h⟩ := exists_of_bind_eq_ok h
  cases h
  obtain ⟨rfl, whole⟩ := isWhole_of_readWhole hw
  obtain ⟨point, rfl, fraction⟩ := isFraction_of_readFraction hf
  obtain ⟨power, rfl, exponent⟩ := isExponent_of_readExponent he
  exact ⟨_, by simp only [List.append_assoc], .parts hs whole fraction exponent⟩

/-- **What is read as a literal is one.** -/
theorem exists_isLiteral_of_readLiteral {text rest : List Char} {l : Literal}
    (h : readLiteral text = .ok (l, rest)) : ∃ used, text = used ++ rest ∧ IsLiteral used l := by
  unfold readLiteral at h
  split at h
  · exact isLiteral_of_readUnsigned .minus h
  · exact isLiteral_of_readUnsigned .absent h

/-- After the whole part comes a point, an exponent or the end. -/
theorem noDigit_append {point power rest fraction : List Char}
    {exponent : Option (Bool × List Char)} (hf : IsFraction point fraction)
    (he : IsExponent power exponent) (hr : Ends rest) : NoDigit (point ++ (power ++ rest)) := by
  have hletter : ∀ {e : Char}, e = 'e' ∨ e = 'E' → e.isDigit = false := by
    rintro e (rfl | rfl) <;> rfl
  cases hf with
  | absent =>
    cases he with
    | absent => exact hr.noDigit
    | unsigned he | plus he | minus he =>
      rintro c ⟨⟩
      exact hletter he
  | digits =>
    rintro c ⟨⟩
    rfl

/-- **A literal is read,** if the number ends behind it. -/
theorem readLiteral_of_isLiteral {text rest : List Char} {l : Literal} (h : IsLiteral text l)
    (hr : Ends rest) : readLiteral (text ++ rest) = .ok (l, rest) := by
  obtain ⟨hs, hw, hf, he⟩ := h
  rename_i sign whole point power fraction negative exponent
  have hpoint : (power ++ rest).head? ≠ some '.' := by
    cases he with
    | absent => exact fun h => (hr _ h).2.1 rfl
    | unsigned he | plus he | minus he =>
      rcases he with rfl | rfl <;> exact nofun
  have hpower : NoDigit (power ++ rest) := noDigit_append .absent he hr
  have hnumber : readUnsigned negative (whole ++ (point ++ (power ++ rest))) =
      .ok (⟨negative, whole, fraction, exponent⟩, rest) := by
    rw [readUnsigned, readWhole_of_isWhole hw (noDigit_append hf he hr)]
    simp only [bind, Except.bind, readFraction_of_isFraction hf hpower hpoint,
      readExponent_of_isExponent he hr]
    rfl
  simp only [List.append_assoc]
  cases hs with
  | minus => exact hnumber
  | absent =>
    rw [List.nil_append, readLiteral]
    · exact hnumber
    · -- No whole part begins with a sign.
      intro tail heq
      cases hw with
      | zero => cases heq
      | digits hc =>
        cases heq
        cases hc

/-! ### The value of a literal -/

/-- The value of digits behind digits. -/
theorem digitsValue_append (front back : List Char) :
    digitsValue (front ++ back) = digitsValue front * 10 ^ back.length + digitsValue back := by
  have hfrom : ∀ (digits : List Char) (n : ℕ),
      digits.foldl (fun n c => 10 * n + (c.toNat - '0'.toNat)) n =
        n * 10 ^ digits.length + digitsValue digits := by
    intro digits
    induction digits with
    | nil => intro n; simp [digitsValue]
    | cons c digits ih =>
      intro n
      rw [digitsValue, List.foldl_cons, List.foldl_cons, ih, ih, List.length_cons, pow_succ]
      ring
  rw [digitsValue, List.foldl_append, hfrom]
  rfl

namespace Literal

/-- All digits, shifted, are the whole part and the fraction. -/
theorem modulus_eq (l : Literal) : modulus l = l.significand * 10 ^ l.scale := by
  have hten : (10 : ℚ) ≠ 0 := by norm_num
  have hscale : l.scale = exponentValue l.exponent - l.fraction.length := by
    rw [scale]
    rcases l.exponent with _ | ⟨_ | _, digits⟩ <;> rfl
  rw [modulus, significand, digitsValue_append, hscale, zpow_sub₀ hten, zpow_natCast]
  push_cast
  field_simp

/-- A literal is an integer of 64 bits exactly if the grammar says so. -/
theorem integer?_eq_some_iff {l : Literal} {n : Word} : l.integer? = some n ↔ IsInteger l n := by
  rcases l with ⟨negative, whole, fraction, exponent⟩
  rcases n with ⟨n, hn⟩
  rw [integer?, IsInteger]
  by_cases hplain : fraction = [] ∧ exponent = none
  · obtain ⟨rfl, rfl⟩ := hplain
    cases negative with
    | false =>
      have hvalue : FitsWord (digitsValue whole) ∧ (digitsValue whole : ℤ) = n ↔
          n = digitsValue whole :=
        ⟨fun h => h.2.symm, fun h => ⟨h ▸ hn, h.symm⟩⟩
      simpa [significand] using hvalue
    | true =>
      have hvalue : ¬ digitsValue whole = 0 ∧ FitsWord (-(digitsValue whole : ℤ)) ∧
          -(digitsValue whole : ℤ) = n ↔ n = -(digitsValue whole : ℤ) ∧ ¬ n = 0 := by
        constructor
        · rintro ⟨hzero, -, rfl⟩
          exact ⟨rfl, by omega⟩
        · rintro ⟨rfl, hzero⟩
          exact ⟨by omega, hn, rfl⟩
      simpa [significand] using hvalue
  · refine iff_of_false (fun h => ?_) fun h => hplain ⟨h.1, h.2.1⟩
    rw [if_pos] at h
    · cases h
    · by_cases hf : fraction = []
      · have he : exponent ≠ none := fun he => hplain ⟨hf, he⟩
        exact .inr (.inl (Option.isSome_iff_ne_none.2 he))
      · exact .inl hf

/-- **The value of a literal is the one that the grammar gives it.** -/
theorem number?_eq_some_iff {l : Literal} {n : Number} : l.number? = some n ↔ Denotes l n := by
  constructor
  · intro h
    unfold number? at h
    split at h
    · rename_i word hi
      cases h
      exact .integer (integer?_eq_some_iff.1 hi)
    · rename_i hi
      obtain ⟨x, hx, rfl⟩ := Option.map_eq_some_iff.1 h
      rw [Double.ofDecimal?_eq_some_iff, ← modulus_eq] at hx
      refine .double (fun word hword => ?_) hx.1 hx.2.1 hx.2.2
      rw [integer?_eq_some_iff.2 hword] at hi
      cases hi
  · intro h
    cases h with
    | integer h => rw [number?, integer?_eq_some_iff.2 h]
    | @double x h hrange hnear hsign =>
      have hi : l.integer? = none :=
        Option.eq_none_iff_forall_ne_some.2 fun word hword => h word (integer?_eq_some_iff.1 hword)
      have hx : Double.ofDecimal? l.negative l.significand l.scale = some x := by
        rw [Double.ofDecimal?_eq_some_iff, ← modulus_eq]
        exact ⟨hrange, hnear, hsign⟩
      rw [number?, hi, hx]
      rfl

end Literal

/-- What is read as a number is a literal that denotes it. -/
theorem exists_denotes_of_readNumber {text rest : List Char} {n : Number}
    (h : readNumber text = .ok (n, rest)) :
    ∃ used l, text = used ++ rest ∧ IsLiteral used l ∧ Denotes l n := by
  unfold readNumber at h
  obtain ⟨⟨l, after⟩, hl, hvalue⟩ := exists_of_bind_eq_ok h
  obtain ⟨used, rfl, hused⟩ := exists_isLiteral_of_readLiteral hl
  simp only at hvalue
  split at hvalue
  · rename_i hn
    cases hvalue
    exact ⟨used, l, rfl, hused, Literal.number?_eq_some_iff.1 hn⟩
  · cases hvalue

/-- A literal is read as the number it denotes. -/
theorem readNumber_of_denotes {text rest : List Char} {l : Literal} {n : Number}
    (hl : IsLiteral text l) (hn : Denotes l n) (hr : Ends rest) :
    readNumber (text ++ rest) = .ok (n, rest) := by
  rw [readNumber, readLiteral_of_isLiteral hl hr]
  simp only [bind, Except.bind, Literal.number?_eq_some_iff.2 hn]
  rfl

end ResourceSchema
