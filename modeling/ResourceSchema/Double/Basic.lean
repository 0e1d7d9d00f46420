/-
# Finite doubles

JSON has no infinite numbers, so its floating point numbers are the finite
doubles: a sign, a significand below `2 ^ 53`, and the power of two that the
significand is counted in.  The representation is the one with the largest
significand that the exponent's lower end allows, so it is unique, and only the
two zeros have one value between them.

| | significand | exponent |
| --- | --- | --- |
| zero | `0` | `-1074` |
| subnormal | below `2 ^ 52` | `-1074` |
| normal | from `2 ^ 52` | `-1074` to `971` |

`Double.nearest?` rounds a fraction to the nearest double, the even one of two
that are equally near; a fraction that rounds beyond the largest double has
none.
-/

namespace ResourceSchema

-- Powers are those of the core library, also where Mathlib brings its own.
attribute [local instance (high)] instPowNat

/-- The significands and exponents that doubles have. -/
def IsDouble (significand : Nat) (exponent : Int) : Prop :=
  significand < 2 ^ (53 : Nat) ∧ -1074 ≤ exponent ∧ exponent ≤ 971 ∧
    (2 ^ (52 : Nat) ≤ significand ∨ exponent = -1074)

instance (significand : Nat) (exponent : Int) : Decidable (IsDouble significand exponent) :=
  inferInstanceAs (Decidable (_ ∧ _ ∧ _ ∧ _))

/-- A finite double: `significand · 2 ^ exponent` with a sign. -/
structure Double where
  negative : Bool
  significand : Nat
  exponent : Int
  isDouble : IsDouble significand exponent
deriving DecidableEq

namespace Double

/-- Zero with a sign. -/
def zero (negative : Bool) : Double := ⟨negative, 0, -1074, by decide⟩

instance : Inhabited Double := ⟨zero false⟩

/-- Doubles are compared by value, so the two zeros are equal. -/
instance : BEq Double := ⟨fun x y => x = y ∨ (x.significand = 0 ∧ y.significand = 0)⟩

/-- The natural number nearest to a fraction, the even one of two. -/
def roundHalfEven (num den : Nat) : Nat :=
  if 2 * (num % den) < den then num / den
  else if den < 2 * (num % den) then num / den + 1
  else num / den + num / den % 2

/-- Rounding does not go below the whole part. -/
theorem div_le_roundHalfEven (num den : Nat) : num / den ≤ roundHalfEven num den := by
  unfold roundHalfEven; split
  · omega
  · split <;> omega

/-- Rounding does not go above the next whole number. -/
theorem roundHalfEven_le (num den : Nat) : roundHalfEven num den ≤ num / den + 1 := by
  unfold roundHalfEven; split
  · omega
  · split <;> omega

/-- The power of two that a positive fraction reaches but does not double. -/
def magnitude (num den : Nat) : Int :=
  let guess : Int := (num.log2 : Int) - den.log2
  if num * 2 ^ (-guess).toNat < den * 2 ^ guess.toNat then guess - 1 else guess

/-- Significand and exponent of the double nearest to a positive fraction, were
exponents not limited above. -/
def rounded (num den : Nat) : Nat × Int :=
  let exponent := max (-1074) (magnitude num den - 52)
  let significand := roundHalfEven (num * 2 ^ (-exponent).toNat) (den * 2 ^ exponent.toNat)
  if significand = 2 ^ (53 : Nat) then (2 ^ (52 : Nat), exponent + 1) else (significand, exponent)

/-- The double nearest to a fraction with a sign. -/
def nearest? (negative : Bool) (num den : Nat) : Option Double :=
  if num = 0 then some (zero negative)
  else if h : IsDouble (rounded num den).1 (rounded num den).2 then some ⟨negative, _, _, h⟩
  else none

/-- The double nearest to `digits · 10 ^ exponent` with a sign.  Powers of ten
that are too large or too small for any double are not worked out. -/
def ofDecimal? (negative : Bool) (digits : Nat) (exponent : Int) : Option Double :=
  if digits = 0 then some (zero negative)
  else if 400 < exponent then none
  else if exponent + digits.log2 < -400 then some (zero negative)
  else nearest? negative (digits * 10 ^ exponent.toNat) (10 ^ (-exponent).toNat)

/-- The magnitude of a whole number is the position of its highest bit. -/
theorem magnitude_one {n : Nat} (h : 0 < n) : magnitude n 1 = n.log2 := by
  have hle : 2 ^ n.log2 ≤ n := Nat.log2_self_le (by omega)
  have h1 : Nat.log2 1 = 0 := by decide
  have hneg : (-(n.log2 : Int)).toNat = 0 := by omega
  simp only [magnitude, h1, Int.ofNat_zero, Int.sub_zero, hneg, Int.toNat_natCast,
    Nat.pow_zero, Nat.mul_one, Nat.one_mul]
  exact if_neg (Nat.not_lt.2 hle)

/-- **A 64-bit integer is near a double.** -/
theorem isDouble_rounded_one {n : Nat} (h : 0 < n) (hn : n < 2 ^ (64 : Nat)) :
    IsDouble (rounded n 1).1 (rounded n 1).2 := by
  have hle : 2 ^ n.log2 ≤ n := Nat.log2_self_le (by omega)
  have hlt : n < 2 ^ (n.log2 + 1) := Nat.lt_log2_self
  have hl : n.log2 < 64 := (Nat.pow_lt_pow_iff_right (by omega : 1 < 2)).1 (by omega)
  have hmax : max (-1074 : Int) ((n.log2 : Int) - 52) = (n.log2 : Int) - 52 := by omega
  simp only [rounded, magnitude_one h, hmax]
  by_cases hc : n.log2 ≤ 52
  · have h₁ : (-((n.log2 : Int) - 52)).toNat = 52 - n.log2 := by omega
    have h₂ : ((n.log2 : Int) - 52).toNat = 0 := by omega
    have hlow : 2 ^ 52 ≤ n * 2 ^ (52 - n.log2) := by
      calc 2 ^ 52 = 2 ^ n.log2 * 2 ^ (52 - n.log2) := by rw [← Nat.pow_add]; congr 1; omega
        _ ≤ _ := Nat.mul_le_mul_right _ hle
    have hhigh : n * 2 ^ (52 - n.log2) < 2 ^ 53 := by
      calc n * 2 ^ (52 - n.log2) < 2 ^ (n.log2 + 1) * 2 ^ (52 - n.log2) :=
            Nat.mul_lt_mul_of_pos_right hlt (Nat.two_pow_pos _)
        _ = 2 ^ 53 := by rw [← Nat.pow_add]; congr 1; omega
    have hround : roundHalfEven (n * 2 ^ (52 - n.log2)) 1 = n * 2 ^ (52 - n.log2) := by
      simp [roundHalfEven, Nat.mod_one]
    rw [h₁, h₂, Nat.pow_zero, Nat.mul_one, hround, if_neg (by omega)]
    simp only [IsDouble]
    omega
  · have h₁ : (-((n.log2 : Int) - 52)).toNat = 0 := by omega
    have h₂ : ((n.log2 : Int) - 52).toNat = n.log2 - 52 := by omega
    have hlow : 2 ^ 52 ≤ n / 2 ^ (n.log2 - 52) := by
      rw [Nat.le_div_iff_mul_le (Nat.two_pow_pos _), ← Nat.pow_add]
      exact Nat.le_trans (Nat.le_of_eq (by congr 1; omega)) hle
    have hhigh : n / 2 ^ (n.log2 - 52) < 2 ^ 53 := by
      rw [Nat.div_lt_iff_lt_mul (Nat.two_pow_pos _), ← Nat.pow_add]
      exact Nat.lt_of_lt_of_le hlt (Nat.le_of_eq (by congr 1; omega))
    have h₃ := div_le_roundHalfEven n (2 ^ (n.log2 - 52))
    have h₄ := roundHalfEven_le n (2 ^ (n.log2 - 52))
    rw [h₁, h₂, Nat.pow_zero, Nat.mul_one, Nat.one_mul]
    generalize roundHalfEven n (2 ^ (n.log2 - 52)) = m at *
    by_cases hm : m = 2 ^ 53
    · rw [if_pos hm]
      simp only [IsDouble]
      omega
    · rw [if_neg hm]
      simp only [IsDouble]
      omega

/-- The double nearest to a magnitude of at most 64 bits, with a sign. -/
def ofWord (negative : Bool) (n : Nat) (hn : n < 2 ^ (64 : Nat)) : Double :=
  if h : 0 < n then ⟨negative, _, _, isDouble_rounded_one h hn⟩ else zero negative

end Double

end ResourceSchema
