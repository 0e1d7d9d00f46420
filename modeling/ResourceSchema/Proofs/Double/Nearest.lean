/-
# Decimals are read as the nearest double

A decimal `digits · 10 ^ exponent` is read as a double that no other double is
nearer to, and of two doubles that are equally near as the one with an even
significand (`Double.IsNearest`).  There is exactly one such double of each sign
(`IsNearest.unique`).  A decimal has a double unless it lies at or beyond the
middle between the largest double and `2 ^ 1024` (`Double.InRange`), and then the
double is the nearest one (`Double.ofDecimal?_eq_some_iff`).

The doubles around a number form a grid: those with the exponent that
`Double.rounded` chooses, or a larger one, are multiples of one power of two, and
those with a smaller exponent lie below the grid's part that matters
(`modulus_lt_of_exponent_lt`).  So the nearest double is the nearest multiple, which
`Double.roundHalfEven` finds.
-/

import Mathlib.Algebra.Order.Field.Power
import Mathlib.Data.Rat.Floor
import Mathlib.Tactic.FieldSimp
import Mathlib.Tactic.Linarith
import Mathlib.Tactic.NormNum
import Mathlib.Tactic.Positivity
import Mathlib.Tactic.Ring
import ResourceSchema.Double.Basic

namespace ResourceSchema

namespace Double

/-- The magnitude of a double. -/
def modulus (x : Double) : ℚ := x.significand * 2 ^ x.exponent

/-- No double is nearer to the magnitude `q` than `x`, and one that is equally
near is only passed over for an even significand. -/
def IsNearest (q : ℚ) (x : Double) : Prop :=
  ∀ y : Double, y.modulus ≠ x.modulus →
    |q - x.modulus| < |q - y.modulus| ∨ |q - x.modulus| = |q - y.modulus| ∧ Even x.significand

/-- The magnitudes that are not rounded beyond the largest double. -/
def InRange (q : ℚ) : Prop := q < 2 ^ 1024 - 2 ^ 970

/-! ### The grid of doubles -/

/-- A double with a smaller exponent lies below every normal one. -/
theorem modulus_lt_of_exponent_lt (y : Double) {e : ℤ} (h : y.exponent < e) :
    y.modulus < 2 ^ 52 * (2 : ℚ) ^ e := by
  have hs : (y.significand : ℚ) < 2 ^ 53 := by exact_mod_cast y.isDouble.1
  have hstep : (2 : ℚ) ^ (y.exponent + 1) ≤ 2 ^ e := zpow_le_zpow_right₀ (by norm_num) (by omega)
  have hpos : (0 : ℚ) < 2 ^ y.exponent := by positivity
  calc y.modulus < 2 ^ 53 * 2 ^ y.exponent := mul_lt_mul_of_pos_right hs hpos
    _ = 2 ^ 52 * 2 ^ (y.exponent + 1) := by rw [zpow_add_one₀ (by norm_num)]; ring
    _ ≤ 2 ^ 52 * 2 ^ e := by linarith

/-- A double with a larger exponent is a multiple of the power of two. -/
theorem exists_modulus_eq_mul (y : Double) {e : ℤ} (h : e ≤ y.exponent) :
    ∃ k : ℕ, y.modulus = k * (2 : ℚ) ^ e := by
  refine ⟨y.significand * 2 ^ (y.exponent - e).toNat, ?_⟩
  have hexp : y.exponent = ((y.exponent - e).toNat : ℤ) + e := by omega
  rw [modulus, hexp, zpow_add₀ (by norm_num), zpow_natCast]
  push_cast
  simp only [add_sub_cancel_right, Int.toNat_natCast]
  ring

/-- A double above the least exponent is normal. -/
theorem le_modulus (x : Double) (h : -1074 < x.exponent) :
    2 ^ 52 * (2 : ℚ) ^ x.exponent ≤ x.modulus := by
  have hs : 2 ^ 52 ≤ x.significand := by
    have := x.isDouble.2.2.2
    omega
  have hs : ((2 ^ 52 : ℕ) : ℚ) ≤ x.significand := by exact_mod_cast hs
  have hpos : (0 : ℚ) < 2 ^ x.exponent := by positivity
  push_cast at hs
  exact mul_le_mul_of_nonneg_right hs hpos.le

/-- The larger of two doubles has no smaller exponent. -/
theorem exponent_le_of_modulus_le {x y : Double} (h : x.modulus ≤ y.modulus) :
    x.exponent ≤ y.exponent := by
  by_contra hlt
  have hx := x.le_modulus (by have := y.isDouble.2.1; omega)
  have hy := y.modulus_lt_of_exponent_lt (e := x.exponent) (by omega)
  linarith

/-- **A magnitude has one representation.** -/
theorem modulus_injective {x y : Double} (h : x.modulus = y.modulus)
    (hs : x.negative = y.negative) : x = y := by
  have he : x.exponent = y.exponent :=
    le_antisymm (exponent_le_of_modulus_le h.le) (exponent_le_of_modulus_le h.ge)
  have hm : (x.significand : ℚ) = y.significand := by
    rw [modulus, modulus, he] at h
    exact mul_right_cancel₀ (by positivity) h
  rcases x with ⟨_, _, _, _⟩
  rcases y with ⟨_, _, _, _⟩
  simp only [mk.injEq]
  exact ⟨hs, by exact_mod_cast hm, he⟩

/-- The next double after one with an even significand has an odd one, so two
different even doubles have a third between them. -/
theorem exists_between_of_even {x y : Double} (h : x.modulus < y.modulus) (hx : Even x.significand)
    (hy : Even y.significand) : ∃ z : Double, x.modulus < z.modulus ∧ z.modulus < y.modulus := by
  obtain ⟨hlt, hlow, hhigh, hnormal⟩ := x.isDouble
  have hodd : x.significand + 1 < 2 ^ 53 := by
    obtain ⟨k, hk⟩ := hx
    omega
  let z : Double := ⟨x.negative, x.significand + 1, x.exponent, hodd, hlow, hhigh, by omega⟩
  have hz : z.modulus = x.modulus + 2 ^ x.exponent := by
    simp only [modulus, z]
    push_cast
    ring
  have hpos : (0 : ℚ) < 2 ^ x.exponent := by positivity
  refine ⟨z, by linarith, lt_of_le_of_ne ?_ fun heq => ?_⟩
  · obtain ⟨k, hk⟩ := y.exists_modulus_eq_mul (exponent_le_of_modulus_le h.le)
    rw [hz, hk, modulus]
    rw [hk, modulus] at h
    have hlt : (x.significand : ℚ) < k := lt_of_mul_lt_mul_right h hpos.le
    have hle : ((x.significand + 1 : ℕ) : ℚ) ≤ k := by
      exact_mod_cast Nat.succ_le_of_lt (by exact_mod_cast hlt)
    push_cast at hle
    nlinarith
  · have hsig : y.significand = x.significand + 1 := by
      have := modulus_injective (x := ⟨y.negative, z.significand, z.exponent, z.isDouble⟩) heq rfl
      rw [← this]
    rw [hsig] at hy
    exact Nat.even_add_one.1 hy hx

/-- **There is one nearest double** of each sign. -/
theorem IsNearest.unique {q : ℚ} {x y : Double} (hx : IsNearest q x) (hy : IsNearest q y)
    (hs : x.negative = y.negative) : x = y := by
  have hnotlt : ∀ {x y : Double}, IsNearest q x → IsNearest q y → ¬ x.modulus < y.modulus := by
    intro x y hx hy hlt
    have htie : |q - x.modulus| = |q - y.modulus| ∧ Even x.significand ∧ Even y.significand := by
      rcases hx y hlt.ne' with h | ⟨h, hex⟩
      · rcases hy x hlt.ne with h' | ⟨h', _⟩
        · exact absurd h (lt_asymm h')
        · exact absurd h' h.ne'
      · rcases hy x hlt.ne with h' | ⟨_, hey⟩
        · exact absurd h h'.ne'
        · exact ⟨h, hex, hey⟩
    obtain ⟨hdist, hex, hey⟩ := htie
    obtain ⟨z, hxz, hzy⟩ := exists_between_of_even hlt hex hey
    -- `q` is the middle of `x` and `y`, so `z` is nearer to it than either.
    have hmid : q = (x.modulus + y.modulus) / 2 := by
      rcases abs_eq_abs.1 hdist with h | h <;> linarith
    have hz : |q - z.modulus| < |q - x.modulus| := by
      rw [abs_of_nonneg (by linarith : 0 ≤ q - x.modulus), abs_lt]
      constructor <;> linarith
    rcases hx z hxz.ne' with h | ⟨h, _⟩ <;> linarith
  have heq : x.modulus = y.modulus :=
    le_antisymm (not_lt.1 (hnotlt hy hx)) (not_lt.1 (hnotlt hx hy))
  exact modulus_injective heq hs

/-- What is nearer, or equally near and preferred, is not further away. -/
theorem le_of_lt_or_eq_and {a b : ℚ} {p : Prop} (h : a < b ∨ a = b ∧ p) : a ≤ b :=
  h.elim le_of_lt fun h => h.1.le

/-! ### Rounding a fraction to an integer -/

section Rounding

variable {num den : ℕ}

variable (num) in
/-- Half a unit at most is lost, and half a unit only for an even result. -/
theorem roundHalfEven_spec (hden : 0 < den) :
    |(num : ℚ) / den - roundHalfEven num den| < 1 / 2 ∨
      |(num : ℚ) / den - roundHalfEven num den| = 1 / 2 ∧ Even (roundHalfEven num den) := by
  have hd : (0 : ℚ) < den := by exact_mod_cast hden
  have hsplit : (num : ℚ) / den = (num / den : ℕ) + (num % den : ℕ) / (den : ℚ) := by
    have h : (num : ℚ) = den * (num / den : ℕ) + (num % den : ℕ) := by
      exact_mod_cast (Nat.div_add_mod num den).symm
    field_simp
    linarith
  have hrem : (num % den : ℕ) / (den : ℚ) < 1 := by
    rw [div_lt_one hd]
    exact_mod_cast Nat.mod_lt num hden
  have hrem0 : (0 : ℚ) ≤ (num % den : ℕ) / (den : ℚ) := by positivity
  rw [hsplit, roundHalfEven]
  -- From here on `r` is the part behind the point, and the cases are `r` below, above and at 1/2.
  generalize hr : ((num % den : ℕ) : ℚ) / den = r at hrem hrem0
  split
  · rename_i h
    have h : (2 : ℚ) * (num % den : ℕ) < den := by exact_mod_cast h
    have h : r < 1 / 2 := by
      rw [← hr, div_lt_iff₀ hd]
      linarith
    left
    rw [abs_lt]
    constructor <;> linarith
  · split
    · rename_i h
      have h : (den : ℚ) < 2 * (num % den : ℕ) := by exact_mod_cast h
      have h : 1 / 2 < r := by
        rw [← hr, lt_div_iff₀ hd]
        linarith
      left
      push_cast
      rw [abs_lt]
      constructor <;> linarith
    · rename_i h₁ h₂
      have h : (2 : ℚ) * (num % den : ℕ) = den := by
        exact_mod_cast le_antisymm (not_lt.1 h₂) (not_lt.1 h₁)
      have h : r = 1 / 2 := by
        rw [← hr, div_eq_iff hd.ne']
        linarith
      right
      rcases Nat.mod_two_eq_zero_or_one (num / den) with hp | hp
      · rw [hp, Nat.add_zero, h, add_sub_cancel_left, abs_of_pos (by norm_num)]
        exact ⟨rfl, Nat.even_iff.2 hp⟩
      · rw [hp, h]
        push_cast
        refine ⟨?_, Nat.even_add_one.2 (Nat.not_even_iff.2 hp)⟩
        rw [abs_of_neg (by linarith)]
        linarith

/-- No other integer is nearer than the rounded one. -/
theorem abs_sub_roundHalfEven_lt (hden : 0 < den) {k : ℕ} (hk : k ≠ roundHalfEven num den) :
    |(num : ℚ) / den - roundHalfEven num den| < |(num : ℚ) / den - k| ∨
      |(num : ℚ) / den - roundHalfEven num den| = |(num : ℚ) / den - k| ∧
        Even (roundHalfEven num den) := by
  have hspec := roundHalfEven_spec num hden
  generalize roundHalfEven num den = s at *
  generalize (num : ℚ) / den = r at *
  have hone : (1 : ℚ) ≤ |(k : ℚ) - s| := by
    have h : (1 : ℤ) ≤ |(k : ℤ) - s| := Int.one_le_abs (by omega)
    exact_mod_cast h
  have htri : |(k : ℚ) - s| ≤ |r - k| + |r - s| := by
    rw [abs_sub_comm r k]
    exact abs_sub_le _ _ _
  rcases hspec with h | ⟨h, heven⟩
  · left
    linarith
  · rcases lt_or_eq_of_le (show |r - s| ≤ |r - k| by linarith) with h | h
    · exact .inl h
    · exact .inr ⟨h, heven⟩

end Rounding

/-! ### The end of the range -/

/-- The end of the range is half a unit above the largest double. -/
theorem range_eq : (2 : ℚ) ^ 1024 - 2 ^ 970 = (2 ^ 53 - 1 / 2) * 2 ^ (971 : ℤ) := by
  have hlow : (2 : ℚ) ^ (971 : ℤ) = 2 ^ 970 * 2 := by
    rw [show (971 : ℤ) = ((970 + 1 : ℕ) : ℤ) from rfl, zpow_natCast, pow_succ]
  have hhigh : (2 : ℚ) ^ 1024 = 2 ^ 54 * 2 ^ 970 := by rw [← pow_add]
  rw [hlow, hhigh]
  generalize (2 : ℚ) ^ 970 = u
  ring

/-- The largest power of two that is a double is inside the range. -/
theorem lt_range : (2 : ℚ) ^ 53 * 2 ^ (970 : ℤ) < 2 ^ 1024 - 2 ^ 970 := by
  have hpos : (0 : ℚ) < 2 ^ (971 : ℤ) := by positivity
  rw [range_eq, show (970 : ℤ) = 971 - 1 from rfl, zpow_sub_one₀ (by norm_num)]
  generalize (2 : ℚ) ^ (971 : ℤ) = u at *
  linarith

/-- The next power of two is not. -/
theorem range_le : (2 : ℚ) ^ 1024 - 2 ^ 970 ≤ 2 ^ 52 * 2 ^ (972 : ℤ) := by
  have hpos : (0 : ℚ) < 2 ^ (971 : ℤ) := by positivity
  rw [range_eq, show (972 : ℤ) = 971 + 1 from rfl, zpow_add_one₀ (by norm_num)]
  generalize (2 : ℚ) ^ (971 : ℤ) = u at *
  linarith

/-! ### Fractions -/

/-- A power of two with any exponent as a quotient of two with natural ones. -/
theorem two_zpow_eq_div (e : ℤ) : (2 : ℚ) ^ e = 2 ^ e.toNat / 2 ^ (-e).toNat := by
  rcases le_total 0 e with h | h
  · have hneg : (-e).toNat = 0 := by omega
    rw [hneg, pow_zero, div_one, ← zpow_natCast, Int.toNat_of_nonneg h]
  · have hpos : e.toNat = 0 := by omega
    rw [hpos, pow_zero, one_div, ← zpow_natCast, Int.toNat_of_nonneg (by omega), zpow_neg, inv_inv]

section Fraction

variable {num den : ℕ}

/-- Comparing a quotient with a power of two needs whole numbers only. -/
theorem lt_two_zpow_iff (hden : 0 < den) (e : ℤ) :
    num * 2 ^ (-e).toNat < den * 2 ^ e.toNat ↔ (num : ℚ) / den < 2 ^ e := by
  have hd : (0 : ℚ) < den := by exact_mod_cast hden
  rw [two_zpow_eq_div, div_lt_div_iff₀ hd (by positivity), mul_comm (2 ^ e.toNat : ℚ)]
  exact_mod_cast Iff.rfl

/-- The highest bit of a number is no more than the number. -/
theorem two_pow_log2_le {n : ℕ} (h : 0 < n) : (2 : ℚ) ^ (n.log2 : ℤ) ≤ n := by
  rw [zpow_natCast]
  exact_mod_cast Nat.log2_self_le h.ne'

/-- A number is below the power of two after its highest bit. -/
theorem lt_two_pow_log2 (n : ℕ) : (n : ℚ) < 2 ^ ((n.log2 : ℤ) + 1) := by
  have h : n < 2 ^ (n.log2 + 1) := Nat.lt_log2_self
  have h : ((n : ℕ) : ℚ) < ((2 ^ (n.log2 + 1) : ℕ) : ℚ) := by exact_mod_cast h
  rw [show (n.log2 : ℤ) + 1 = ((n.log2 + 1 : ℕ) : ℤ) from rfl, zpow_natCast]
  exact_mod_cast h

/-- **The power of two that a fraction reaches but does not double.** -/
theorem magnitude_spec (hnum : 0 < num) (hden : 0 < den) :
    (2 : ℚ) ^ magnitude num den ≤ num / den ∧ (num : ℚ) / den < 2 ^ (magnitude num den + 1) := by
  have hd : (0 : ℚ) < den := by exact_mod_cast hden
  have htwo : (2 : ℚ) ≠ 0 := by norm_num
  have hlow : (2 : ℚ) ^ ((num.log2 : ℤ) - den.log2 - 1) < num / den := by
    rw [lt_div_iff₀ hd]
    calc (2 : ℚ) ^ ((num.log2 : ℤ) - den.log2 - 1) * den
        < 2 ^ ((num.log2 : ℤ) - den.log2 - 1) * 2 ^ ((den.log2 : ℤ) + 1) :=
          mul_lt_mul_of_pos_left (lt_two_pow_log2 den) (by positivity)
      _ = 2 ^ (num.log2 : ℤ) := by rw [← zpow_add₀ htwo]; congr 1; ring
      _ ≤ num := two_pow_log2_le hnum
  have hhigh : (num : ℚ) / den < 2 ^ ((num.log2 : ℤ) - den.log2 + 1) := by
    rw [div_lt_iff₀ hd]
    calc (num : ℚ) < 2 ^ ((num.log2 : ℤ) + 1) := lt_two_pow_log2 num
      _ = 2 ^ ((num.log2 : ℤ) - den.log2 + 1) * 2 ^ (den.log2 : ℤ) := by
          rw [← zpow_add₀ htwo]; congr 1; ring
      _ ≤ 2 ^ ((num.log2 : ℤ) - den.log2 + 1) * den :=
          mul_le_mul_of_nonneg_left (two_pow_log2_le hden) (by positivity)
  simp only [magnitude]
  split
  · rename_i h
    rw [lt_two_zpow_iff hden] at h
    rw [sub_add_cancel]
    exact ⟨hlow.le, h⟩
  · rename_i h
    rw [lt_two_zpow_iff hden, not_lt] at h
    exact ⟨h, hhigh⟩

/-- The power of two that the doubles around a fraction are multiples of. -/
def unit (num den : ℕ) : ℤ := max (-1074) (magnitude num den - 52)

/-- The fraction in units. -/
theorem scaled_eq (num den : ℕ) (e : ℤ) :
    ((num * 2 ^ (-e).toNat : ℕ) : ℚ) / (den * 2 ^ e.toNat : ℕ) = num / den / 2 ^ e := by
  rw [two_zpow_eq_div]
  push_cast
  field_simp

/-- The number of units that the fraction is rounded to. -/
def units (num den : ℕ) : ℕ :=
  roundHalfEven (num * 2 ^ (-unit num den).toNat) (den * 2 ^ (unit num den).toNat)

/-- Units that fill one bit too many are halved, and the unit is doubled. -/
theorem rounded_eq (num den : ℕ) :
    rounded num den = if units num den = 2 ^ 53 then (2 ^ 52, unit num den + 1)
      else (units num den, unit num den) :=
  rfl

/-- The rounded fraction, whichever of its two forms it has. -/
theorem rounded_value (num den : ℕ) :
    ((rounded num den).1 : ℚ) * 2 ^ (rounded num den).2 = units num den * 2 ^ unit num den := by
  rw [rounded_eq]
  split
  · rename_i h
    rw [h, zpow_add_one₀ (by norm_num)]
    push_cast
    ring
  · rfl

/-- Halving full units leaves them even. -/
theorem even_rounded (h : Even (units num den)) : Even (rounded num den).1 := by
  rw [rounded_eq]
  split
  · exact ⟨2 ^ 51, by norm_num⟩
  · exact h

variable (num) in
/-- No other number of units is nearer. -/
theorem abs_sub_units_lt (hden : 0 < den) {k : ℕ} (hk : k ≠ units num den) :
    |(num : ℚ) / den / 2 ^ unit num den - units num den| <
        |(num : ℚ) / den / 2 ^ unit num den - k| ∨
      |(num : ℚ) / den / 2 ^ unit num den - units num den| =
        |(num : ℚ) / den / 2 ^ unit num den - k| ∧ Even (units num den) := by
  rw [← scaled_eq]
  exact abs_sub_roundHalfEven_lt (by positivity) hk

variable (num) in
/-- Half a unit at most is lost, and half a unit only for an even number. -/
theorem units_spec (hden : 0 < den) :
    |(num : ℚ) / den / 2 ^ unit num den - units num den| < 1 / 2 ∨
      |(num : ℚ) / den / 2 ^ unit num den - units num den| = 1 / 2 ∧ Even (units num den) := by
  rw [← scaled_eq]
  exact roundHalfEven_spec _ (by positivity)

variable (num) in
/-- Rounding to units is off by half a unit at most. -/
theorem abs_sub_units_le_half (hden : 0 < den) :
    |(num : ℚ) / den / 2 ^ unit num den - units num den| ≤ 1 / 2 :=
  le_of_lt_or_eq_and (units_spec num hden)

variable (num) in
/-- **No other number of units is nearer.** -/
theorem abs_sub_units_le (hden : 0 < den) (k : ℕ) :
    |(num : ℚ) / den / 2 ^ unit num den - units num den| ≤
      |(num : ℚ) / den / 2 ^ unit num den - k| := by
  by_cases hk : k = units num den
  · rw [hk]
  · exact le_of_lt_or_eq_and (abs_sub_units_lt num hden hk)

/-- A distance is as many units as the fraction in units is away. -/
theorem abs_sub_mul_unit (num den : ℕ) (a : ℚ) : |(num : ℚ) / den - a * 2 ^ unit num den| =
    |(num : ℚ) / den / 2 ^ unit num den - a| * 2 ^ unit num den := by
  have hpos : (0 : ℚ) < 2 ^ unit num den := by positivity
  rw [← abs_of_pos hpos, ← abs_mul, abs_of_pos hpos, sub_mul, div_mul_cancel₀ _ hpos.ne']

variable (hnum : 0 < num) (hden : 0 < den)
include hnum hden

/-- The fraction has fewer than `2 ^ 53` units. -/
theorem scaled_lt : (num : ℚ) / den / 2 ^ unit num den < 2 ^ 53 := by
  rw [div_lt_iff₀ (by positivity)]
  calc (num : ℚ) / den < 2 ^ (magnitude num den + 1) := (magnitude_spec hnum hden).2
    _ ≤ 2 ^ (53 + unit num den) := zpow_le_zpow_right₀ (by norm_num) (by simp only [unit]; omega)
    _ = 2 ^ 53 * 2 ^ unit num den := by rw [zpow_add₀ (by norm_num)]; norm_num

/-- Above the least unit it has at least `2 ^ 52` of them. -/
theorem le_scaled (h : -1074 < unit num den) : 2 ^ 52 ≤ (num : ℚ) / den / 2 ^ unit num den := by
  rw [le_div_iff₀ (by positivity)]
  calc (2 : ℚ) ^ 52 * 2 ^ unit num den = 2 ^ (52 + unit num den) := by
        rw [zpow_add₀ (by norm_num)]; norm_num
    _ ≤ 2 ^ magnitude num den := zpow_le_zpow_right₀ (by norm_num) (by simp only [unit] at *; omega)
    _ ≤ num / den := (magnitude_spec hnum hden).1

/-- There are 2⁵³ units at most. -/
theorem units_le : units num den ≤ 2 ^ 53 := by
  have hlt := scaled_lt hnum hden
  have hnear := abs_sub_units_le_half num hden
  have h : (units num den : ℚ) < 2 ^ 53 + 1 := by linarith [(abs_le.1 hnear).1]
  have h : units num den < 2 ^ 53 + 1 := by exact_mod_cast h
  omega

/-- Where the unit is not the smallest one, there are at least 2⁵² units. -/
theorem le_units (h : -1074 < unit num den) : 2 ^ 52 ≤ units num den := by
  have hle := le_scaled hnum hden h
  have hnear := abs_sub_units_le_half num hden
  have h : (2 : ℚ) ^ 52 < units num den + 1 := by linarith [(abs_le.1 hnear).2]
  have h : 2 ^ 52 < units num den + 1 := by exact_mod_cast h
  omega

/-- A double below the grid is further away than the least normal one on it. -/
theorem abs_sub_units_lt_of_exponent_lt {y : Double} (h : y.exponent < unit num den) :
    |(num : ℚ) / den - units num den * 2 ^ unit num den| < |(num : ℚ) / den - y.modulus| := by
  have hpos : (0 : ℚ) < 2 ^ unit num den := by positivity
  have hnormal : -1074 < unit num den := lt_of_le_of_lt y.isDouble.2.1 h
  have hle := le_scaled hnum hden hnormal
  have hy : y.modulus / 2 ^ unit num den < 2 ^ 52 := by
    rw [div_lt_iff₀ hpos]
    exact y.modulus_lt_of_exponent_lt h
  have hleast := abs_sub_units_le num hden (2 ^ 52)
  push_cast at hleast
  have hmodulus : y.modulus = y.modulus / 2 ^ unit num den * 2 ^ unit num den :=
    (div_mul_cancel₀ _ hpos.ne').symm
  rw [hmodulus, abs_sub_mul_unit, abs_sub_mul_unit]
  refine mul_lt_mul_of_pos_right (lt_of_le_of_lt hleast ?_) hpos
  rw [abs_of_nonneg (by linarith), abs_of_nonneg (by linarith)]
  linarith

/-- **The rounded fraction is the nearest double.** -/
theorem isNearest_of_modulus_eq {x : Double} (hx : x.modulus = units num den * 2 ^ unit num den)
    (heven : Even (units num den) → Even x.significand) : IsNearest (num / den) x := by
  intro y hy
  rcases lt_or_ge y.exponent (unit num den) with hlow | hgrid
  · left
    rw [hx]
    exact abs_sub_units_lt_of_exponent_lt hnum hden hlow
  · have hpos : (0 : ℚ) < 2 ^ unit num den := by positivity
    obtain ⟨k, hk⟩ := y.exists_modulus_eq_mul hgrid
    have hne : k ≠ units num den := by
      rintro rfl
      exact hy (hk.trans hx.symm)
    rw [hx, hk, abs_sub_mul_unit, abs_sub_mul_unit]
    rcases abs_sub_units_lt num hden hne with h | ⟨h, he⟩
    · exact .inl (mul_lt_mul_of_pos_right h hpos)
    · exact .inr ⟨congrArg (· * (2 : ℚ) ^ unit num den) h, heven he⟩

/-- Below the middle between the two largest numbers of units the result is not
rounded up to `2 ^ 53`. -/
theorem units_eq_iff :
    units num den = 2 ^ 53 ↔ 2 ^ 53 - 1 / 2 ≤ (num : ℚ) / den / 2 ^ unit num den := by
  have hspec := units_spec num hden
  have hle := units_le hnum hden
  generalize (num : ℚ) / den / 2 ^ unit num den = r at *
  generalize units num den = s at *
  constructor
  · rintro rfl
    have hnear := le_of_lt_or_eq_and hspec
    push_cast at hnear
    linarith [(abs_le.1 hnear).1]
  · intro hr
    by_contra hne
    have hs : (s : ℚ) ≤ 2 ^ 53 - 1 := by
      have h : s + 1 ≤ 2 ^ 53 := by omega
      have h : ((s + 1 : ℕ) : ℚ) ≤ ((2 ^ 53 : ℕ) : ℚ) := by exact_mod_cast h
      push_cast at h
      linarith
    rcases hspec with h | ⟨h, heven⟩
    · linarith [(abs_lt.1 h).2]
    · -- The middle is equally near to an odd number of units.
      have hs : (s : ℚ) = 2 ^ 53 - 1 := by linarith [(abs_le.1 h.le).2]
      have hs : s = 2 ^ 53 - 1 := by
        have h : ((s + 1 : ℕ) : ℚ) = ((2 ^ 53 : ℕ) : ℚ) := by
          push_cast
          linarith
        have h : s + 1 = 2 ^ 53 := by exact_mod_cast h
        omega
      rw [hs] at heven
      exact absurd heven (by decide)

/-- **The rounded fraction is a double,** unless the fraction is out of range. -/
theorem isDouble_rounded_iff :
    IsDouble (rounded num den).1 (rounded num den).2 ↔ InRange (num / den) := by
  have hpos : (0 : ℚ) < 2 ^ unit num den := by positivity
  have hq : (num : ℚ) / den = num / den / 2 ^ unit num den * 2 ^ unit num den := by
    rw [div_mul_cancel₀ _ hpos.ne']
  have hle := units_le hnum hden
  have hlow : -1074 ≤ unit num den := le_max_left _ _
  have hdouble : IsDouble (rounded num den).1 (rounded num den).2 ↔
      unit num den ≤ 970 ∨ unit num den = 971 ∧ units num den ≠ 2 ^ 53 := by
    have hmin := fun h => le_units hnum hden h
    rw [rounded_eq, IsDouble]
    split
    · simp only
      omega
    · simp only
      omega
  have hlt := scaled_lt hnum hden
  rw [hdouble, Ne, units_eq_iff hnum hden, not_le, InRange, hq]
  have hscaled := fun h => le_scaled hnum hden h
  generalize (num : ℚ) / den / 2 ^ unit num den = r at *
  rcases lt_trichotomy (unit num den) 971 with h | h | h
  · refine iff_of_true (.inl (by omega)) ?_
    calc r * 2 ^ unit num den < 2 ^ 53 * 2 ^ unit num den := mul_lt_mul_of_pos_right hlt hpos
      _ ≤ 2 ^ 53 * 2 ^ (970 : ℤ) :=
          mul_le_mul_of_nonneg_left (zpow_le_zpow_right₀ (by norm_num) (by omega)) (by norm_num)
      _ < 2 ^ 1024 - 2 ^ 970 := lt_range
  · rw [h, range_eq, mul_lt_mul_iff_left₀ (by positivity), mul_div_cancel_right₀ _ (by positivity)]
    constructor
    · rintro (hle | ⟨-, hr⟩)
      · omega
      · exact hr
    · exact fun hr => .inr ⟨rfl, hr⟩
  · refine iff_of_false (by omega) (not_lt.2 ?_)
    calc (2 : ℚ) ^ 1024 - 2 ^ 970 ≤ 2 ^ 52 * 2 ^ (972 : ℤ) := range_le
      _ ≤ 2 ^ 52 * 2 ^ unit num den :=
          mul_le_mul_of_nonneg_left (zpow_le_zpow_right₀ (by norm_num) (by omega)) (by norm_num)
      _ ≤ r * 2 ^ unit num den := mul_le_mul_of_nonneg_right (hscaled (by omega)) hpos.le

end Fraction

/-! ### Decimals -/

/-- A zero is zero, whatever its sign. -/
theorem modulus_zero (negative : Bool) : (zero negative).modulus = 0 := by
  simp [modulus, zero]

/-- Below half of the least double the nearest one is zero. -/
theorem isNearest_zero {q : ℚ} (h0 : 0 ≤ q) (h : q < 2 ^ (-1075 : ℤ)) (negative : Bool) :
    IsNearest q (zero negative) := by
  intro y hy
  have hpos : (0 : ℚ) < 2 ^ (-1074 : ℤ) := by positivity
  have hhalf : (2 : ℚ) ^ (-1075 : ℤ) = 2 ^ (-1074 : ℤ) / 2 := by
    rw [show (-1075 : ℤ) = -1074 - 1 from rfl, zpow_sub_one₀ (by norm_num), div_eq_mul_inv]
  obtain ⟨k, hk⟩ := y.exists_modulus_eq_mul y.isDouble.2.1
  have hk0 : k ≠ 0 := by
    rintro rfl
    exact hy (by rw [hk, modulus_zero, Nat.cast_zero, zero_mul])
  have hone : (1 : ℚ) ≤ k := by exact_mod_cast Nat.one_le_iff_ne_zero.2 hk0
  have hle : 2 ^ (-1074 : ℤ) ≤ y.modulus := by
    rw [hk]
    exact le_mul_of_one_le_left hpos.le hone
  left
  rw [modulus_zero, sub_zero, abs_of_nonneg h0, abs_of_neg (by linarith)]
  linarith

/-- **A quotient has a nearest double exactly if it is in range,** and the one that is found
is the nearest, with the sign that was asked for. -/
theorem nearest?_spec {negative : Bool} {num den : ℕ} (hnum : 0 < num) (hden : 0 < den)
    {x : Double} : nearest? negative num den = some x ↔
      InRange (num / den) ∧ IsNearest (num / den) x ∧ x.negative = negative := by
  rw [← isDouble_rounded_iff hnum hden, nearest?, if_neg hnum.ne']
  have hnearest : ∀ h, IsNearest (num / den)
      ⟨negative, (rounded num den).1, (rounded num den).2, h⟩ := fun h =>
    isNearest_of_modulus_eq hnum hden (rounded_value num den) even_rounded
  split
  · rename_i h
    rw [Option.some.injEq]
    constructor
    · rintro rfl
      exact ⟨h, hnearest h, rfl⟩
    · rintro ⟨-, hx, hneg⟩
      exact (hnearest h).unique hx hneg.symm
  · rename_i h
    exact ⟨nofun, fun hx => absurd hx.1 h⟩

/-- Digits with any power of ten as a quotient of whole numbers. -/
theorem ten_zpow_eq_div (digits : ℕ) (e : ℤ) : (digits : ℚ) * 10 ^ e =
    (digits * 10 ^ e.toNat : ℕ) / (10 ^ (-e).toNat : ℕ) := by
  push_cast
  rcases le_total 0 e with h | h
  · have hneg : (-e).toNat = 0 := by omega
    rw [hneg, pow_zero, div_one, ← zpow_natCast, Int.toNat_of_nonneg h]
  · have hpos : e.toNat = 0 := by omega
    rw [hpos, pow_zero, mul_one, ← zpow_natCast, Int.toNat_of_nonneg (by omega), zpow_neg,
      div_inv_eq_mul]

/-- Three bits fit into a decimal digit. -/
theorem two_zpow_le_ten_zpow (n : ℕ) : (2 : ℚ) ^ (3 * (n : ℤ)) ≤ 10 ^ (n : ℤ) := by
  rw [zpow_mul, zpow_natCast, zpow_natCast]
  exact pow_le_pow_left₀ (by norm_num) (by norm_num) n

/-- A decimal with a power of ten beyond 400 is out of range. -/
theorem not_inRange_of_lt {digits : ℕ} {exponent : ℤ} (h0 : digits ≠ 0) (h : 400 < exponent) :
    ¬ InRange (digits * 10 ^ exponent) := by
  obtain ⟨n, rfl⟩ := Int.eq_ofNat_of_zero_le (by omega : 0 ≤ exponent)
  have hone : (1 : ℚ) ≤ digits := by exact_mod_cast Nat.one_le_iff_ne_zero.2 h0
  have hpos : (0 : ℚ) < 2 ^ (972 : ℤ) := by positivity
  rw [InRange, not_lt]
  calc (2 : ℚ) ^ 1024 - 2 ^ 970 ≤ 2 ^ (52 : ℤ) * 2 ^ (972 : ℤ) := range_le
    _ = 2 ^ (52 + 972 : ℤ) := (zpow_add₀ (by norm_num) _ _).symm
    _ ≤ 2 ^ (3 * (n : ℤ)) := zpow_le_zpow_right₀ (by norm_num) (by omega)
    _ ≤ 10 ^ (n : ℤ) := two_zpow_le_ten_zpow n
    _ ≤ digits * 10 ^ (n : ℤ) := le_mul_of_one_le_left (by positivity) hone

/-- A decimal that is far below one is nearest to zero. -/
theorem lt_of_log2_lt {digits : ℕ} {exponent : ℤ} (h : exponent + digits.log2 < -400) :
    (digits : ℚ) * 10 ^ exponent < 2 ^ (-1075 : ℤ) := by
  obtain ⟨n, hn⟩ := Int.eq_ofNat_of_zero_le (by omega : 0 ≤ -exponent)
  obtain rfl : exponent = -n := by omega
  have hten : (10 : ℚ) ^ (-(n : ℤ)) ≤ 2 ^ (-(3 * (n : ℤ))) := by
    rw [zpow_neg, zpow_neg]
    exact inv_anti₀ (by positivity) (two_zpow_le_ten_zpow n)
  calc (digits : ℚ) * 10 ^ (-(n : ℤ))
      < 2 ^ ((digits.log2 : ℤ) + 1) * 10 ^ (-(n : ℤ)) :=
        mul_lt_mul_of_pos_right (lt_two_pow_log2 digits) (by positivity)
    _ ≤ 2 ^ ((digits.log2 : ℤ) + 1) * 2 ^ (-(3 * (n : ℤ))) :=
        mul_le_mul_of_nonneg_left hten (by positivity)
    _ = 2 ^ ((digits.log2 : ℤ) + 1 + -(3 * (n : ℤ))) := (zpow_add₀ (by norm_num) _ _).symm
    _ ≤ 2 ^ (-1075 : ℤ) := zpow_le_zpow_right₀ (by norm_num) (by omega)

/-- **Decimals are read as the nearest double** of their sign, if they are in
range. -/
theorem ofDecimal?_eq_some_iff {negative : Bool} {digits : ℕ} {exponent : ℤ} {x : Double} :
    ofDecimal? negative digits exponent = some x ↔
      InRange (digits * 10 ^ exponent) ∧ IsNearest (digits * 10 ^ exponent) x ∧
        x.negative = negative := by
  -- A zero is the answer where it is the nearest double and the decimal is small enough.
  have hzero : ∀ q : ℚ, 0 ≤ q → q < 2 ^ (-1075 : ℤ) → (some (zero negative) = some x ↔
      InRange q ∧ IsNearest q x ∧ x.negative = negative) := by
    intro q h0 hq
    have hrange : InRange q := by
      calc q < 2 ^ (-1075 : ℤ) := hq
        _ ≤ 2 ^ (53 + 970 : ℤ) := zpow_le_zpow_right₀ (by norm_num) (by norm_num)
        _ = 2 ^ 53 * 2 ^ (970 : ℤ) := zpow_add₀ (by norm_num) 53 970
        _ < 2 ^ 1024 - 2 ^ 970 := lt_range
    have hnearest := isNearest_zero h0 hq negative
    rw [Option.some.injEq]
    constructor
    · rintro rfl
      exact ⟨hrange, hnearest, rfl⟩
    · rintro ⟨-, hx, hneg⟩
      exact hnearest.unique hx hneg.symm
  rw [ofDecimal?]
  split
  · rename_i h
    rw [h, Nat.cast_zero, zero_mul]
    exact hzero 0 le_rfl (by positivity)
  · rename_i h0
    split
    · rename_i h
      exact ⟨nofun, fun hx => absurd hx.1 (not_inRange_of_lt h0 h)⟩
    · split
      · rename_i h
        exact hzero _ (by positivity) (lt_of_log2_lt h)
      · rw [nearest?_spec (by positivity) (by positivity), ten_zpow_eq_div]

end Double

end ResourceSchema
