/-
# The shortest decimal of a double

A positive double is `significand · 2 ^ exponent`, and the reals that round to
it form an interval around it: half the distance to each neighbour, the ends
belonging to it exactly when the significand is even.  `Double.shortest` walks
the decimal grids of one digit, two digits and so on; on each it looks at the
two grid points next to the double, and the first grid with a point in the
interval wins.  Where both points lie in it the nearer one is taken, and the
even one when they are equally near.  Seventeen digits always suffice.

All of it is exact arithmetic on natural numbers.
-/

import ResourceSchema.Double.Basic

namespace ResourceSchema

-- Powers are those of the core library, also where Mathlib brings its own.
attribute [local instance (high)] instPowNat

/-- A decimal `digits · 10 ^ exponent`. -/
structure Decimal where
  digits : Nat
  exponent : Int
deriving DecidableEq, Inhabited

namespace Double

/-- Whether the neighbour below is only half as far away as the one above. -/
def leastOfBinade (x : Double) : Bool := x.significand = 2 ^ (52 : Nat) ∧ -1074 < x.exponent

/-- Whether a fraction lies in the interval of reals that round to the double.
Everything is counted in quarters of the last binary place. -/
def rounds (x : Double) (quartersNum quartersDen : Nat) : Bool :=
  let low := 4 * x.significand - (if x.leastOfBinade then 1 else 2)
  let high := 4 * x.significand + 2
  if x.significand % 2 = 0 then
    low * quartersDen ≤ quartersNum ∧ quartersNum ≤ high * quartersDen
  else
    low * quartersDen < quartersNum ∧ quartersNum < high * quartersDen

/-- `10 ^ place` in quarters of the last binary place, as a fraction. -/
def gridStep (x : Double) (place : Int) : Nat × Nat :=
  let quarter := x.exponent - 2
  (10 ^ place.toNat * 2 ^ (-quarter).toNat, 10 ^ (-place).toNat * 2 ^ quarter.toNat)

/-- The decimal with last digit at `place` that rounds to the double and is
nearest to it. -/
def onGrid? (x : Double) (place : Int) : Option Decimal :=
  let (num, den) := x.gridStep place
  let whole := 4 * x.significand * den
  let below := whole / num
  let left := whole % num
  let lower := x.rounds (below * num) den
  let upper := x.rounds ((below + 1) * num) den
  match lower, upper with
  | false, false => none
  | true, false => some ⟨below, place⟩
  | false, true => some ⟨below + 1, place⟩
  | true, true =>
    if 2 * left < num ∨ (2 * left = num ∧ below % 2 = 0) then some ⟨below, place⟩
    else some ⟨below + 1, place⟩

/-- The place of the double's leading decimal digit.  Every positive double has
a digit other than zero within 400 places after the point. -/
def leadingPlace (x : Double) : Int :=
  let scaled := x.significand * 10 ^ (400 : Nat) * 2 ^ x.exponent.toNat / 2 ^ (-x.exponent).toNat
  ((Nat.toDigits 10 scaled).length : Int) - 401

/-- The shortest decimal that rounds to the double, and the nearest of those. -/
def shortest (x : Double) : Decimal :=
  ((List.range 17).findSome? fun (n : Nat) => x.onGrid? (x.leadingPlace - n)).getD ⟨x.significand, 0⟩

end Double

end ResourceSchema
