/-
# How a double is written

Zero is `0.0` or `-0.0`.  Any other double is written with the digits of its
shortest decimal: positionally, with at least one digit after the point, from
`0.00001` up to but not including `1e+16`, and beyond that with one digit
before the point and a signed exponent, as in `1e+16`, `1.5e-7` and `5e-324`.
-/

import ResourceSchema.Double.Shortest

namespace ResourceSchema

/-- Where a style stops writing the zeros between the point and the digits.
The leading digit's place counts from `0` for the one before the point. -/
structure PositionalRange where
  first : Int
  last : Int

/-- Doubles are positional from `0.00001` to below `10 ^ 16`. -/
def doublePlaces : PositionalRange := ⟨-5, 15⟩

/-- The digits without the zeros at their end. -/
def significantDigits (digits : Nat) : List Char :=
  ((Nat.toDigits 10 digits).reverse.dropWhile (· = '0')).reverse

/-- Digits with the point after place `0`. -/
def positional (digits : List Char) (leading : Int) : List Char :=
  if leading < 0 then
    ['0', '.'] ++ List.replicate (-leading - 1).toNat '0' ++ digits
  else
    let before := leading.toNat + 1
    let whole := digits.take before ++ List.replicate (before - digits.length) '0'
    let fraction := digits.drop before
    whole ++ '.' :: (if fraction = [] then ['0'] else fraction)

/-- Digits with the point after the first and an exponent that is always
signed. -/
def scientific (digits : List Char) (leading : Int) : List Char :=
  let fraction := digits.drop 1
  digits.take 1 ++ (if fraction = [] then [] else '.' :: fraction) ++
    ['e', if leading < 0 then '-' else '+'] ++ Nat.toDigits 10 leading.natAbs

/-- The text of a double without its sign. -/
def Double.magnitudeText (x : Double) : List Char :=
  if x.significand = 0 then ['0', '.', '0']
  else
    let decimal := x.shortest
    let leading := decimal.exponent + (Nat.toDigits 10 decimal.digits).length - 1
    let digits := significantDigits decimal.digits
    if doublePlaces.first ≤ leading ∧ leading ≤ doublePlaces.last then positional digits leading
    else scientific digits leading

/-- The text of a double. -/
def Double.text (x : Double) : String :=
  (if x.negative then "-" else "") ++ String.ofList x.magnitudeText

end ResourceSchema
