import ProviderMock.Double

/-!
# Rounding to doubles

The double nearest to a quotient of whole numbers, of two equally near ones the one with the even
significand. A quotient too large for any finite double becomes an infinity.

Everything that has to be rounded comes through `Double.ofRatio`: whole numbers, decimals, and
products and quotients of doubles.
-/

namespace ProviderMock

/-- The whole number nearest to a quotient, the even one of two equally near. -/
def roundDiv (num den : Nat) : Nat :=
  let quotient := num / den
  let twice := 2 * (num % den)
  if den < twice ∨ (twice = den ∧ quotient % 2 = 1) then quotient + 1 else quotient

namespace Double

/-- The exponent of the highest power of two that is not above `num / den`. -/
def binaryExponent (num den : Nat) : Int :=
  let k : Int := (Nat.log2 num : Int) - Nat.log2 den
  if den * twoPow k ≤ num * twoPow (-k) then k else k - 1

/-- The double nearest to `num / den` with a sign. -/
def ofRatio (negative : Bool) (num den : Nat) : Double :=
  if num = 0 then zero negative
  else
    let scale := max (binaryExponent num den - 52) (-1074)
    let significand := roundDiv (num * twoPow (-scale)) (den * twoPow scale)
    -- the fields are added: a significand that was rounded up to the next power of two carries into
    -- the exponent, and one below `2 ^ 52` belongs to the smallest exponent
    ofMagnitude negative
      (min ((scale + 1074).toNat * 0x10000000000000 + significand) 0x7FF0000000000000)

/-- The double nearest to a whole number. -/
def ofInt (n : Int) : Double := ofRatio (decide (n < 0)) n.natAbs 1

/-- The product of two finite doubles. -/
def mul (x y : Double) : Double :=
  let scale := x.scale + y.scale
  ofRatio (x.isNegative != y.isNegative)
    (x.significand * y.significand * twoPow scale) (twoPow (-scale))

/-- The quotient of two finite doubles, the second of which is not zero. -/
def div (x y : Double) : Double :=
  let scale := x.scale - y.scale
  ofRatio (x.isNegative != y.isNegative)
    (x.significand * twoPow scale) (y.significand * twoPow (-scale))

end Double

end ProviderMock
