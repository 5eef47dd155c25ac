import Uplift.Number.Binary64

/-!
# The nearest binary64 number

Rounding of an exact quotient of natural numbers to binary64: the nearest number wins, and of two
equally near ones the one with an even significand. Everything that makes a number from other
numbers or from digits goes through `Binary64.nearest`.
-/

set_option autoImplicit false

namespace Uplift

/-- The integer nearest to `numerator / denominator`; a half goes to the even neighbour. -/
def roundHalfEven (numerator denominator : Nat) : Nat :=
  let quotient := numerator / denominator
  let doubled := 2 * (numerator % denominator)
  if doubled < denominator then quotient
  else if denominator < doubled then quotient + 1
  else quotient + quotient % 2

namespace Binary64

/-- `numerator / denominator / 2 ^ exponent`, rounded to an integer. -/
private def scaledQuotient (numerator denominator : Nat) (exponent : Int) : Nat :=
  roundHalfEven (numerator * twoTo (-exponent).toNat) (denominator * twoTo exponent.toNat)

/-- The binary64 number nearest to `numerator / denominator` with the given sign. A quotient past
the largest finite number by half a step or more gives infinity. -/
def nearest (negative : Bool) (numerator denominator : Nat) : Binary64 :=
  if numerator = 0 ∨ denominator = 0 then ofFields negative 0 0
  else
    let magnitude : Int := (Nat.log2 numerator : Int) - (Nat.log2 denominator : Int)
    let low := magnitude - 53
    let fits :=
      numerator * twoTo (-low).toNat < denominator * twoTo low.toNat * twoTo 53
    let exponent := max (if fits then low else low + 1) (-1074)
    let rounded := scaledQuotient numerator denominator exponent
    let carried := rounded = twoTo 53
    let significand := if carried then twoTo 52 else rounded
    let exponent := if carried then exponent + 1 else exponent
    if 971 < exponent then infinity negative
    else if significand < twoTo 52 then ofFields negative 0 significand
    else ofFields negative (exponent + 1075).toNat (significand - twoTo 52)

def nearestSteps (steps : Int) : Binary64 :=
  nearest (steps < 0) steps.natAbs (twoTo 1074)

def add (first second : Binary64) : Binary64 :=
  if first.isNaN || second.isNaN then nan
  else if first.isInfinite && second.isInfinite then
    if first.isNegative = second.isNegative then first else nan
  else if first.isInfinite then first
  else if second.isInfinite then second
  else nearestSteps (first.steps + second.steps)

def mul (number factor : Binary64) : Binary64 :=
  if number.isFinite then
    let product := number.steps * factor.steps
    nearest number.isNegative product.natAbs (twoTo 2148)
  else number

/-- The number nearest to `digits * 10 ^ exponent`. Exponents far outside the format are settled
by the count of digits alone, so that no power of ten of that size is ever formed. -/
def nearestDecimal (negative : Bool) (digits : Nat) (exponent : Int) : Binary64 :=
  if digits = 0 then ofFields negative 0 0
  else
    let leading : Int := ((Nat.toDigits 10 digits).length : Int) + exponent
    if 400 < leading then infinity negative
    else if leading < -400 then ofFields negative 0 0
    else nearest negative (digits * tenTo exponent.toNat) (tenTo (-exponent).toNat)

end Binary64

end Uplift
