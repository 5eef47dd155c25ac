import Uplift.Number.Binary64

/-!
# Shortest decimals

The decimal that stands for a binary64 number has as few digits as read back to that number, and is
the nearest of those to it. For each count of digits only the two points of that decimal grid next
to the number can be the nearest, so they are the only ones tried.
-/

set_option autoImplicit false

namespace Uplift

/-- The decimal `digits * 10 ^ exponent`. -/
structure Decimal where
  digits : Nat
  exponent : Int
deriving DecidableEq, Repr

namespace Decimal

/-- Moves trailing zeros of the digits into the exponent; `count` bounds how many. -/
def stripZeros (count : Nat) (decimal : Decimal) : Decimal :=
  match count with
  | 0 => decimal
  | count + 1 =>
      if decimal.digits ≠ 0 ∧ decimal.digits % 10 = 0 then
        stripZeros count ⟨decimal.digits / 10, decimal.exponent + 1⟩
      else decimal

end Decimal

/-- The exact interval of reals that round to a binary64 number, in units of a quarter of its last
place. The number itself is `center`; `closed` says whether the two ends round to it as well. -/
structure RoundingInterval where
  low : Nat
  center : Nat
  high : Nat
  closed : Bool
  unitScale : Int

namespace Binary64

/-- Below a power of two the numbers lie twice as dense, so the lower half of the interval is
only half as wide there. -/
def roundingInterval (number : Binary64) : RoundingInterval :=
  let significand := number.significand
  let narrow := number.fractionField = 0 ∧ 1 < number.exponentField
  { low := 4 * significand - (if narrow then 1 else 2)
    center := 4 * significand
    high := 4 * significand + 2
    closed := significand % 2 = 0
    unitScale := number.scale - 2 }

private def magnitude (number : Binary64) : Nat × Nat :=
  (number.significand * twoTo number.scale.toNat, twoTo (-number.scale).toNat)

def decimalOrder (number : Binary64) : Int :=
  let (numerator, denominator) := number.magnitude
  ((Nat.toDigits 10 (numerator * tenTo 400 / denominator)).length : Int) - 401

end Binary64

namespace RoundingInterval

/-- The point of the grid `10 ^ exponent` that lies in the interval and is nearest to its center, if
the interval holds one. An exact tie goes to the even point. -/
def gridPoint? (interval : RoundingInterval) (exponent : Int) : Option Nat :=
  let unit := twoTo interval.unitScale.toNat * tenTo (-exponent).toNat
  let step := tenTo exponent.toNat * twoTo (-interval.unitScale).toNat
  let contains (point : Nat) : Bool :=
    if interval.closed then
      interval.low * unit ≤ point * step && point * step ≤ interval.high * unit
    else
      interval.low * unit < point * step && point * step < interval.high * unit
  let below := interval.center * unit / step
  let above := below + 1
  match contains below, contains above with
  | false, false => none
  | true, false => some below
  | false, true => some above
  | true, true =>
      let distanceBelow := interval.center * unit - below * step
      let distanceAbove := above * step - interval.center * unit
      if distanceBelow < distanceAbove then some below
      else if distanceAbove < distanceBelow then some above
      else some (if below % 2 = 0 then below else above)

end RoundingInterval

namespace Binary64

/-- The decimal of fewest digits that reads back as the given nonzero finite number. Seventeen
digits always do, so the search ends there. -/
def shortest (number : Binary64) : Decimal :=
  let interval := number.roundingInterval
  let order := number.decimalOrder
  let found := (List.range 17).findSome? fun (count : Nat) =>
    let exponent := order - (count : Int)
    (interval.gridPoint? exponent).map fun point => Decimal.mk point exponent
  (found.getD ⟨0, 0⟩).stripZeros 17

end Binary64

end Uplift
