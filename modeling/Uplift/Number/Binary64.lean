import Uplift.Number.Power

/-!
# Binary64 numbers

A binary64 number is kept as its bit pattern, so that equality is decidable and every question
about it is answered in exact integer arithmetic. A finite number is `significand * 2 ^ scale`,
with its sign apart. Counted in `2 ^ -1074`, the smallest step of the format, every finite number
and every integer is an integer: this is how the two are compared.
-/

set_option autoImplicit false

namespace Uplift

/-- A binary64 number, given by its bit pattern. -/
structure Binary64 where
  bits : UInt64
deriving DecidableEq, Inhabited

namespace Binary64

/-- The pattern with the given sign, exponent field and fraction field. -/
def ofFields (negative : Bool) (exponentField fractionField : Nat) : Binary64 :=
  ⟨UInt64.ofNat ((if negative then twoTo 63 else 0) + exponentField * twoTo 52 + fractionField)⟩

/-- Whether the sign bit is set; it is also set in negative zero. -/
def isNegative (number : Binary64) : Bool :=
  twoTo 63 ≤ number.bits.toNat

def exponentField (number : Binary64) : Nat :=
  number.bits.toNat / twoTo 52 % 2048

def fractionField (number : Binary64) : Nat :=
  number.bits.toNat % twoTo 52

def isNaN (number : Binary64) : Bool :=
  number.exponentField == 2047 && number.fractionField != 0

def isInfinite (number : Binary64) : Bool :=
  number.exponentField == 2047 && number.fractionField == 0

def isFinite (number : Binary64) : Bool :=
  number.exponentField != 2047

/-- The integer significand of a finite number; its leading bit is implicit in a normal number. -/
def significand (number : Binary64) : Nat :=
  if number.exponentField = 0 then number.fractionField else number.fractionField + twoTo 52

def scale (number : Binary64) : Int :=
  (max number.exponentField 1 : Nat) - 1075

def steps (number : Binary64) : Int :=
  let magnitude : Int := (number.significand * twoTo (max number.exponentField 1 - 1) : Nat)
  if number.isNegative then -magnitude else magnitude

def stepsOfInt (value : Int) : Int :=
  value * (twoTo 1074 : Nat)

def neg (number : Binary64) : Binary64 :=
  ofFields (!number.isNegative) number.exponentField number.fractionField

def positiveZero : Binary64 := ofFields false 0 0

def infinity (negative : Bool) : Binary64 := ofFields negative 2047 0

def nan : Binary64 := ofFields false 2047 (twoTo 51)

/-- Not-a-number patterns that differ from each other; each stands for an occurrence of its own. -/
def nanNumbered (index : Nat) : Binary64 :=
  ofFields false 2047 (twoTo 51 + index % twoTo 51)

end Binary64

end Uplift
