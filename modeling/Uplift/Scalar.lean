import Uplift.Calendar
import Uplift.Number.Binary64

/-!
# Scalars

The leaves of a document. Scalars also serve as keys of objects, and there some of them stand for
the same key: a truth value counts as the integer zero or one, and numbers are one key when they
are equal in value. `Scalar.key` names the key that a scalar stands for, so that "same key" is an
equality.
-/

set_option autoImplicit false

namespace Uplift

/-- A leaf of a document. -/
inductive Scalar where
  | null
  | bool (value : Bool)
  | int (value : Int)
  | float (value : Binary64)
  | text (value : String)
  | date (value : Date)
  | moment (value : Moment)
  | bytes (value : List UInt8)
deriving DecidableEq, Inhabited

/-- What a scalar stands for when it is used as a key. -/
inductive Key where
  | null
  /-- A finite number, counted in steps of `2 ^ -1074`. -/
  | number (steps : Int)
  | infinity (negative : Bool)
  /-- A not-a-number is no other's equal; its pattern tells it apart. -/
  | notANumber (pattern : Binary64)
  | text (value : String)
  | date (value : Date)
  | instant (universal : Bool) (microseconds : Int)
  | bytes (value : List UInt8)
deriving DecidableEq

namespace Scalar

def key : Scalar → Key
  | null => .null
  | bool value => .number (Binary64.stepsOfInt (if value then 1 else 0))
  | int value => .number (Binary64.stepsOfInt value)
  | float value =>
      if value.isNaN then .notANumber value
      else if value.isInfinite then .infinity value.isNegative
      else .number value.steps
  | text value => .text value
  | date value => .date value
  | moment value => .instant value.instant.1 value.instant.2
  | bytes value => .bytes value

def sameKey (first second : Scalar) : Bool :=
  first.key = second.key

/-- The integer that a scalar is; a truth value is one or zero. -/
def asInteger? : Scalar → Option Int
  | bool value => some (if value then 1 else 0)
  | int value => some value
  | _ => none

@[simp] theorem sameKey_refl (scalar : Scalar) : sameKey scalar scalar = true := by
  simp [sameKey]

theorem sameKey_iff {first second : Scalar} :
    sameKey first second = true ↔ first.key = second.key := by
  simp [sameKey]

@[simp] theorem sameKey_text {first second : String} :
    sameKey (.text first) (.text second) = decide (first = second) := by
  simp [sameKey, key]

end Scalar

end Uplift
