import Uplift.Fault
import Uplift.Value.Shown

/-!
# The order of scalars

Numbers are ordered by value, texts by their characters, dates by the calendar; scalars of unlike
kinds have no order, and comparing them is a fault.
-/

set_option autoImplicit false

namespace Uplift

/-- What two values may be asked about their order. -/
inductive Comparison where
  | less
  | atMost
  | greater
deriving DecidableEq

def Comparison.sign : Comparison → String
  | less => "<"
  | atMost => "<="
  | greater => ">"

namespace Scalar

/-- Where a number lies: below all finite numbers, among them, or above; a not-a-number nowhere. -/
def position? : Scalar → Option (Option (Int × Int))
  | bool value => some (some (0, Binary64.stepsOfInt (if value then 1 else 0)))
  | int value => some (some (0, Binary64.stepsOfInt value))
  | float value =>
      if value.isNaN then some none
      else if value.isInfinite then some (some (if value.isNegative then -1 else 1, 0))
      else some (some (0, value.steps))
  | _ => none

/-- Whether a scalar is a number that is no number's equal and has no place among them. -/
def isNaN : Scalar → Bool
  | float value => value.isNaN
  | _ => false

/-- Whether one scalar comes before another, if the two have an order. -/
def before? (first second : Scalar) : Option Bool :=
  match first.position?, second.position? with
  | some one, some other =>
      match one, other with
      | some (oneRegion, oneSteps), some (otherRegion, otherSteps) =>
          some (oneRegion < otherRegion || (oneRegion == otherRegion && oneSteps < otherSteps))
      | _, _ => some false
  | _, _ =>
      match first, second with
      | text one, text other => some (one < other)
      | date one, date other => some (one.before other)
      | moment one, moment other =>
          if one.instant.1 = other.instant.1 then some (one.instant.2 < other.instant.2) else none
      | bytes one, bytes other => some (one < other)
      | _, _ => none

/-- The answer to a comparison; a fault if the two have no order. -/
def compares (comparison : Comparison) (first second : Scalar) : Except Fault Bool :=
  let answer :=
    match comparison with
    | .less => first.before? second
    | .greater => second.before? first
    | .atMost =>
        (second.before? first).map fun behind => !behind && !first.isNaN && !second.isNaN
  match answer with
  | some answer => .ok answer
  | none =>
      .error (.unordered comparison.sign first.qualifiedTypeName second.qualifiedTypeName)

/-- Puts a scalar in its place among sorted ones, after those that it does not come before. -/
def insertSorted (scalar : Scalar) : List Scalar → Except Fault (List Scalar)
  | [] => .ok [scalar]
  | first :: rest => do
      if ← compares .less scalar first then return scalar :: first :: rest
      else return first :: (← insertSorted scalar rest)

/-- The scalars in order; a fault if two of them have none. -/
def sorted (scalars : List Scalar) : Except Fault (List Scalar) :=
  scalars.foldlM (fun done scalar => insertSorted scalar done) []

end Scalar

end Uplift
