import Uplift.Scalar.Order

/-!
# The order of values

Arrays are compared item by item, by the first items that are not the same; objects have no order.
-/

set_option autoImplicit false

namespace Uplift.Value

mutual

/-- Whether two values are the same: scalars as keys are, containers by what they hold. The order of
entries does not count. -/
def same : Value → Value → Bool
  | scalar one, scalar other => one.sameKey other
  | array ones, array others => sameItems ones others
  | object ones, object others => ones.length == others.length && sameEntries ones others
  | _, _ => false

def sameItems : List Value → List Value → Bool
  | [], [] => true
  | one :: ones, other :: others => same one other && sameItems ones others
  | _, _ => false

def sameEntries : List (Scalar × Value) → List (Scalar × Value) → Bool
  | [], _ => true
  | (key, one) :: ones, others =>
      (Entries.lookup key others).any (same one) && sameEntries ones others

end

mutual

/-- The answer to a comparison; a fault if the two have no order. -/
def compares (comparison : Comparison) : Value → Value → Except Fault Bool
  | scalar one, scalar other => one.compares comparison other
  | array ones, array others => comparesItems comparison ones others
  | one, other =>
      .error (.unordered comparison.sign one.qualifiedTypeName other.qualifiedTypeName)

def comparesItems (comparison : Comparison) : List Value → List Value → Except Fault Bool
  | [], [] => .ok (comparison == .atMost)
  | [], _ :: _ => .ok (comparison != .greater)
  | _ :: _, [] => .ok (comparison == .greater)
  | one :: ones, other :: others =>
      if same one other then comparesItems comparison ones others
      else compares comparison one other

end

end Uplift.Value
