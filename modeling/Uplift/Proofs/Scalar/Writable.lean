import Uplift.Proofs.Digits
import Uplift.Proofs.Registry.History

/-!
# Keys of too many digits stand alone

An integer of too many digits is larger than every binary64 number, so as a key it stands for itself
only: of scalars that are one key either all can be written or none.
-/

set_option autoImplicit false

namespace Uplift

private theorem twoTo_le_twoTo (small large : Nat) (le : small ≤ large) :
    twoTo small ≤ twoTo large :=
  Nat.pow_le_pow_right (by decide) le

private theorem twoTo_le_tenTo (exponent : Nat) : twoTo exponent ≤ tenTo exponent :=
  Nat.pow_le_pow_left (by decide) exponent

private theorem twoTo_mul_twoTo (one two three four : Nat) (same : one + two = three + four) :
    twoTo one * twoTo two = twoTo three * twoTo four := by
  simp only [twoTo, Nat.pow_eq, ← Nat.pow_add, same]

namespace Binary64

private theorem significand_lt (number : Binary64) : number.significand < twoTo 53 := by
  have fraction : number.fractionField < twoTo 52 := Nat.mod_lt _ (twoTo_pos 52)
  have double : twoTo 53 = twoTo 52 + twoTo 52 := rfl
  unfold significand
  split <;> omega

theorem natAbs_steps_lt (number : Binary64) : number.steps.natAbs < twoTo 53 * twoTo 2046 := by
  have exponent : max number.exponentField 1 - 1 ≤ 2046 := by
    have field : number.exponentField < 2048 := Nat.mod_lt _ (by decide)
    omega
  have magnitude : number.steps.natAbs =
      number.significand * twoTo (max number.exponentField 1 - 1) := by
    unfold steps
    split
    · exact (Int.natAbs_neg _).trans (Int.natAbs_natCast _)
    · exact Int.natAbs_natCast _
  have scale := twoTo_le_twoTo _ _ exponent
  rw [magnitude]
  exact Nat.lt_of_le_of_lt (Nat.mul_le_mul_left _ scale)
    (Nat.mul_lt_mul_of_pos_right (significand_lt number) (twoTo_pos 2046))

end Binary64

namespace Scalar

private theorem isWritable_of_stepsOfInt {value : Int} {number : Binary64}
    (same : Binary64.stepsOfInt value = number.steps) : isWritable (.int value) = true := by
  have bound := number.natAbs_steps_lt
  rw [← same, Binary64.stepsOfInt, Int.natAbs_mul, Int.natAbs_natCast,
    twoTo_mul_twoTo 53 2046 1025 1074 rfl] at bound
  have below : value.natAbs < twoTo 1025 := Nat.lt_of_mul_lt_mul_right bound
  exact Digits.isWritable_of_lt_tenTo (by decide)
    (Nat.lt_of_lt_of_le below (twoTo_le_tenTo 1025))

/-- Of scalars that are one key either all can be written or none. -/
theorem isWritable_of_sameKey {first second : Scalar} (same : first.sameKey second = true)
    (writable : second.isWritable = true) : first.isWritable = true := by
  cases first with
  | int value =>
      cases second with
      | int other =>
          rw [sameKey_int] at same
          cases of_decide_eq_true same
          exact writable
      | bool other =>
          have integer : sameKey (.int value) (.int (if other then 1 else 0)) = true := same
          rw [sameKey_int] at integer
          rw [of_decide_eq_true integer]
          have digit : (if other then 1 else 0 : Int).natAbs < tenTo 1 := by
            cases other <;> decide
          exact Digits.isWritable_of_lt_tenTo (by decide) digit
      | float number =>
          have keys := sameKey_iff.mp same
          simp only [key] at keys
          split at keys
          · cases keys
          · split at keys
            · cases keys
            · exact isWritable_of_stepsOfInt (Key.number.inj keys)
      | null | text value | date value | moment value | bytes value =>
          cases sameKey_iff.mp same
  | null | bool value | float value | text value | date value | moment value | bytes value => rfl

end Scalar

end Uplift
