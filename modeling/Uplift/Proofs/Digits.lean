import Uplift.Number.Digits

/-!
# Written numbers

The decimal digits of a number are a run that reads back as that number, and a run stands for a
number with no more digits than it has itself. So whatever was read can be written again.
-/

set_option autoImplicit false

namespace Uplift.Digits

theorem value_eq_ofDigitChars (chars : List Char) :
    value chars = Nat.ofDigitChars 10 chars 0 := by
  simp only [value, Nat.ofDigitChars_eq_foldl, valueOf, Nat.mul_comm]

theorem value_toDigits (number : Nat) : value (Nat.toDigits 10 number) = number := by
  rw [value_eq_ofDigitChars, Nat.ofDigitChars_ten_toDigits]

theorem isRun_toDigits (number : Nat) : isRun (Nat.toDigits 10 number) = true := by
  have digits : ∀ char ∈ Nat.toDigits 10 number, char.isDigit = true := by
    intro char member
    exact Nat.isDigit_of_mem_toDigits (by decide) (by decide) member
  simpa [isRun] using digits

theorem toNat_of_isDigit {char : Char} (digit : char.isDigit = true) :
    48 ≤ char.toNat ∧ char.toNat ≤ 57 := by
  simpa [Char.isDigit, UInt32.le_iff_toNat_le] using digit

theorem value_lt_tenTo_length {chars : List Char} (digits : ∀ char ∈ chars, char.isDigit = true) :
    value chars < tenTo chars.length := by
  rw [value_eq_ofDigitChars]
  induction chars with
  | nil => simp [tenTo]
  | cons char rest ih =>
      have tail := ih fun other member => digits other (.tail _ member)
      have head : char.toNat - '0'.toNat ≤ 9 := by
        have bounds := toNat_of_isDigit (digits char (.head _))
        have zero : '0'.toNat = 48 := rfl
        omega
      rw [Nat.ofDigitChars_cons, Nat.ofDigitChars_eq_ofDigitChars_zero]
      simp only [tenTo, Nat.pow_eq, List.length_cons, Nat.pow_succ, Nat.mul_zero,
        Nat.zero_add] at tail ⊢
      have scaled := Nat.mul_le_mul_left (10 ^ rest.length) head
      omega

private theorem tenTo_le_tenTo {small large : Nat} (le : small ≤ large) :
    tenTo small ≤ tenTo large :=
  Nat.pow_le_pow_right (by decide) le

theorem length_toDigits_le_iff {number limit : Nat} (positive : 0 < limit) :
    (Nat.toDigits 10 number).length ≤ limit ↔ number < tenTo limit :=
  Nat.length_toDigits_le_iff (by decide) positive

theorem isWritable_int_iff {number : Int} :
    Scalar.isWritable (.int number) = true ↔ number.natAbs < tenTo Fault.digitLimit := by
  simp only [Scalar.isWritable, decide_eq_true_eq]

theorem isWritable_of_lt_tenTo {number : Int} {digits : Nat} (few : digits ≤ Fault.digitLimit)
    (below : number.natAbs < tenTo digits) : Scalar.isWritable (.int number) = true := by
  rw [isWritable_int_iff]
  exact Nat.lt_of_lt_of_le below (tenTo_le_tenTo few)

private theorem tenTo_pos (exponent : Nat) : 0 < tenTo exponent :=
  Nat.pow_pos (by decide)

theorem isWritable_zero : Scalar.isWritable (.int 0) = true :=
  isWritable_of_lt_tenTo (Nat.zero_le _) (tenTo_pos 0)

/-- A number of which the digits were read has no more digits than are written. -/
theorem isWritable_of_read {chars : List Char} {number : Nat} (run : isRun chars = true)
    (result : read chars = .ok number) : Scalar.isWritable (.int number) = true := by
  simp only [read] at result
  split at result
  · cases result
  · rename_i short
    cases result
    have digits : ∀ char ∈ chars, char.isDigit = true := by
      simp only [isRun, Bool.and_eq_true, List.all_eq_true] at run
      exact run.2
    have below := value_lt_tenTo_length digits
    have bound := tenTo_le_tenTo (Nat.le_of_not_lt short)
    rw [isWritable_int_iff, Int.natAbs_natCast]
    exact Nat.lt_of_lt_of_le below bound

theorem isWritable_of_readSigned {chars : List Char} {number : Int}
    (run : isSignedRun chars = true) (result : readSigned chars = .ok number) :
    Scalar.isWritable (.int number) = true := by
  unfold isSignedRun at run
  unfold readSigned at result
  generalize splitSign chars = signed at run result
  obtain ⟨negative, digits⟩ := signed
  simp only at run result
  cases magnitude : read digits with
  | error fault =>
      rw [magnitude] at result
      cases result
  | ok absolute =>
      have writable := isWritable_of_read run magnitude
      rw [magnitude] at result
      cases result
      rw [isWritable_int_iff] at writable ⊢
      split
      · rwa [Int.natAbs_neg]
      · exact writable

theorem read_toDigits {number : Nat} (writable : Scalar.isWritable (.int number) = true) :
    read (Nat.toDigits 10 number) = .ok number := by
  rw [isWritable_int_iff, Int.natAbs_natCast] at writable
  have short := (length_toDigits_le_iff (by decide)).mpr writable
  rw [read, if_neg (Nat.not_lt.mpr short), value_toDigits]

end Uplift.Digits
