import Uplift.Proofs.Digits
import Uplift.Proofs.Value.Reading

/-!
# Scalars without words

A text that was put together is blank exactly if all of its parts are. A number, a date and a
sequence of bytes are written with characters that can be seen, so that only null and texts are
without words.
-/

set_option autoImplicit false

namespace Uplift

@[simp] theorem Text.isBlank_append (first second : String) :
    isBlank (first ++ second) = (isBlank first && isBlank second) := by
  rw [isBlank, String.toList_append, List.all_append]
  rfl

theorem Text.isBlankChar_of_isDigit {char : Char} (digit : char.isDigit = true) :
    isBlankChar char = false := by
  have bounds := Digits.toNat_of_isDigit digit
  simp only [isBlankChar, Bool.or_eq_false_iff, Bool.and_eq_false_iff, decide_eq_false_iff_not,
    beq_eq_false_iff_ne]
  omega

private theorem isBlank_natural (number : Nat) : Text.isBlank (toString number) = false := by
  have run := Digits.isRun_toDigits number
  rw [Text.isBlank, Nat.toString_eq_repr, Nat.repr, String.toList_ofList]
  cases digits : Nat.toDigits 10 number with
  | nil =>
      rw [digits] at run
      cases run
  | cons first rest =>
      rw [digits, Digits.isRun, Bool.and_eq_true, List.all_cons, Bool.and_eq_true] at run
      rw [List.all_cons, Text.isBlankChar_of_isDigit run.2.1, Bool.false_and]

private theorem isBlank_integer (number : Int) : Text.isBlank (toString number) = false := by
  cases number with
  | ofNat number => exact isBlank_natural number
  | negSucc number =>
      change Text.isBlank ("-" ++ toString (number + 1)) = false
      rw [Text.isBlank_append, isBlank_natural, Bool.and_false]

private theorem isBlank_date (date : Date) : Text.isBlank date.text = false := by
  have hyphen : Text.isBlank "-" = false := by decide
  simp [Date.text, hyphen]

private theorem isBlank_moment (moment : Moment) : Text.isBlank moment.text = false := by
  simp [Moment.text, isBlank_date]

private theorem isBlank_positional (digits : String) (point : Int) :
    Text.isBlank (Decimal.positional digits point) = false := by
  have point_seen : Text.isBlank "." = false := by decide
  have leading_seen : Text.isBlank "0." = false := by decide
  have fraction_seen : Text.isBlank ".0" = false := by decide
  unfold Decimal.positional
  dsimp only
  split
  · simp only [Text.isBlank_append, leading_seen, Bool.false_and]
  · split
    · simp only [Text.isBlank_append, fraction_seen, Bool.and_false]
    · simp only [Text.isBlank_append, point_seen, Bool.and_false, Bool.false_and]

private theorem isBlank_exponential (layout : FloatLayout) (digits : String) (exponent : Int) :
    Text.isBlank (Decimal.exponential layout digits exponent) = false := by
  have mark_seen : Text.isBlank "e" = false := by decide
  simp only [Decimal.exponential, Text.isBlank_append, mark_seen, Bool.and_false, Bool.false_and]

private theorem isBlank_float (number : Binary64) :
    Text.isBlank (number.text .shown) = false := by
  have zero_seen : Text.isBlank "0.0" = false := by decide
  unfold Binary64.text
  split
  · decide
  · split
    · split <;> decide
    · dsimp only
      split
      · rw [Text.isBlank_append, zero_seen, Bool.and_false]
      · split
        · rw [Text.isBlank_append, isBlank_positional, Bool.and_false]
        · rw [Text.isBlank_append, isBlank_exponential, Bool.and_false]

private theorem isBlank_bytes (bytes : List UInt8) :
    Text.isBlank (Text.quotedBytes bytes) = false := by
  rw [Text.isBlank, Text.quotedBytes, String.toList_ofList]
  rfl

/-- Without words are null and the texts of white space. -/
theorem Scalar.isWordless_iff {scalar : Scalar} :
    scalar.isWordless = true ↔
      scalar = .null ∨ ∃ written, scalar = .text written ∧ Text.isBlank written = true := by
  cases scalar with
  | null => simp [isWordless, wording, Text.isBlank]
  | bool value => cases value <;> simp [isWordless, wording, Text.isBlank, Text.isBlankChar]
  | text written => simp [isWordless, wording, shown]
  | int value => simpa [isWordless, wording, shown] using isBlank_integer value
  | float value => simp [isWordless, wording, shown, isBlank_float]
  | date value => simp [isWordless, wording, shown, isBlank_date]
  | moment value => simp [isWordless, wording, shown, isBlank_moment]
  | bytes value => simp [isWordless, wording, shown, isBlank_bytes]

theorem Value.isWordless_iff {value : Value} :
    value.isWordless = true ↔
      value = .null ∨ ∃ written, value = .text written ∧ Text.isBlank written = true := by
  cases value with
  | scalar scalar => simp [isWordless, Scalar.isWordless_iff]
  | array items => simp [isWordless]
  | object entries => simp [isWordless]

end Uplift
