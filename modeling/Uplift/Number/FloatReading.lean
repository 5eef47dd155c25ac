import Uplift.Number.Digits
import Uplift.Number.Nearest

/-!
# Reading decimal numbers

A decimal number has a run of digits, a fraction, or both, and may have a sign in front and an
exponent of ten behind. Its value is rounded to the nearest binary64 number.
-/

set_option autoImplicit false

namespace Uplift.FloatReading

/-- The parts of a written decimal number, which is `digits * 10 ^ exponent`. -/
structure Parts where
  negative : Bool
  digits : List Char
  exponent : Int

def Parts.value (parts : Parts) : Binary64 :=
  .nearestDecimal parts.negative (Digits.value parts.digits) parts.exponent

def exponent? (chars : List Char) : Option Int :=
  let (negative, digits) := Digits.splitSign chars
  if Digits.isRun digits then
    some (if negative then -(Digits.value digits : Int) else Digits.value digits)
  else none

/-- Splits a decimal number into its parts; `none` if the text is no decimal number. -/
def parts? (chars : List Char) : Option Parts :=
  let (negative, rest) := Digits.splitSign chars
  let whole := rest.takeWhile Char.isDigit
  let rest := rest.dropWhile Char.isDigit
  let (fraction, rest) :=
    match rest with
    | '.' :: after => (after.takeWhile Char.isDigit, after.dropWhile Char.isDigit)
    | _ => ([], rest)
  if whole.isEmpty && fraction.isEmpty then none
  else
    let shift : Int := fraction.length
    match rest with
    | [] => some ⟨negative, whole ++ fraction, -shift⟩
    | mark :: after =>
        if mark = 'e' ∨ mark = 'E' then
          (exponent? after).map fun exponent => ⟨negative, whole ++ fraction, exponent - shift⟩
        else none

def read? (chars : List Char) : Option Binary64 :=
  (parts? chars).map Parts.value

end Uplift.FloatReading
