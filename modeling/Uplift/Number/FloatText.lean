import Uplift.Number.Shortest

/-!
# Written binary64 numbers

The text of a binary64 number: the digits of its shortest decimal, laid out as a `FloatLayout` says.
Digits are positional while the leading one stands between the fourth place after the point and the
sixteenth before it, and in exponent form otherwise.
-/

set_option autoImplicit false

namespace Uplift

/-- What the formats that write binary64 numbers decide for themselves. -/
structure FloatLayout where
  nan : String
  infinity : String
  negativeInfinity : String
  /-- Whether a one-digit significand in exponent form is given a fraction too, as in `1.0e+16`. -/
  fractionBeforeExponent : Bool

namespace FloatLayout

def shown : FloatLayout := ⟨"nan", "inf", "-inf", false⟩

def canonical : FloatLayout := ⟨"NaN", "Infinity", "-Infinity", false⟩

def yaml : FloatLayout := ⟨".nan", ".inf", "-.inf", true⟩

end FloatLayout

namespace Decimal

def digitText (decimal : Decimal) : String :=
  toString decimal.digits

private def zeros (count : Nat) : String :=
  String.ofList (List.replicate count '0')

/-- The digits with the point after the first `point` of them; at least one digit stands on
either side of it. -/
def positional (text : String) (point : Int) : String :=
  let length : Int := text.length
  if point ≤ 0 then "0." ++ zeros (-point).toNat ++ text
  else if length ≤ point then text ++ zeros (point - length).toNat ++ ".0"
  else (text.take point.toNat).toString ++ "." ++ (text.drop point.toNat).toString

/-- One digit, the others as a fraction, and an exponent of two digits or more. -/
def exponential (layout : FloatLayout) (text : String) (exponent : Int) : String :=
  let leading := (text.take 1).toString
  let rest := (text.drop 1).toString
  let fraction :=
    if rest.isEmpty then (if layout.fractionBeforeExponent then ".0" else "") else "." ++ rest
  let sign := if exponent < 0 then "-" else "+"
  let written := toString exponent.natAbs
  leading ++ fraction ++ "e" ++ sign ++ zeros (2 - written.length) ++ written

end Decimal

namespace Binary64

def text (layout : FloatLayout) (number : Binary64) : String :=
  if number.isNaN then layout.nan
  else if number.isInfinite then
    if number.isNegative then layout.negativeInfinity else layout.infinity
  else
    let sign := if number.isNegative then "-" else ""
    if number.significand = 0 then sign ++ "0.0"
    else
      let decimal := number.shortest
      let digits := decimal.digitText
      let point : Int := digits.length + decimal.exponent
      if -4 < point ∧ point ≤ 16 then sign ++ Decimal.positional digits point
      else sign ++ Decimal.exponential layout digits (point - 1)

end Binary64

end Uplift
