import Uplift.Fault

/-!
# Runs of digits

Integers in documents are written in ASCII digits only. A run of more digits than
`Fault.digitLimit` is not converted.
-/

set_option autoImplicit false

namespace Uplift.Digits

/-- A text of ASCII digits, at least one. -/
def isRun (chars : List Char) : Bool :=
  !chars.isEmpty && chars.all Char.isDigit

def valueOf (char : Char) : Nat :=
  char.toNat - '0'.toNat

def value (chars : List Char) : Nat :=
  chars.foldl (fun total char => total * 10 + valueOf char) 0

/-- Reads a run of digits; leading zeros count as digits. -/
def read (chars : List Char) : Except Fault Nat :=
  if Fault.digitLimit < chars.length then .error (.tooManyDigits chars.length)
  else .ok (value chars)

/-- A sign that may stand before a run of digits, and the run. -/
def splitSign : List Char → Bool × List Char
  | '-' :: rest => (true, rest)
  | '+' :: rest => (false, rest)
  | chars => (false, chars)

/-- Reads a run of digits with an optional sign, which is no digit. -/
def readSigned (chars : List Char) : Except Fault Int :=
  let (negative, digits) := splitSign chars
  (read digits).map fun magnitude => if negative then -(magnitude : Int) else magnitude

def isSignedRun (chars : List Char) : Bool :=
  isRun (splitSign chars).2

end Uplift.Digits
