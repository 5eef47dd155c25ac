import Uplift.Report

/-!
# Faults

What can go wrong with a value or inside a step. A fault has a name and a message; both become part
of the error that a failing step is reported with. Every fault, also one outside the catalogue, can
be given as a report.
-/

set_option autoImplicit false

namespace Uplift

/-- What can go wrong with a value, or inside a step. -/
inductive Fault where
  | expectedObject (place : String) (found : Kind)
  | expectedArray (place : String) (found : Kind)
  | resultNotObject (found : Kind)
  | tooManyDigits (count : Nat)
  | integerTooLong
  /-- A look-up found nothing under the key, which is given as it is shown. -/
  | missingKey (shownKey : String)
  | unusableKey (typeName : String)
  /-- Two values of the named types have no order; the sign tells what was asked. -/
  | unordered (sign first second : String)
  | undigestible (subject typeName : String)
  | noEntries (typeName : String)
  | noItems (typeName : String)
  /-- An error of the catalogue, with the identity that it carries. -/
  | reported (report : Report)
  /-- Any other failure, under its own name. -/
  | other (name message : String)

namespace Fault

def digitLimit : Nat := 4300

/-- A surrogate that stands alone is no character, and no text that is encoded holds one. Texts are
made of characters here, so a text with a lone surrogate is refused where it is read. -/
def loneSurrogate : Fault := other "UnicodeEncodeError" "surrogates not allowed"

def name : Fault → String
  | expectedObject .. | expectedArray .. => "DocumentShapeError"
  | resultNotObject _ | unusableKey _ | unordered .. | undigestible .. | noItems _ => "TypeError"
  | tooManyDigits _ | integerTooLong => "ValueError"
  | missingKey _ => "KeyError"
  | noEntries _ => "AttributeError"
  | reported report => report.code.title
  | other name _ => name

def message : Fault → String
  | expectedObject place found => "Expected object at '" ++ place ++ "', got " ++ found.name
  | expectedArray place found => "Expected array at '" ++ place ++ "', got " ++ found.name
  | resultNotObject found => "migration must return an object, got " ++ found.name
  | tooManyDigits count =>
      "Exceeds the limit (" ++ toString digitLimit
        ++ " digits) for integer string conversion: value has " ++ toString count
        ++ " digits; use sys.set_int_max_str_digits() to increase the limit"
  | integerTooLong =>
      "Exceeds the limit (" ++ toString digitLimit
        ++ " digits) for integer string conversion;"
        ++ " use sys.set_int_max_str_digits() to increase the limit"
  | missingKey shownKey => shownKey
  | unusableKey typeName => "unhashable type: '" ++ typeName ++ "'"
  | unordered sign first second =>
      "'" ++ sign ++ "' not supported between instances of '" ++ first ++ "' and '" ++ second ++ "'"
  | undigestible subject typeName =>
      subject ++ " para hashing deve ser dict, recebido: " ++ typeName
  | noEntries typeName => "'" ++ typeName ++ "' object has no attribute 'get'"
  | noItems typeName => "'" ++ typeName ++ "' object is not iterable"
  | reported report => report.message
  | other _ message => message

/-- The report of a fault: its own if it carries one, and that of an internal error otherwise. -/
def report : Fault → Report
  | reported report => report
  | fault => Report.internal fault.name fault.message

end Fault

namespace Scalar

/-- Whether the scalar can be written as text; integers of too many digits cannot. -/
def isWritable : Scalar → Bool
  | int value => value.natAbs < tenTo Fault.digitLimit
  | _ => true

end Scalar

end Uplift
