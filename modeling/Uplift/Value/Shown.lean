import Uplift.Number.FloatText
import Uplift.Text.Blank
import Uplift.Text.Quoted
import Uplift.Value

/-!
# Shown values

The texts that stand for a value. `Scalar.shown` is the text of a scalar on its own, `quoted` is the
unambiguous form that messages use for any value, and `Value.wording` is what a document field
contributes when a text is made from it: containers and null contribute nothing.
-/

set_option autoImplicit false

namespace Uplift

/-- The name of a date's quoted form, with its numbers. -/
def Date.quoted (date : Date) : String :=
  "datetime.date(" ++ toString date.year ++ ", " ++ toString date.month ++ ", "
    ++ toString date.day ++ ")"

namespace Moment

def quotedOffset (offset : Int) : String :=
  if offset = 0 then "datetime.timezone.utc"
  else
    let days := offset.fdiv 86400
    let seconds := offset.fmod 86400
    let parts :=
      (if days = 0 then [] else ["days=" ++ toString days])
        ++ (if seconds = 0 then [] else ["seconds=" ++ toString seconds])
    "datetime.timezone(datetime.timedelta(" ++ ", ".intercalate parts ++ "))"

/-- Seconds are left out if they and the microseconds are zero, microseconds if they are zero. -/
def quoted (moment : Moment) : String :=
  let numbers :=
    [moment.date.year, moment.date.month, moment.date.day, moment.hour, moment.minute]
      ++ (if moment.second = 0 ∧ moment.microsecond = 0 then [] else [moment.second])
      ++ (if moment.microsecond = 0 then [] else [moment.microsecond])
  let zone := (moment.offset.map fun offset => "tzinfo=" ++ quotedOffset offset).toList
  "datetime.datetime(" ++ ", ".intercalate (numbers.map toString ++ zone) ++ ")"

end Moment

namespace Scalar

def typeName : Scalar → String
  | null => "NoneType"
  | bool _ => "bool"
  | int _ => "int"
  | float _ => "float"
  | text _ => "str"
  | date _ => "date"
  | moment _ => "datetime"
  | bytes _ => "bytes"

/-- The name of a scalar's type with the family of types that it belongs to, which messages about
missing abilities of a value give. -/
def qualifiedTypeName : Scalar → String
  | date _ => "datetime.date"
  | moment _ => "datetime.datetime"
  | other => other.typeName

def shown : Scalar → String
  | null => "None"
  | bool value => if value then "True" else "False"
  | int value => toString value
  | float value => value.text .shown
  | text value => value
  | date value => value.text
  | moment value => value.text
  | bytes value => Text.quotedBytes value

def quoted : Scalar → String
  | text value => Text.quoted value
  | date value => value.quoted
  | moment value => value.quoted
  | scalar => scalar.shown

/-- What a scalar contributes to a text: null nothing, a truth value its lower-case word. -/
def wording : Scalar → String
  | null => ""
  | bool value => if value then "true" else "false"
  | scalar => scalar.shown

end Scalar

namespace Value

def typeName : Value → String
  | scalar value => value.typeName
  | array _ => "list"
  | object _ => "dict"

def qualifiedTypeName : Value → String
  | scalar value => value.qualifiedTypeName
  | container => container.typeName

mutual

def quoted : Value → String
  | scalar value => value.quoted
  | array items => "[" ++ ", ".intercalate (quotedItems items) ++ "]"
  | object entries => "\x7b" ++ ", ".intercalate (quotedEntries entries) ++ "\x7d"

def quotedItems : List Value → List String
  | [] => []
  | item :: rest => quoted item :: quotedItems rest

def quotedEntries : List (Scalar × Value) → List String
  | [] => []
  | (key, value) :: rest => (key.quoted ++ ": " ++ quoted value) :: quotedEntries rest

end

/-- The text of a value on its own; containers are quoted. -/
def shown : Value → String
  | scalar value => value.shown
  | container => container.quoted

/-- What a node contributes to a text; containers contribute nothing. -/
def wording : Value → String
  | scalar value => value.wording
  | _ => ""

end Value

end Uplift
