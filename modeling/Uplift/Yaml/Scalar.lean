import Uplift.Number.FloatReading
import Uplift.Text.Base64
import Uplift.Text.Lowercase
import Uplift.Text.Numeral
import Uplift.Text.Quoted
import Uplift.Yaml.Tag

/-!
# Values of scalars

The value of a YAML scalar by its type. A plain scalar without a tag has the form of its type; one
with a tag may have any form, and then reading it may be a fault.
-/

set_option autoImplicit false

namespace Uplift.Yaml

def valueFault {α : Type} (message : String) : Except Error α :=
  .error (.fault (.other "ValueError" message))

namespace Integer

def digit? (base : Nat) (char : Char) : Option Nat :=
  let value :=
    if char.isDigit then some (char.toNat - '0'.toNat)
    else if 'a' ≤ char ∧ char ≤ 'f' then some (char.toNat - 'a'.toNat + 10)
    else if 'A' ≤ char ∧ char ≤ 'F' then some (char.toNat - 'A'.toNat + 10)
    else none
  value.filter (· < base)

/-- The digits without the mark of their base, a zero and a letter. -/
def withoutBaseMark (base : Nat) (chars : List Char) : List Char :=
  let letter := if base = 2 then 'b' else if base = 8 then 'o' else 'x'
  match chars with
  | '0' :: mark :: rest => if base ≠ 10 ∧ mark.toLower = letter then rest else chars
  | _ => chars

def shownLength : Nat := 200

/-- Reads digits of a base, with white space around them, a sign and the mark of the base if they
are there. Only decimal digits are limited in number, whatever follows them. -/
def digits (base : Nat) (chars : List Char) : Except Error Int :=
  let (negative, marked) := Digits.splitSign (Numeral.chars chars)
  let run := withoutBaseMark base marked
  let values := (run.map (digit? base)).takeWhile Option.isSome
  if base = 10 ∧ Fault.digitLimit < values.length then
    .error (.fault (.tooManyDigits values.length))
  else if run.isEmpty || values.length < run.length then
    let shown := (Text.quoted (String.ofList chars)).toList.take shownLength
    valueFault ("invalid literal for int() with base " ++ toString base ++ ": "
      ++ String.ofList shown)
  else
    let value := values.foldl (fun total digit => total * base + digit.getD 0) 0
    .ok (if negative then -(value : Int) else value)

/-- Numbers in front of and between colons, each worth sixty times the one after it. -/
def sexagesimal (chars : List Char) : Except Error Int :=
  (splitColons chars).foldlM (fun total part => do
    let part ← digits 10 part
    return total * 60 + part) 0
where
  splitColons : List Char → List (List Char)
    | [] => [[]]
    | char :: rest =>
        match splitColons rest with
        | [] => [[]]
        | part :: parts => if char = ':' then [] :: part :: parts else (char :: part) :: parts

def magnitude (chars : List Char) : Except Error Int :=
  match chars with
  | ['0'] => .ok 0
  | '0' :: 'b' :: rest => digits 2 rest
  | '0' :: 'x' :: rest => digits 16 rest
  | '0' :: rest => digits 8 ('0' :: rest)
  | [] => .error (.fault (.other "IndexError" "string index out of range"))
  | _ => if chars.contains ':' then sexagesimal chars else digits 10 chars

/-- Reads an integer; low lines do not count. -/
def read (text : String) : Except Error Int := do
  let chars := text.toList.filter (· ≠ '_')
  let negative := chars.head? == some '-'
  let value ← magnitude (Form.unsigned chars)
  return if negative then -value else value

end Integer

namespace Float

/-- The most parts that a sexagesimal number may have: the power of sixty that belongs to a further
one is beyond all numbers. -/
def mostParts : Nat := 174

/-- Sums sexagesimal parts, the last of which comes first. The powers of sixty are rounded
themselves. -/
def sumParts (power : Nat) (total : Binary64) : List Binary64 → Binary64
  | [] => total
  | part :: rest =>
      let factor := Binary64.nearest false (Nat.pow 60 power) 1
      sumParts (power + 1) (total.add (part.mul factor)) rest

/-- A decimal number of any form, or one of the words that stand for infinity and not-a-number. -/
def decimal (chars : List Char) : Except Error Binary64 :=
  let number := Numeral.chars chars
  match FloatReading.read? number with
  | some value => .ok value
  | none =>
      let (negative, word) := Digits.splitSign number
      if ["inf", "infinity"].contains (String.ofList word) then .ok (.infinity negative)
      else if String.ofList word = "nan" then .ok .nan
      else
        valueFault ("could not convert string to float: " ++ Text.quoted (String.ofList chars))

def magnitude (chars : List Char) : Except Error Binary64 := do
  if chars = ".inf".toList then return .infinity false
  else if chars.contains ':' then
    let parts ← (Integer.sexagesimal.splitColons chars).mapM decimal
    if mostParts < parts.length then
      .error (.fault (.other "OverflowError" "int too large to convert to float"))
    else return sumParts 0 .positiveZero parts.reverse
  else decimal chars

/-- Reads a number; low lines and case do not count. The word for not-a-number, with a point in
front, stands for one and the same of them; any other text that has no number as its value gives
`own`. -/
def read (own : Binary64) (text : String) : Except Error Binary64 := do
  let chars := (Text.lowercase (String.ofList (text.toList.filter (· ≠ '_')))).toList
  if chars.isEmpty then .error (.fault (.other "IndexError" "string index out of range"))
  else if Form.unsigned chars = ".nan".toList then return .nan
  else
    let value ← magnitude (Form.unsigned chars)
    return if value.isNaN then own else if chars.head? == some '-' then value.neg else value

end Float

namespace Timestamp

def date (year month day : Nat) : Except Error Date :=
  if year = 0 then valueFault "year 0 is out of range"
  else if month = 0 ∨ 12 < month then valueFault "month must be in 1..12"
  else if day = 0 ∨ Date.daysInMonth year month < day then
    valueFault "day is out of range for month"
  else .ok ⟨year, month, day⟩

/-- Microseconds from the digits of a fraction; only the first six count. -/
def microseconds (fraction : List Char) : Nat :=
  let digits := fraction.take 6
  Digits.value digits * tenTo (6 - digits.length)

/-- An offset in minutes that is a day or more, for messages: days, and the seconds that are left
of them. -/
def offsetShown (minutes : Int) : String :=
  let seconds := minutes % 1440 * 60
  "datetime.timedelta(days=" ++ toString (minutes / 1440)
    ++ (if seconds = 0 then "" else ", seconds=" ++ toString seconds) ++ ")"

def checkOffset (minutes : Int) : Except Error Unit :=
  if minutes.natAbs < 1440 then .ok ()
  else
    valueFault ("offset must be a timedelta strictly between -timedelta(hours=24) and "
      ++ "timedelta(hours=24), not " ++ offsetShown minutes ++ ".")

def read (text : String) : Except Error Scalar :=
  match Form.timestamp? (Form.significant text.toList) with
  | none =>
      .error (.fault (.other "AttributeError" "'NoneType' object has no attribute 'groupdict'"))
  | some found =>
      match found.time with
      | none => (date found.year found.month found.day).map Scalar.date
      | some (hour, minute, second, fraction) => do
          found.offset.forM checkOffset
          let date ← date found.year found.month found.day
          if 23 < hour then valueFault "hour must be in 0..23"
          else if 59 < minute then valueFault "minute must be in 0..59"
          else if 59 < second then valueFault "second must be in 0..59"
          else
            return .moment
              ⟨date, hour, minute, second, microseconds fraction,
                found.offset.map fun minutes => minutes * 60⟩

end Timestamp

/-- Reads a truth value; case does not count. -/
def readBool (text : String) : Except Error Bool :=
  let word := Text.lowercase text
  if ["yes", "true", "on"].contains word then .ok true
  else if ["no", "false", "off"].contains word then .ok false
  else .error (.fault (.missingKey (Text.quoted word)))

/-- Reads bytes from their text, in which only ASCII may stand. -/
def readBinary (text : String) : Except Error (List UInt8) :=
  let chars := text.toList
  if chars.any fun char => 0x7f < char.toNat then .error (.misplacedTag Tag.binary.name)
  else
    match Base64.decode? chars with
    | none => .error (.misplacedTag Tag.binary.name)
    | some bytes => .ok bytes

/-- The value of a scalar of the given type. `own` is the not-a-number that belongs to this scalar
alone. -/
def Tag.read (tag : Tag) (own : Binary64) (text : String) : Except Error Scalar :=
  match tag with
  | .null => .ok .null
  | .bool => (readBool text).map Scalar.bool
  | .int => (Integer.read text).map Scalar.int
  | .float => (Float.read own text).map Scalar.float
  | .text => .ok (.text text)
  | .timestamp => Timestamp.read text
  | .binary => (readBinary text).map Scalar.bytes
  | .sequence | .mapping => .error (.misplacedTag tag.name)
  | .merge | .value | .unknown _ => .error (.unknownTag tag.name)

end Uplift.Yaml
