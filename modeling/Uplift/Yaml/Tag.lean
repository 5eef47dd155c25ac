import Uplift.Number.Digits
import Uplift.Yaml.Cursor

/-!
# Tags of nodes

The types that YAML gives to nodes. A plain scalar without a tag has the type that its form shows;
forms are told apart by character classes alone, and only ASCII digits are digits.
-/

set_option autoImplicit false

namespace Uplift.Yaml

/-- The type of a node. -/
inductive Tag where
  | null
  | bool
  | int
  | float
  | text
  | timestamp
  | binary
  | merge
  /-- The key of a default value; as a key it is a text. -/
  | value
  | sequence
  | mapping
  | unknown (name : String)
deriving DecidableEq

namespace Tag

def standardNames : String := "tag:yaml.org,2002:"

def ofName (name : String) : Tag :=
  let known : List (String × Tag) :=
    [("null", null), ("bool", bool), ("int", int), ("float", float), ("str", text),
      ("timestamp", timestamp), ("binary", binary), ("seq", sequence), ("map", mapping),
      ("merge", merge), ("value", value)]
  match known.find? fun entry => standardNames ++ entry.1 = name with
  | some (_, tag) => tag
  | none => unknown name

def name : Tag → String
  | null => standardNames ++ "null"
  | bool => standardNames ++ "bool"
  | int => standardNames ++ "int"
  | float => standardNames ++ "float"
  | text => standardNames ++ "str"
  | timestamp => standardNames ++ "timestamp"
  | binary => standardNames ++ "binary"
  | merge => standardNames ++ "merge"
  | value => standardNames ++ "value"
  | sequence => standardNames ++ "seq"
  | mapping => standardNames ++ "map"
  | unknown name => name

end Tag

namespace Form

/-- A digit, or the low line that may stand among digits. -/
def isDigitOrLow (char : Char) : Bool := char.isDigit || char == '_'

def unsigned : List Char → List Char
  | '+' :: rest => rest
  | '-' :: rest => rest
  | chars => chars

/-- Segments of sexagesimal digits: colons, each with one or two digits below sixty. At least
one of them comes first, and `ends` tells what may follow the last. -/
def sexagesimal (ends : List Char → Bool) (atLeastOne : Bool) : List Char → Bool
  | ':' :: tens :: ones :: rest =>
      if '0' ≤ tens ∧ tens ≤ '5' ∧ ones.isDigit then sexagesimal ends false rest
      else if tens.isDigit then sexagesimal ends false (ones :: rest)
      else false
  | [':', ones] => ones.isDigit && ends []
  | rest => !atLeastOne && ends rest
termination_by chars => chars.length

def isBool (text : String) : Bool :=
  ["yes", "Yes", "YES", "no", "No", "NO", "true", "True", "TRUE", "false", "False", "FALSE",
    "on", "On", "ON", "off", "Off", "OFF"].contains text

/-- The words for null; no text at all is one of them. -/
def isNull (text : String) : Bool :=
  ["", "~", "null", "Null", "NULL"].contains text

/-- Binary, octal, decimal, hexadecimal and sexagesimal integers. A zero in front makes digits
octal; low lines may stand among digits. -/
def isInt (chars : List Char) : Bool :=
  match unsigned chars with
  | '0' :: 'b' :: rest =>
      !rest.isEmpty && rest.all fun char => char == '0' || char == '1' || char == '_'
  | '0' :: 'x' :: rest =>
      !rest.isEmpty && rest.all fun char =>
        isDigitOrLow char || ('a' ≤ char && char ≤ 'f') || ('A' ≤ char && char ≤ 'F')
  | '0' :: rest => rest.all fun char => ('0' ≤ char && char ≤ '7') || char == '_'
  | first :: rest =>
      first.isDigit &&
        (rest.all isDigitOrLow || sexagesimal List.isEmpty true (rest.dropWhile isDigitOrLow))
  | [] => false

/-- Nothing, or the exponent of a decimal number, which must have a sign. -/
def isExponent : List Char → Bool
  | [] => true
  | mark :: sign :: rest =>
      (mark == 'e' || mark == 'E') && (sign == '-' || sign == '+') && !rest.isEmpty
        && rest.all Char.isDigit
  | _ => false

/-- Digits with a point among or after them, and an exponent if any. -/
def isPointed (chars : List Char) : Bool :=
  match chars with
  | first :: rest =>
      first.isDigit &&
        match rest.dropWhile isDigitOrLow with
        | '.' :: fraction => isExponent (fraction.dropWhile isDigitOrLow)
        | _ => false
  | [] => false

/-- Digits after a point, without a sign, and an exponent if any. -/
def isFraction (chars : List Char) : Bool :=
  match chars with
  | '.' :: first :: rest => first.isDigit && isExponent (rest.dropWhile isDigitOrLow)
  | _ => false

def isSexagesimalFloat (chars : List Char) : Bool :=
  match chars with
  | first :: rest =>
      first.isDigit && sexagesimal (fun after =>
        match after with
        | '.' :: fraction => fraction.all isDigitOrLow
        | _ => false) true (rest.dropWhile isDigitOrLow)
  | [] => false

/-- Decimal numbers with a point, sexagesimal ones, infinities and not-a-number. -/
def isFloat (chars : List Char) : Bool :=
  let positive := unsigned chars
  isPointed positive || isFraction chars || isSexagesimalFloat positive
    || [".inf", ".Inf", ".INF"].contains (String.ofList positive)
    || [".nan", ".NaN", ".NAN"].contains (String.ofList chars)

/-- The parts of a date, and of a time of day if there is one. -/
structure Timestamp where
  year : Nat
  month : Nat
  day : Nat
  /-- Hour, minute, second and the digits of the fraction. -/
  time : Option (Nat × Nat × Nat × List Char)
  offset : Option Int

def oneOrTwo : List Char → Option (Nat × List Char)
  | first :: second :: rest =>
      if first.isDigit && second.isDigit then some (Digits.value [first, second], rest)
      else if first.isDigit then some (Digits.value [first], second :: rest)
      else none
  | [first] => if first.isDigit then some (Digits.value [first], []) else none
  | [] => none

def two : List Char → Option (Nat × List Char)
  | first :: second :: rest =>
      if first.isDigit && second.isDigit then some (Digits.value [first, second], rest) else none
  | _ => none

def expect (char : Char) : List Char → Option (List Char)
  | first :: rest => if first = char then some rest else none
  | [] => none

/-- Takes the offset at the end of a timestamp: a `Z`, or a sign with hours, and minutes if any. -/
def offset (chars : List Char) : Option (Option Int) :=
  match chars with
  | [] => some none
  | _ =>
      match chars.dropWhile fun char => char == ' ' || char == '\t' with
      | ['Z'] => some (some 0)
      | sign :: rest =>
          if sign = '-' ∨ sign = '+' then do
            let (hours, rest) ← oneOrTwo rest
            let minutes ←
              match rest with
              | [] => some 0
              | _ => do
                  let (minutes, rest) ← two (← expect ':' rest)
                  if rest.isEmpty then some minutes else none
            let total : Int := hours * 60 + minutes
            return some (if sign = '-' then -total else total)
          else none
      | [] => none

/-- What counts of a text when its form is looked at: a line feed at its end does not, but a line
feed alone does. -/
def significant : List Char → List Char
  | [] => []
  | [char] => [char]
  | [char, '\n'] => [char]
  | char :: rest => char :: significant rest

/-- Reads a timestamp: a date, or a date with a time of day and perhaps an offset. -/
def timestamp? (chars : List Char) : Option Timestamp := do
  let year := chars.take 4
  if year.length < 4 || !year.all Char.isDigit then none
  let (month, rest) ← oneOrTwo (← expect '-' (chars.drop 4))
  let (day, rest) ← oneOrTwo (← expect '-' rest)
  let date := Timestamp.mk (Digits.value year) month day
  match rest with
  | [] => return date none none
  | mark :: _ =>
      let rest ←
        if mark = 'T' ∨ mark = 't' then some (rest.drop 1)
        else if mark = ' ' ∨ mark = '\t' then
          some (rest.dropWhile fun char => char == ' ' || char == '\t')
        else none
      let (hour, rest) ← oneOrTwo rest
      let (minute, rest) ← two (← expect ':' rest)
      let (second, rest) ← two (← expect ':' rest)
      let (fraction, rest) :=
        match rest with
        | '.' :: after => (after.takeWhile Char.isDigit, after.dropWhile Char.isDigit)
        | _ => ([], rest)
      let zone ← offset rest
      return date (some (hour, minute, second, fraction)) zone

/-- Whether a plain scalar is a timestamp. A date alone has two digits for month and day. -/
def isTimestamp (chars : List Char) : Bool :=
  (timestamp? chars).any fun found => found.time.isSome || chars.length == 10

end Form

def Tag.ofPlain (scalar : String) : Tag :=
  let chars := Form.significant scalar.toList
  let text := String.ofList chars
  if Form.isBool text then .bool
  else if Form.isFloat chars then .float
  else if Form.isInt chars then .int
  else if text = "<<" then .merge
  else if Form.isNull text then .null
  else if Form.isTimestamp chars then .timestamp
  else if text = "=" then .value
  else if ["!", "&", "*"].contains text then .unknown "tag:yaml.org,2002:yaml"
  else .text

end Uplift.Yaml
