import Uplift.Fault
import Uplift.Number.Digits
import Uplift.Number.FloatReading
import Uplift.Value

/-!
# Reading JSON

A JSON text as a tree. Three words for numbers are known besides those of the standard: infinity,
its negative, and not-a-number. An object may give a key more than once; the first place and the
last value count. Readers take what they read from the front of a list of characters. One that calls
itself has a bound on the number of its calls as first argument.
-/

set_option autoImplicit false

namespace Uplift.Json

/-- Why a text is no JSON document. -/
inductive Error where
  | badText
  | fault (fault : Fault)

abbrev Reader := StateT (List Char) (Except Error)

def fail {α : Type} : Reader α := throw .badText

/-- The next character, which stays. -/
def next? : Reader (Option Char) := do
  let rest ← get
  return rest.head?

def skip : Reader Unit := modify List.tail

def skipBlanks : Reader Unit :=
  modify fun rest => rest.dropWhile fun char =>
    char == ' ' || char == '\t' || char == '\n' || char == '\r'

def expect (char : Char) : Reader Unit := do
  if (← next?) = some char then skip else fail

def span (belongs : Char → Bool) : Reader (List Char) := do
  let rest ← get
  set (rest.dropWhile belongs)
  return rest.takeWhile belongs

/-- Takes a word, if the text goes on with it. -/
def word? (word : String) : Reader Bool := do
  let rest ← get
  if word.toList.isPrefixOf rest then do
    set (rest.drop word.length)
    return true
  else return false

def hexValue? (char : Char) : Option Nat :=
  if char.isDigit then some (char.toNat - '0'.toNat)
  else if 'a' ≤ char ∧ char ≤ 'f' then some (char.toNat - 'a'.toNat + 10)
  else if 'A' ≤ char ∧ char ≤ 'F' then some (char.toNat - 'A'.toNat + 10)
  else none

def codeUnit : Reader Nat := do
  let rest ← get
  let digits := rest.take 4
  match digits.length, digits.mapM hexValue? with
  | 4, some values => do
      set (rest.drop 4)
      return values.foldl (fun total value => total * 16 + value) 0
  | _, _ => fail

/-- The second code unit of a pair, if the text goes on with an escaped one. -/
def secondUnit? : Reader (Option Nat) := do
  let rest ← get
  match rest with
  | '\\' :: 'u' :: after => do
      set after
      let unit ← codeUnit
      if 0xdc00 ≤ unit ∧ unit < 0xe000 then return some unit
      else do
        set rest
        return none
  | _ => return none

/-- Takes the four digits of an escape. Two of them in a row may make up a single character; half of
such a pair is none. -/
def escapedCode : Reader Char := do
  let unit ← codeUnit
  if 0xd800 ≤ unit ∧ unit < 0xdc00 then
    match ← secondUnit? with
    | some second => return Char.ofNat (0x10000 + (unit - 0xd800) * 0x400 + (second - 0xdc00))
    | none => throw (.fault .loneSurrogate)
  else if 0xdc00 ≤ unit ∧ unit < 0xe000 then throw (.fault .loneSurrogate)
  else return Char.ofNat unit

def escaped : Reader Char := do
  let next ← next?
  skip
  match next with
  | some '"' => return '"'
  | some '\\' => return '\\'
  | some '/' => return '/'
  | some 'b' => return '\x08'
  | some 'f' => return '\x0c'
  | some 'n' => return '\n'
  | some 'r' => return '\r'
  | some 't' => return '\t'
  | some 'u' => escapedCode
  | _ => fail

/-- Takes the rest of a text value, with the quote that closes it. -/
def textChars : Nat → Reader (List Char)
  | 0 => fail
  | fuel + 1 => do
      match ← next? with
      | none => fail
      | some '"' => do
          skip
          return []
      | some '\\' => do
          skip
          let char ← escaped
          return char :: (← textChars fuel)
      | some char =>
          if char < ' ' then fail
          else do
            skip
            return char :: (← textChars fuel)

def textValue (fuel : Nat) : Reader String := do
  return String.ofList (← textChars fuel)

/-- Takes a point with digits after it, if both are there. -/
def fraction : Reader (List Char) := do
  match ← get with
  | '.' :: digit :: rest =>
      if digit.isDigit then do
        set (digit :: rest)
        return '.' :: (← span Char.isDigit)
      else return []
  | _ => return []

/-- Takes an exponent, if a whole one is there. -/
def exponent : Reader (List Char) := do
  let rest ← get
  match rest with
  | mark :: after =>
      let (sign, digits) :=
        match after with
        | '+' :: digits => (['+'], digits)
        | '-' :: digits => (['-'], digits)
        | digits => ([], digits)
      let run := digits.takeWhile Char.isDigit
      if (mark = 'e' ∨ mark = 'E') ∧ run ≠ [] then do
        set (digits.dropWhile Char.isDigit)
        return mark :: sign ++ run
      else return []
  | [] => return []

/-- Takes the digits in front of a point: a zero stands alone. -/
def wholeDigits : Reader (List Char) := do
  match ← next? with
  | some '0' => do
      skip
      return ['0']
  | _ => do
      let run ← span Char.isDigit
      if run.isEmpty then fail else return run

def number : Reader Scalar := do
  let negative := (← next?) = some '-'
  if negative then skip
  let whole ← wholeDigits
  let fraction ← fraction
  let exponent ← exponent
  let sign := if negative then ['-'] else []
  if fraction.isEmpty && exponent.isEmpty then
    match Digits.readSigned (sign ++ whole) with
    | .ok value => return .int value
    | .error fault => throw (.fault fault)
  else
    match FloatReading.read? (sign ++ whole ++ fraction ++ exponent) with
    | some value => return .float value
    | none => fail

def words : List (String × Scalar) :=
  [("null", .null), ("true", .bool true), ("false", .bool false), ("NaN", .float .nan),
    ("Infinity", .float (.infinity false)), ("-Infinity", .float (.infinity true))]

/-- Takes a word that is a value, if the text goes on with one. -/
def wordValue? : List (String × Scalar) → Reader (Option Scalar)
  | [] => return none
  | (word, value) :: rest => do
      if ← word? word then return some value else wordValue? rest

mutual

def value : Nat → Reader Value
  | 0 => fail
  | fuel + 1 => do
      match ← next? with
      | some '"' => do
          skip
          return .text (← textValue fuel)
      | some '[' => do
          skip
          skipBlanks
          if (← next?) = some ']' then do
            skip
            return .array []
          else return .array (← items fuel)
      | some '\x7b' => do
          skip
          skipBlanks
          if (← next?) = some '\x7d' then do
            skip
            return .object []
          else return .object (Entries.ofPairs (← entries fuel))
      | _ =>
          match ← wordValue? words with
          | some found => return .scalar found
          | none => return .scalar (← number)

/-- Takes the items of an array, of which there is one at least, with its end. -/
def items : Nat → Reader (List Value)
  | 0 => fail
  | fuel + 1 => do
      let item ← value fuel
      skipBlanks
      if (← next?) = some ',' then do
        skip
        skipBlanks
        return item :: (← items fuel)
      else do
        expect ']'
        return [item]

/-- Takes the entries of an object, of which there is one at least, with its end. -/
def entries : Nat → Reader (List (Scalar × Value))
  | 0 => fail
  | fuel + 1 => do
      expect '"'
      let key ← textValue fuel
      skipBlanks
      expect ':'
      skipBlanks
      let found ← value fuel
      skipBlanks
      if (← next?) = some ',' then do
        skip
        skipBlanks
        return (.text key, found) :: (← entries fuel)
      else do
        expect '\x7d'
        return [(.text key, found)]

end

/-- Reads a text, which must hold one value and nothing else. -/
def read (text : String) : Except Error Value := do
  let chars := text.toList
  let document : Reader Value := do
    skipBlanks
    let found ← value (2 * chars.length + 2)
    skipBlanks
    return found
  let (found, rest) ← document.run chars
  if rest.isEmpty then return found else throw .badText

end Uplift.Json
