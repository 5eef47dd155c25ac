import Uplift.Number.Digits
import Uplift.Yaml.Cursor
import Uplift.Yaml.Token

/-!
# Anchors, tags and directives

The tokens of YAML that are made of names and addresses.
-/

set_option autoImplicit false

namespace Uplift.Yaml.Words

def anchorName (cursor : Cursor) : Except Error (String × Cursor) :=
  let (name, after) := cursor.next.span isNameChar
  let delimited :=
    separates after.peek || after.peek.any fun char => "?:,]\x7d%@\x60".toList.contains char
  if name.isEmpty || !delimited then after.fail else .ok (String.ofList name, after)

/-- Characters of an address, escapes apart. -/
def isAddressChar (char : Char) : Bool :=
  char.isAlphanum || "-;/?:@&=+$,_.!~*'()[]".toList.contains char

def hexValue? (char : Char) : Option Nat :=
  if char.isDigit then some (char.toNat - '0'.toNat)
  else if 'a' ≤ char ∧ char ≤ 'f' then some (char.toNat - 'a'.toNat + 10)
  else if 'A' ≤ char ∧ char ≤ 'F' then some (char.toNat - 'A'.toNat + 10)
  else none

def hexNumber? (chars : List Char) : Option Nat :=
  chars.foldlM (fun total char => (hexValue? char).map fun digit => total * 16 + digit) 0

def escapedBytes (fuel : Nat) (cursor : Cursor) : Except Error (List UInt8 × Cursor) :=
  match fuel with
  | 0 => .ok ([], cursor)
  | fuel + 1 =>
      match cursor.rest with
      | '%' :: high :: low :: _ =>
          match hexNumber? [high, low] with
          | none => cursor.fail
          | some byte => do
              let (bytes, after) ← escapedBytes fuel (cursor.skip 3)
              return (UInt8.ofNat byte :: bytes, after)
      | '%' :: _ => cursor.fail
      | _ => .ok ([], cursor)

def addressChars (fuel : Nat) (cursor : Cursor) : Except Error (List Char × Cursor) :=
  match fuel with
  | 0 => .ok ([], cursor)
  | fuel + 1 =>
      let (plain, after) := cursor.span isAddressChar
      if after.peek == some '%' then do
        let (bytes, after) ← escapedBytes after.left after
        match String.fromUTF8? (ByteArray.mk bytes.toArray) with
        | none => after.fail
        | some text =>
            let (more, after) ← addressChars fuel after
            return (plain ++ text.toList ++ more, after)
      else .ok (plain, after)

/-- Takes an address, which must not be empty. -/
def address (cursor : Cursor) : Except Error (String × Cursor) := do
  let (chars, after) ← addressChars cursor.left cursor
  if after.index = cursor.index then cursor.fail else return (String.ofList chars, after)

/-- Takes the handle of a tag: an exclamation mark alone, or a name between two of them. -/
def tagHandle (cursor : Cursor) : Except Error (String × Cursor) :=
  if cursor.peek != some '!' then cursor.fail
  else if cursor.peekAt 1 == some ' ' then .ok ("!", cursor.next)
  else
    let (name, after) := cursor.next.span isNameChar
    if after.peek == some '!' then .ok (String.ofList ('!' :: name ++ ['!']), after.next)
    else after.fail

/-- Takes a tag, which ends where a word ends. -/
def tag (cursor : Cursor) : Except Error (WrittenTag × Cursor) := do
  let (written, after) ←
    if cursor.peekAt 1 == some '<' then do
      let (suffix, after) ← address (cursor.skip 2)
      if after.peek == some '>' then pure (WrittenTag.mk none suffix, after.next) else after.fail
    else if separates (cursor.peekAt 1) then pure (⟨none, "!"⟩, cursor.next)
    else do
      let word := cursor.next.rest.takeWhile fun char => !(char == ' ' || isBreak char)
      if word.contains '!' then do
        let (handle, after) ← tagHandle cursor
        let (suffix, after) ← address after
        pure (⟨some handle, suffix⟩, after)
      else do
        let (suffix, after) ← address cursor.next
        pure (⟨some "!", suffix⟩, after)
  if endsWord after.peek then return (written, after) else after.fail

/-- The rest of a line that may hold a comment and nothing else. -/
def ignoredLine (cursor : Cursor) : Except Error Cursor :=
  let after := cursor.skipWhile (· == ' ')
  let after := if after.peek == some '#' then after.skipLine else after
  if endsLine after.peek then .ok after.skipBreak else after.fail

def digits (cursor : Cursor) : Except Error (Nat × Cursor) :=
  let (chars, after) := cursor.span Char.isDigit
  if chars.isEmpty then cursor.fail
  else (Digits.read chars).mapError Error.fault |>.map fun value => (value, after)

def versionDirective (cursor : Cursor) : Except Error (Token × Cursor) := do
  let (major, after) ← digits (cursor.skipWhile (· == ' '))
  if after.peek != some '.' then after.fail
  else
    let (_, after) ← digits after.next
    if endsWord after.peek then return (.versionDirective major, after) else after.fail

def tagDirective (cursor : Cursor) : Except Error (Token × Cursor) := do
  let (handle, after) ← tagHandle (cursor.skipWhile (· == ' '))
  if after.peek != some ' ' then after.fail
  else
    let (expansion, after) ← address (after.skipWhile (· == ' '))
    if endsWord after.peek then return (.tagDirective handle expansion, after) else after.fail

def directive (cursor : Cursor) : Except Error (Token × Cursor) := do
  let (name, after) := cursor.next.span isNameChar
  if name.isEmpty || !endsWord after.peek then after.fail
  else
    let (token, after) ←
      if name = "YAML".toList then versionDirective after
      else if name = "TAG".toList then tagDirective after
      else pure (Token.otherDirective, after.skipLine)
    let after ← ignoredLine after
    return (token, after)

end Uplift.Yaml.Words
