import Uplift.Yaml.Token.Words

/-!
# Quoted scalars

Scalars between single or double quotes. Lines are folded: a single line break becomes a space, and
of several breaks in a row all but the first are kept.
-/

set_option autoImplicit false

namespace Uplift.Yaml.Quoted

def escape? (char : Char) : Option Char :=
  match char with
  | '0' => some '\x00'
  | 'a' => some '\x07'
  | 'b' => some '\x08'
  | 't' => some '\t'
  | '\t' => some '\t'
  | 'n' => some '\n'
  | 'v' => some '\x0b'
  | 'f' => some '\x0c'
  | 'r' => some '\r'
  | 'e' => some '\x1b'
  | ' ' => some ' '
  | '"' => some '"'
  | '\\' => some '\\'
  | '/' => some '/'
  | 'N' => some '\x85'
  | '_' => some '\xa0'
  | 'L' => some '\u2028'
  | 'P' => some '\u2029'
  | _ => none

def escapeWidth? (char : Char) : Option Nat :=
  match char with
  | 'x' => some 2
  | 'u' => some 4
  | 'U' => some 8
  | _ => none

def breaks (fuel : Nat) (cursor : Cursor) : Except Error (List Char × Cursor) :=
  match fuel with
  | 0 => .ok ([], cursor)
  | fuel + 1 =>
      if cursor.atDocumentMark then cursor.fail
      else
        let after := cursor.skipWhile fun char => char == ' ' || char == '\t'
        match after.lineBreak? with
        | none => .ok ([], after)
        | some (lineBreak, after) => do
            let (more, after) ← breaks fuel after
            return (lineBreak :: more, after)

def folded (lineBreak : Char) (more : List Char) : List Char :=
  (if lineBreak != '\n' then [lineBreak] else if more.isEmpty then [' '] else []) ++ more

/-- Takes white space inside a quoted scalar, with line breaks folded. -/
def spaces (cursor : Cursor) : Except Error (List Char × Cursor) :=
  let (blanks, after) := cursor.span fun char => char == ' ' || char == '\t'
  match after.peek with
  | none => after.fail
  | some _ =>
      match after.lineBreak? with
      | none => .ok (blanks, after)
      | some (lineBreak, after) => do
          let (more, after) ← breaks (after.left + 1) after
          return (folded lineBreak more, after)

def escaped (cursor : Cursor) : Except Error (List Char × Cursor) :=
  match cursor.peek with
  | none => cursor.fail
  | some char =>
      match escape? char, escapeWidth? char with
      | some replaced, _ => .ok ([replaced], cursor.next)
      | none, some width =>
          let digits := cursor.next.rest.take width
          match Words.hexNumber? digits with
          | none => cursor.fail
          | some code =>
              if digits.length < width then cursor.fail
              else if 0x7fffffff < code then
                .error (.fault (.other "OverflowError" "Python int too large to convert to C int"))
              else if 0x10ffff < code then
                .error (.fault (.other "ValueError" "chr() arg not in range(0x110000)"))
              else if 0xd800 ≤ code ∧ code < 0xe000 then .error (.fault .loneSurrogate)
              else .ok ([Char.ofNat code], cursor.next.skip width)
      | none, none =>
          if isBreak char then
            let after := cursor.skipBreak
            breaks (after.left + 1) after
          else cursor.fail

/-- Takes the text up to white space or the closing quote. `fuel` bounds the number of pieces. -/
def word (fuel : Nat) (double : Bool) (cursor : Cursor) : Except Error (List Char × Cursor) :=
  match fuel with
  | 0 => .ok ([], cursor)
  | fuel + 1 => do
      let (plain, after) := cursor.span fun char =>
        !(char == '\'' || char == '"' || char == '\\' || char == ' ' || char == '\t'
          || isBreak char)
      let (piece, next) ←
        match after.rest with
        | '\'' :: second :: _ =>
            if double then pure (['\''], some after.next)
            else if second == '\'' then pure (['\''], some (after.skip 2))
            else pure ([], none)
        | ['\''] => if double then pure (['\''], some after.next) else pure ([], none)
        | '"' :: _ => if double then pure ([], none) else pure (['"'], some after.next)
        | '\\' :: _ =>
            if double then do
              let (piece, after) ← escaped after.next
              pure (piece, some after)
            else pure (['\\'], some after.next)
        | _ => pure ([], none)
      match next with
      | none => return (plain, after)
      | some after =>
          let (more, after) ← word fuel double after
          return (plain ++ piece ++ more, after)

def body (fuel : Nat) (double : Bool) (cursor : Cursor) : Except Error (List Char × Cursor) :=
  match fuel with
  | 0 => cursor.fail
  | fuel + 1 => do
      let (first, after) ← word (cursor.left + 1) double cursor
      if after.peek == some (if double then '"' else '\'') then return (first, after.next)
      else
        let (between, after) ← spaces after
        let (more, after) ← body fuel double after
        return (first ++ between ++ more, after)

def scalar (cursor : Cursor) : Except Error (String × Cursor) := do
  let double := cursor.peek == some '"'
  let (chars, after) ← body (cursor.left + 1) double cursor.next
  return (String.ofList chars, after)

end Uplift.Yaml.Quoted
