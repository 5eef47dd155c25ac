import Uplift.Text.Quoted
import Uplift.Yaml.Writing.Style

/-!
# Writing scalars

A pen is what has been written, with what has to be known of it to go on: the column, whether white
space came last, and whether nothing but indentation and indicators stand on the line. Lines longer
than a width are folded at single spaces.
-/

set_option autoImplicit false

namespace Uplift.Yaml

/-- A text that is being written. -/
structure Pen where
  text : String
  column : Nat
  spaced : Bool
  indenting : Bool
  /-- The document could go on with what was written last, so that its end needs a mark. -/
  openEnded : Bool

namespace Pen

def start : Pen := ⟨"", 0, true, true, false⟩

def width : Nat := 80

def put (pen : Pen) (chars : List Char) : Pen :=
  { pen with
    text := pen.text ++ String.ofList chars
    column := pen.column + chars.length }

def endLine (pen : Pen) (char : Char) : Pen :=
  { pen with
    text := pen.text.push char
    column := 0
    spaced := true
    indenting := true }

/-- Goes to the column of an indentation, on a new line unless there is only indentation so far. -/
def indent (pen : Pen) (column : Nat) : Pen :=
  let pen :=
    if !pen.indenting || column < pen.column || (pen.column = column && !pen.spaced) then
      pen.endLine '\n'
    else pen
  if pen.column < column then
    { pen.put (List.replicate (column - pen.column) ' ') with spaced := true }
  else pen

/-- Writes an indicator, after white space if it needs that. One that belongs to the indentation
leaves the line a line of indentation. -/
def indicator (pen : Pen) (text : String) (needsSpace : Bool) (indents : Bool) : Pen :=
  let chars := if pen.spaced || !needsSpace then text.toList else ' ' :: text.toList
  { pen.put chars with
    spaced := false
    indenting := pen.indenting && indents
    openEnded := false }

/-- Splits a text into its longest runs of line ends, of spaces, and of other characters. -/
def runs : List Char → List (List Char)
  | [] => []
  | char :: rest =>
      match runs rest with
      | (next :: run) :: others =>
          let same :=
            (char == ' ') == (next == ' ') && Style.isLineEnd char == Style.isLineEnd next
          if same then (char :: next :: run) :: others else [char] :: (next :: run) :: others
      | others => [char] :: others

def plainRuns (column : Nat) (folds : Bool) : Pen → List (List Char) → Pen
  | pen, [] => pen
  | pen, run :: rest =>
      if run = [' '] && width < pen.column && folds then
        plainRuns column folds
          { pen.indent column with spaced := false, indenting := false } rest
      else plainRuns column folds (pen.put run) rest

def plain (pen : Pen) (column : Nat) (folds : Bool) (chars : List Char) : Pen :=
  let pen := if pen.spaced then pen else pen.put [' ']
  plainRuns column folds { pen with spaced := false, indenting := false } (runs chars)

/-- Writes the line ends of a text between quotes. Reading folds lines, and so a line feed takes
one end of line more. -/
def lineEnds (pen : Pen) (column : Nat) (run : List Char) : Pen :=
  let pen := if run.head? = some '\n' then pen.endLine '\n' else pen
  (run.foldl endLine pen).indent column

/-- Writes the runs of a text in single quotes. Neither the first run nor the last is folded. -/
def singleQuotedRuns (column : Nat) (folds : Bool) : Bool → Pen → List (List Char) → Pen
  | _, pen, [] => pen
  | isFirst, pen, run :: rest =>
      let pen :=
        if run.head?.any Style.isLineEnd then pen.lineEnds column run
        else if run = [' '] && width < pen.column && folds && !isFirst && !rest.isEmpty then
          pen.indent column
        else pen.put (run.flatMap fun char => if char = '\'' then ['\'', '\''] else [char])
      singleQuotedRuns column folds false pen rest

def singleQuoted (pen : Pen) (column : Nat) (folds : Bool) (chars : List Char) : Pen :=
  (singleQuotedRuns column folds true (pen.indicator "'" true false) (runs chars)).indicator
    "'" false false

def isVerbatim (char : Char) : Bool :=
  let code := char.toNat
  ((0x20 ≤ code && code ≤ 0x7e) || (0xa0 ≤ code && code ≤ 0xd7ff)
      || (0xe000 ≤ code && code ≤ 0xfffd))
    && !(char == '"' || char == '\\' || char == '\u2028' || char == '\u2029' || code == 0xfeff)

def escapeLetter? (char : Char) : Option Char :=
  match char with
  | '\x00' => some '0'
  | '\x07' => some 'a'
  | '\x08' => some 'b'
  | '\t' => some 't'
  | '\n' => some 'n'
  | '\x0b' => some 'v'
  | '\x0c' => some 'f'
  | '\r' => some 'r'
  | '\x1b' => some 'e'
  | '"' => some '"'
  | '\\' => some '\\'
  | '\x85' => some 'N'
  | '\u2028' => some 'L'
  | '\u2029' => some 'P'
  | _ => none

def escaped (char : Char) : List Char :=
  let code := char.toNat
  let hex (width : Nat) : List Char := (Text.hexDigits width code).map Char.toUpper
  match escapeLetter? char with
  | some letter => ['\\', letter]
  | none =>
      if code ≤ 0xff then '\\' :: 'x' :: hex 2
      else if code ≤ 0xffff then '\\' :: 'u' :: hex 4
      else '\\' :: 'U' :: hex 8

def foldQuoted (pen : Pen) (column : Nat) (next : Option Char) : Pen :=
  let pen := { (pen.put ['\\']).indent column with spaced := false, indenting := false }
  if next = some ' ' then pen.put ['\\'] else pen

/-- Writes the characters of a text in double quotes. A line is folded in front of a space or of a
character after an escape, and after an escape; but neither at the first character nor at the last.
-/
def doubleQuotedChars (column : Nat) (folds : Bool) :
    (isFirst afterEscape : Bool) → Pen → List Char → Pen
  | _, _, pen, [] => pen
  | isFirst, afterEscape, pen, char :: rest =>
      let inner := folds && !isFirst && !rest.isEmpty
      if isVerbatim char then
        let pen :=
          if inner && (char == ' ' || afterEscape) && width < pen.column then
            pen.foldQuoted column (some char)
          else pen
        doubleQuotedChars column folds false false (pen.put [char]) rest
      else
        let pen := pen.put (escaped char)
        let pen :=
          if inner && width + 1 < pen.column then pen.foldQuoted column rest.head? else pen
        doubleQuotedChars column folds false true pen rest

def doubleQuoted (pen : Pen) (column : Nat) (folds : Bool) (chars : List Char) : Pen :=
  (doubleQuotedChars column folds true false (pen.indicator "\"" true false) chars).indicator
    "\"" false false

def literal (pen : Pen) (column : Nat) (chars : List Char) : Pen :=
  (runs chars).foldl
    (fun pen run =>
      if run.head?.any Style.isLineEnd then run.foldl endLine pen
      else (pen.indent column).put run)
    ((pen.indicator "|" true false).endLine '\n')

/-- Writes a scalar with its tag, if that is shown. -/
def scalar (pen : Pen) (column : Nat) (folds : Bool) (written : WrittenScalar) : Pen :=
  let pen := if written.showsTag then pen.indicator written.tagName true false else pen
  match written.style with
  | .plain => pen.plain column folds written.chars
  | .singleQuoted => pen.singleQuoted column folds written.chars
  | .doubleQuoted => pen.doubleQuoted column folds written.chars
  | .literal => pen.literal column written.chars

end Pen

end Uplift.Yaml
