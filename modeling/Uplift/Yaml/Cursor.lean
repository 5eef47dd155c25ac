import Uplift.Yaml.Error

/-!
# Places in a YAML text

A cursor is what is left of a text, with the place where that begins. Carriage return and line feed
together are one line break; the byte order mark takes no column.
-/

set_option autoImplicit false

namespace Uplift.Yaml

def isBreak (char : Char) : Bool :=
  char == '\n' || char == '\r' || char == '\x85' || char == '\u2028' || char == '\u2029'

/-- Whether a character that may be missing ends a line; the end of the text does. -/
def endsLine (char : Option Char) : Bool :=
  char.all isBreak

/-- Whether a character that may be missing ends a word: a space, or the end of a line. -/
def endsWord (char : Option Char) : Bool :=
  char.all fun char => char == ' ' || isBreak char

/-- Whether a character that may be missing separates tokens: a tab does so as well. -/
def separates (char : Option Char) : Bool :=
  char.all fun char => char == ' ' || char == '\t' || isBreak char

/-- Letters, digits, hyphen and low line, which make up names. -/
def isNameChar (char : Char) : Bool :=
  char.isAlphanum || char == '-' || char == '_'

/-- The rest of a text, and the place where it begins. -/
structure Cursor where
  rest : List Char
  /-- How many characters are left, known without counting them again. -/
  left : Nat
  index : Nat
  line : Nat
  column : Nat
  left_eq : left = rest.length

namespace Cursor

def start (chars : List Char) : Cursor := ⟨chars, chars.length, 0, 0, 0, rfl⟩

/-- The next character, if the text goes on. -/
def peek (cursor : Cursor) : Option Char := cursor.rest.head?

def peekAt (cursor : Cursor) (count : Nat) : Option Char := (cursor.rest.drop count).head?

def startsWith (cursor : Cursor) (chars : List Char) : Bool := chars.isPrefixOf cursor.rest

def next (cursor : Cursor) : Cursor :=
  match split : cursor.rest with
  | [] => cursor
  | char :: rest =>
      have left_eq : cursor.left - 1 = rest.length := by simp [cursor.left_eq, split]
      let newLine :=
        if char == '\r' then rest.head? != some '\n' else isBreak char
      let (line, column) :=
        if newLine then (cursor.line + 1, 0)
        else if char == '\ufeff' then (cursor.line, cursor.column)
        else (cursor.line, cursor.column + 1)
      ⟨rest, cursor.left - 1, cursor.index + 1, line, column, left_eq⟩

def skip (cursor : Cursor) : Nat → Cursor
  | 0 => cursor
  | count + 1 => cursor.next.skip count

/-- The characters up to the first that does not belong, and the cursor after them. -/
def span (cursor : Cursor) (belongs : Char → Bool) : List Char × Cursor :=
  let taken := cursor.rest.takeWhile belongs
  (taken, cursor.skip taken.length)

def skipWhile (cursor : Cursor) (belongs : Char → Bool) : Cursor :=
  (cursor.span belongs).2

def skipLine (cursor : Cursor) : Cursor :=
  cursor.skipWhile fun char => !isBreak char

/-- Takes a line break. The Unicode separators stand for themselves, all others for a line feed. -/
def lineBreak? (cursor : Cursor) : Option (Char × Cursor) :=
  match cursor.rest with
  | '\r' :: '\n' :: _ => some ('\n', cursor.skip 2)
  | char :: _ =>
      if char == '\u2028' || char == '\u2029' then some (char, cursor.next)
      else if isBreak char then some ('\n', cursor.next)
      else none
  | [] => none

/-- The cursor after a line break, if there is one. -/
def skipBreak (cursor : Cursor) : Cursor :=
  (cursor.lineBreak?.map (·.2)).getD cursor

/-- Whether a mark of three equal characters, which delimits documents, begins here. -/
def atMark (cursor : Cursor) (char : Char) : Bool :=
  cursor.startsWith [char, char, char] && separates (cursor.peekAt 3)

def atDocumentMark (cursor : Cursor) : Bool :=
  cursor.atMark '-' || cursor.atMark '.'

def fail {α : Type} (cursor : Cursor) : Except Error α :=
  .error (.badToken cursor.line cursor.column)

end Cursor

end Uplift.Yaml
