import Uplift.Number.Digits
import Uplift.Value.Shown
import Uplift.Versions.Ascending

/-!
# Written lists of versions

The field that lists a document's versions holds a text such as `[1, 2, 5]`, or an array. In a text
brackets do not matter, pieces are separated by commas, and empty pieces are dropped; every other
piece is a run of digits. Writing a list gives its distinct members in ascending order.
-/

set_option autoImplicit false

namespace Uplift

/-- Why a version field cannot be read. -/
inductive VersionError where
  /-- The field does not have the form it should have; `token` is the piece at fault, if there is
  one. -/
  | malformed (field : String) (raw : Value) (token : Option String) (hint : String)
  | fault (fault : Fault)

namespace VersionError

def listHint : String :=
  "Corrija o campo para uma lista de inteiros entre colchetes, ex.: \"[101, 102]\"."

def scalarHint : String :=
  "O campo legado de versão deve ser um inteiro não negativo."

end VersionError

namespace Listing

/-- The pieces between separators; there is one more than there are separators. -/
def splitAt (separator : Char) : List Char → List (List Char)
  | [] => [[]]
  | char :: rest =>
      if char = separator then [] :: splitAt separator rest
      else
        match splitAt separator rest with
        | [] => [[char]]
        | piece :: pieces => (char :: piece) :: pieces

/-- The pieces of a text, with brackets deleted wherever they stand. -/
def textPieces (text : String) : List String :=
  (splitAt ',' (text.toList.filter fun char => char ≠ '[' ∧ char ≠ ']')).map String.ofList

def itemPiece (field : String) (raw item : Value) : Except VersionError String :=
  match item with
  | .int value =>
      if Scalar.isWritable (.int value) then .ok (toString value)
      else .error (.fault .integerTooLong)
  | .text value => .ok value
  | other => .error (.malformed field raw (some other.quoted) VersionError.listHint)

/-- Reads pieces in order; those without text are dropped. -/
def readPieces (field : String) (raw : Value) : List String → Except VersionError (List Int)
  | [] => .ok []
  | piece :: rest => do
      let trimmed := Text.trim piece
      if trimmed.isEmpty then readPieces field raw rest
      else if Digits.isRun trimmed.toList then
        let version ← (Digits.read trimmed.toList).mapError VersionError.fault
        let versions ← readPieces field raw rest
        return (version : Int) :: versions
      else .error (.malformed field raw (some trimmed) VersionError.listHint)

def parse (field : String) (raw : Value) : Except VersionError (List Int) :=
  match raw with
  | .null => .ok []
  | .text text => readPieces field raw (textPieces text)
  | .array items => do
      let pieces ← items.mapM (itemPiece field raw)
      readPieces field raw pieces
  | _ => .error (.malformed field raw none VersionError.listHint)

def format (versions : List Int) : String :=
  "[" ++ ", ".intercalate ((Ascending.ofList versions).map toString) ++ "]"

def isWritable (versions : List Int) : Bool :=
  versions.all fun version => Scalar.isWritable (.int version)

/-- The text of a list, unless one of its versions has more digits than are written. -/
def written (versions : List Int) : Except Fault String :=
  if isWritable versions then .ok (format versions) else .error .integerTooLong

end Listing

end Uplift
