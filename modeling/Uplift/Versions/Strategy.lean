import Uplift.Fields
import Uplift.Versions.Listing
import Uplift.Versions.Satisfied

/-!
# Strategies of version detection

A strategy looks for a declaration of versions at one place of a document. It abstains if there is
nothing at that place, and fails if what is there cannot be read. An engine takes any list of
strategies; only those of the library are described here, under any fields and names.
-/

set_option autoImplicit false

namespace Uplift

/-- Where and in which form a declaration of versions is looked for. -/
inductive Strategy where
  | explicitList (field name : String)
  | legacyScalar (field name : String)
  /-- Another strategy, applied to the object in the content field. -/
  | nestedContent (delegate : Strategy) (contentField name : String)
deriving DecidableEq

namespace Strategy

def name : Strategy → String
  | explicitList _ name => name
  | legacyScalar _ name => name
  | nestedContent _ _ name => name

def explicitName : String := "explicit-list"
def legacyName : String := "legacy-scalar"
def nestedName : String := "nested-content"

/-- The strategies of a family in the order in which they are asked: the list in the content, the
list in the root, the number in the root. -/
def standard (fields : FieldNames) : List Strategy :=
  [ .nestedContent (.explicitList fields.migrations explicitName) fields.content nestedName,
    .explicitList fields.migrations explicitName,
    .legacyScalar fields.version legacyName ]

/-- Reads the bound of a legacy declaration: nothing, a natural number, or its text. -/
def readBound (field : String) (raw : Value) : Except VersionError Int :=
  let malformed : Except VersionError Int :=
    .error (.malformed field raw none VersionError.scalarHint)
  match raw with
  | .null => .ok 0
  | .int value => if 0 ≤ value then .ok value else malformed
  | .text text =>
      let digits := (Text.trim text).toList
      if Digits.isRun digits then
        ((Digits.read digits).mapError VersionError.fault).map fun bound => (bound : Int)
      else malformed
  | _ => malformed

def isText (text : String) : Value → Bool
  | .text other => other == text
  | _ => false

def occursIn (part : List Char) : List Char → Bool
  | [] => part.isEmpty
  | char :: rest => part.isPrefixOf (char :: rest) || occursIn part rest

/-- The value of a field of a document. Anything else than an object has no fields; but an array or
a text in which the name of the field is found is taken for one that should have them, and a scalar
in which nothing can be looked for is a fault. -/
def fieldOf (field : String) (document : Value) : Except Fault (Option Value) :=
  match document with
  | .object entries => .ok (Entries.lookup (.text field) entries)
  | .array items =>
      if items.any (isText field) then
        .error (.other "TypeError" "list indices must be integers or slices, not str")
      else .ok none
  | .text text =>
      if occursIn field.toList text.toList then
        .error (.other "TypeError" "string indices must be integers, not 'str'")
      else .ok none
  | other =>
      .error (.other "TypeError"
        ("argument of type '" ++ other.qualifiedTypeName ++ "' is not iterable"))

def attempt : Strategy → Value → Except VersionError (Option Satisfied)
  | explicitList field name, document => do
      match ← (fieldOf field document).mapError VersionError.fault with
      | none => return none
      | some raw =>
          let versions ← Listing.parse field raw
          return some ⟨.explicit versions, name⟩
  | legacyScalar field name, document => do
      match ← (fieldOf field document).mapError VersionError.fault with
      | none => return none
      | some raw =>
          let bound ← readBound field raw
          return some ⟨.legacy bound, name⟩
  | nestedContent delegate contentField name, document =>
      match document with
      | .object entries =>
          match Entries.lookup (.text contentField) entries with
          | some (.object content) =>
              (delegate.attempt (.object content)).map fun found =>
                found.map fun satisfied =>
                  { satisfied with source := name ++ "/" ++ satisfied.source }
          | _ => .ok none
      | other => .error (.fault (.noEntries other.qualifiedTypeName))

end Strategy

end Uplift
