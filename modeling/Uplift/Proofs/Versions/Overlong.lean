import Uplift.Proofs.Outcome
import Uplift.Proofs.Versions.Listing
import Uplift.Proofs.Versions.Resolution
import Uplift.Proofs.Writable

/-!
# Version fields with too many digits

A field that declares versions is read piece by piece. Reading it ends without an error of its own
in one case only: a run of more digits than are converted comes up before anything that is no
version. In a document that can be written no other fault comes out of a version field.
-/

set_option autoImplicit false

namespace Uplift

namespace Listing

/-- Of some pieces the first that is neither nothing nor a version is a run of too many digits. -/
inductive Overlong : List String → Nat → Prop where
  | here {piece : String} {rest : List String} {digits : Nat} :
      Piece.of piece = .overlong digits → Overlong (piece :: rest) digits
  | nothing {piece : String} {rest : List String} {digits : Nat} :
      Piece.of piece = .nothing → Overlong rest digits → Overlong (piece :: rest) digits
  | version {piece : String} {rest : List String} {number digits : Nat} :
      Piece.of piece = .version number → Overlong rest digits → Overlong (piece :: rest) digits

variable {field : String} {raw : Value} {fault : Fault}

theorem overlong_cons_iff {piece : String} {rest : List String} {digits : Nat} :
    Overlong (piece :: rest) digits ↔
      match Piece.of piece with
      | .nothing | .version _ => Overlong rest digits
      | .overlong count => digits = count
      | .foreign _ => False := by
  constructor
  · intro overlong
    cases overlong with
    | here kind => rw [kind]
    | nothing kind later | version kind later => rwa [kind]
  · cases kind : Piece.of piece with
    | nothing => exact .nothing kind
    | version number => exact .version kind
    | overlong count =>
        rintro rfl
        exact .here kind
    | foreign token => exact False.elim

theorem readPieces_eq_fault_iff {pieces : List String} :
    readPieces field raw pieces = .error (.fault fault) ↔
      ∃ digits, Overlong pieces digits ∧ fault = .tooManyDigits digits := by
  induction pieces with
  | nil =>
      constructor
      · intro result
        cases result
      · rintro ⟨digits, overlong, _⟩
        cases overlong
  | cons piece rest ih =>
      simp only [readPieces_cons, overlong_cons_iff]
      cases Piece.of piece with
      | nothing => exact ih
      | version number => rw [Outcome.map_eq_error_iff, ih]
      | overlong count => simp [eq_comm]
      | foreign token => simp

def itemText? : Value → Option String
  | .int value => some (toString value)
  | .text value => some value
  | _ => none

/-- The pieces of a value that lists versions; other values have none. -/
def pieces? : Value → Option (List String)
  | .text text => some (textPieces text)
  | .array items => items.mapM itemText?
  | _ => none

theorem itemPiece_eq (field : String) (raw : Value) {item : Value}
    (writable : item.isWritable = true) :
    itemPiece field raw item =
      match itemText? item with
      | some piece => .ok piece
      | none => .error (.malformed field raw (some item.quoted) VersionError.listHint) := by
  cases item with
  | array items => rfl
  | object entries => rfl
  | scalar value =>
      cases value with
      | int number =>
          rw [Value.isWritable_scalar] at writable
          rw [itemPiece, if_pos writable, itemText?]
      | null | text _ | bool _ | float _ | date _ | moment _ | bytes _ => rfl

private theorem mapM_itemPiece (field : String) (raw : Value) {items : List Value}
    (writable : ∀ item ∈ items, item.isWritable = true) :
    (∃ pieces, items.mapM itemText? = some pieces ∧ items.mapM (itemPiece field raw) = .ok pieces) ∨
      (items.mapM itemText? = none ∧ ∃ token, items.mapM (itemPiece field raw) =
        .error (.malformed field raw token VersionError.listHint)) := by
  induction items with
  | nil => exact .inl ⟨[], rfl, rfl⟩
  | cons item rest ih =>
      obtain ⟨first, others⟩ := List.forall_mem_cons.mp writable
      simp only [List.mapM_cons, itemPiece_eq field raw first]
      cases itemText? item with
      | none => exact .inr ⟨rfl, _, rfl⟩
      | some piece =>
          rcases ih others with ⟨pieces, found, read⟩ | ⟨missing, token, failed⟩
          · exact .inl ⟨piece :: pieces, by rw [found]; rfl, by rw [read]; rfl⟩
          · exact .inr ⟨by rw [missing]; rfl, token, by rw [failed]; rfl⟩

theorem parse_eq_fault_iff (writable : raw.isWritable = true) :
    parse field raw = .error (.fault fault) ↔
      ∃ pieces digits, pieces? raw = some pieces ∧ Overlong pieces digits ∧
        fault = .tooManyDigits digits := by
  unfold parse pieces?
  split
  · simp
  · rw [readPieces_eq_fault_iff]
    simp
  · rename_i items
    rcases mapM_itemPiece field (.array items)
        (Value.isWritable_array_iff.mp writable) with
      ⟨pieces, found, read⟩ | ⟨missing, token, failed⟩
    · simp only [read, found, bind, Except.bind, readPieces_eq_fault_iff]
      simp
    · simp only [failed, missing, bind, Except.bind]
      simp
  · rename_i noText noArray
    simp

end Listing

/-- A bound is read from a text as a piece of a list is, but must be there. -/
theorem Strategy.readBound_text (field text : String) :
    readBound field (.text text) =
      match Listing.Piece.of text with
      | .version number => .ok number
      | .overlong digits => .error (.fault (.tooManyDigits digits))
      | .nothing | .foreign _ =>
          .error (.malformed field (.text text) none VersionError.scalarHint) := by
  unfold readBound Listing.Piece.of
  simp only
  by_cases run : Digits.isRun (Text.trim text).toList
  · have visible : ¬(Text.trim text).isEmpty = true := by
      intro empty
      rw [String.isEmpty_iff.mp empty] at run
      cases run
    by_cases long : Fault.digitLimit < (Text.trim text).toList.length
    · simp only [run, visible, long, Digits.read, if_true]
      rfl
    · simp only [run, visible, long, Digits.read, if_true, if_false]
      rfl
  · simp only [run]
    by_cases empty : (Text.trim text).isEmpty
    · simp only [empty, if_true]
      rfl
    · simp only [empty]
      rfl

namespace Declaring

def raw : Declaring → Value
  | contentList raw | rootList raw | rootBound raw => raw

/-- The pieces of the deciding entry that are read as numbers; a bound is read from a text alone. -/
def pieces? : Declaring → Option (List String)
  | contentList raw | rootList raw => Listing.pieces? raw
  | rootBound (.text text) => some [text]
  | rootBound _ => none

theorem isWritable_raw {fields : FieldNames} {entries : Entries Value} {place : Declaring}
    (writable : Entries.Writable entries) (decided : find? fields entries = some place) :
    place.raw.isWritable = true := by
  have inRoot (found : inRoot? fields entries = some place) : place.raw.isWritable = true := by
    unfold inRoot? at found
    split at found
    · rename_i raw listed
      cases found
      exact writable.lookup listed
    · obtain ⟨raw, bounded, rfl⟩ := Option.map_eq_some_iff.mp found
      exact writable.lookup bounded
  unfold find? at decided
  split at decided
  · rename_i content contentFound
    split at decided
    · rename_i raw listed
      cases decided
      exact (Value.isWritable_object_iff.mp (writable.lookup contentFound)).lookup listed
    · exact inRoot decided
  · exact inRoot decided

private theorem overlong_singleton_iff {text : String} {digits : Nat} :
    Listing.Overlong [text] digits ↔ Listing.Piece.of text = .overlong digits := by
  constructor
  · intro overlong
    cases overlong with
    | here kind => exact kind
    | nothing _ later | version _ later => cases later
  · exact fun kind => .here kind

/-- What is wrong with the deciding entry is no error of its own only if it has too many digits. -/
theorem read_eq_fault_iff {fields : FieldNames} {place : Declaring} {fault : Fault}
    (writable : place.raw.isWritable = true) :
    place.read fields = .error (.fault fault) ↔
      ∃ pieces digits, place.pieces? = some pieces ∧ Listing.Overlong pieces digits ∧
        fault = .tooManyDigits digits := by
  cases place with
  | contentList raw | rootList raw =>
      simp only [read, Outcome.map_eq_error_iff]
      exact Listing.parse_eq_fault_iff writable
  | rootBound raw =>
      simp only [read, Outcome.map_eq_error_iff]
      cases text : raw with
      | array items | object entries => simp [Strategy.readBound, pieces?]
      | scalar value =>
          cases value with
          | text written =>
              rw [Strategy.readBound_text]
              cases kind : Listing.Piece.of written <;>
                simp [pieces?, overlong_singleton_iff, kind, eq_comm]
          | int number =>
              simp only [Strategy.readBound, pieces?]
              split <;> simp
          | null | bool _ | float _ | date _ | moment _ | bytes _ =>
              simp [Strategy.readBound, pieces?]

end Declaring

end Uplift
