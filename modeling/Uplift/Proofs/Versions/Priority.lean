import Uplift.Proofs.Versions.Grammar
import Uplift.Proofs.Versions.Resolution

/-!
# The priority of version fields

Three entries of a document may declare versions: the migrations field of the content, that of the
root, and the version field of the root. The first of them that is there decides alone. So a
declaration that cannot be read is not made up for by another one, and documents that agree on the
deciding entry are resolved alike, whatever else they hold.
-/

set_option autoImplicit false

namespace Uplift

open Text (Trims)
open Listing (Denotes IsDigits)

/-- A bound is a natural number or its text, and null stands for zero. -/
inductive Bounds : Value → Int → Prop where
  | null : Bounds .null 0
  | int {number : Int} : 0 ≤ number → Bounds (.int number) number
  | text {text token : String} {number : Int} :
      Trims text token → Denotes token number → Bounds (.text text) number

namespace Declaring

/-- What a deciding entry says if it is well formed. -/
inductive Declares : Declaring → Satisfied → Prop where
  | contentList {raw : Value} {versions : List Int} : Listing.Lists raw versions →
      Declares (.contentList raw)
        ⟨.explicit versions, Strategy.nestedName ++ "/" ++ Strategy.explicitName⟩
  | rootList {raw : Value} {versions : List Int} : Listing.Lists raw versions →
      Declares (.rootList raw) ⟨.explicit versions, Strategy.explicitName⟩
  | rootBound {raw : Value} {number : Int} : Bounds raw number →
      Declares (.rootBound raw) ⟨.legacy number, Strategy.legacyName⟩

/-- The name of the field that a deciding entry stands under. -/
def field (fields : FieldNames) : Declaring → String
  | contentList _ | rootList _ => fields.migrations
  | rootBound _ => fields.version

/-- A text that is read as a number if it is a run of digits. -/
inductive Token : Declaring → String → Prop where
  | contentList {raw : Value} {tokens : List String} {token : String} :
      Listing.Tokens raw tokens → token ∈ tokens → Token (.contentList raw) token
  | rootList {raw : Value} {tokens : List String} {token : String} :
      Listing.Tokens raw tokens → token ∈ tokens → Token (.rootList raw) token
  | rootBound {text token : String} : Trims text token → Token (.rootBound (.text text)) token

/-- No number in a deciding entry has more digits than are converted. -/
structure Short (place : Declaring) : Prop where
  integers : place.raw.isWritable = true
  tokens : ∀ token, place.Token token → IsDigits token → token.length ≤ Fault.digitLimit

end Declaring

/-!
## Reading of the deciding entry
-/

theorem Strategy.readBound_of_bounds {field : String} {raw : Value} {number : Int}
    (bounds : Bounds raw number) : readBound field raw = .ok number := by
  cases bounds with
  | null => rfl
  | int nonneg => rw [readBound, if_pos nonneg]
  | text trims denotes =>
      rw [readBound_text, Listing.Piece.of_denotes trims denotes, denotes.value]

/-- A value is a bound, or it is refused; only a text with too many digits is neither. -/
theorem Strategy.bounds_or_malformed (field : String) {raw : Value}
    (short : (Declaring.rootBound raw).Short) :
    (∃ number, Bounds raw number) ∨
      readBound field raw = .error (.malformed field raw none VersionError.scalarHint) := by
  cases raw with
  | array items => exact .inr rfl
  | object entries => exact .inr rfl
  | scalar value =>
      cases value with
      | null => exact .inl ⟨0, .null⟩
      | int number =>
          by_cases nonneg : 0 ≤ number
          · exact .inl ⟨number, .int nonneg⟩
          · exact .inr (if_neg nonneg)
      | text text =>
          have trims : Trims text (Text.trim text) := Text.trim_eq_iff.mp rfl
          by_cases digits : IsDigits (Text.trim text)
          · exact .inl ⟨_, .text trims ⟨digits, short.tokens _ (.rootBound trims) digits, rfl⟩⟩
          · refine .inr ?_
            rw [readBound_text, Listing.Piece.of_foreign trims digits]
            by_cases nothing : Text.trim text = "" <;> simp [nothing]
      | bool _ | float _ | date _ | moment _ | bytes _ => exact .inr rfl

namespace Declaring

variable {fields : FieldNames} {place : Declaring} {satisfied : Satisfied}

theorem read_of_declares (declares : place.Declares satisfied)
    (writable : place.raw.isWritable = true) : place.read fields = .ok satisfied := by
  cases declares with
  | @contentList raw versions lists | @rootList raw versions lists =>
      have parsed : Listing.parse fields.migrations raw = .ok versions :=
        (Listing.parse_eq_ok_iff writable).mpr lists
      rw [read, parsed]
      rfl
  | rootBound bounds =>
      rw [read, Strategy.readBound_of_bounds bounds]
      rfl

theorem declares_or_malformed (fields : FieldNames) (short : place.Short) :
    (∃ satisfied, place.Declares satisfied) ∨ ∃ token hint, place.read fields =
      .error (.malformed (place.field fields) place.raw token hint) := by
  cases place with
  | contentList raw | rootList raw =>
      have tokens : Listing.ShortTokens raw := by
        intro tokens listed token member
        refine short.tokens token ?_
        constructor
        · exact listed
        · exact member
      rcases Listing.lists_or_malformed fields.migrations raw short.integers tokens with
        ⟨versions, lists⟩ | ⟨token, failed⟩
      · exact .inl ⟨_, by constructor; exact lists⟩
      · exact .inr ⟨token, VersionError.listHint, by rw [read, failed]; rfl⟩
  | rootBound raw =>
      rcases Strategy.bounds_or_malformed fields.version short with ⟨number, bounds⟩ | failed
      · exact .inl ⟨_, .rootBound bounds⟩
      · exact .inr ⟨none, VersionError.scalarHint, by rw [read, failed]; rfl⟩

theorem read_eq_ok_iff (short : place.Short) :
    place.read fields = .ok satisfied ↔ place.Declares satisfied := by
  constructor
  · intro result
    rcases declares_or_malformed fields short with ⟨other, declares⟩ | ⟨token, hint, failed⟩
    · obtain rfl : other = satisfied :=
        Except.ok.inj ((read_of_declares declares short.integers).symm.trans result)
      exact declares
    · rw [failed] at result
      cases result
  · exact fun declares => read_of_declares declares short.integers

end Declaring

/-!
## Detection
-/

/-- What a failure tells, apart from the document that it is about. -/
def Failure.anonymous : Failure → Report
  | migration error => error.report.about .unknown
  | untyped fault => fault.report

namespace Resolution

theorem anonymous_detection (family : String) (fields : FieldNames) (subject other : Subject)
    (found : Option Declaring) :
    (detection family fields subject found).mapError Failure.anonymous =
      (detection family fields other found).mapError Failure.anonymous := by
  cases found with
  | none => rfl
  | some place =>
      simp only [detection, Logged.mapError]
      cases place.read fields with
      | ok satisfied => rfl
      | error error => cases error <;> rfl

/-- How the versions of a document are detected under the standard strategies. -/
structure Detects (family : String) (fields : FieldNames) (entries : Entries Value) : Prop where
  decided : ∃ found, ∀ other, Decides fields entries other ↔ other = found
  declared : ∀ place, Decides fields entries (some place) → place.Short →
    ∀ subject satisfied,
      (resolve family (Strategy.standard fields) subject (.object entries)).outcome =
        .ok satisfied ↔ place.Declares satisfied
  malformed : ∀ place, Decides fields entries (some place) → place.Short →
    (∀ satisfied, ¬ place.Declares satisfied) → ∀ subject, ∃ token hint,
      (resolve family (Strategy.standard fields) subject (.object entries)).outcome =
        .error (.migration (.malformed (place.field fields) place.raw token hint subject))
  unresolved : Decides fields entries none → ∀ subject,
    (resolve family (Strategy.standard fields) subject (.object entries)).outcome =
      .error (.migration
        (.unresolved family ((Strategy.standard fields).map Strategy.name) subject))
  /-- Another document in which the same entry decides is resolved alike, with the same notes. -/
  alone : ∀ found, Decides fields entries found → ∀ others, Decides fields others found →
    ∀ subject other,
      (resolve family (Strategy.standard fields) subject (.object entries)).mapError
          Failure.anonymous =
        (resolve family (Strategy.standard fields) other (.object others)).mapError
          Failure.anonymous

theorem resolve_detects (family : String) (fields : FieldNames) (entries : Entries Value) :
    Detects family fields entries where
  decided := by
    obtain ⟨found, decides⟩ := exists_decides fields entries
    refine ⟨found, fun other => ⟨fun others => ?_, fun same => same ▸ decides⟩⟩
    rw [← others.find?_eq, decides.find?_eq]
  declared place decides short subject satisfied := by
    rw [resolve_of_decides family decides, ← Declaring.read_eq_ok_iff short]
    exact Outcome.mapError_eq_ok_iff
  malformed place decides short none subject := by
    rcases Declaring.declares_or_malformed fields short with
      ⟨satisfied, declares⟩ | ⟨token, hint, failed⟩
    · exact absurd declares (none satisfied)
    · refine ⟨token, hint, ?_⟩
      rw [resolve_of_decides family decides, detection, failed]
      rfl
  unresolved decides subject := by
    rw [resolve_of_decides family decides]
    rfl
  alone found decides others otherDecides subject other := by
    rw [resolve_of_decides family decides, resolve_of_decides family otherDecides]
    exact anonymous_detection family fields subject other found

/-- A list of versions that cannot be read, next to a bound that may be anything. -/
def spoiledDocument (id : String) (version : Value) : Entries Value :=
  [(.text "id", .text id), (.text "content", .text "migrations"), (.text "version", version),
    (.text "migrations", .text "[1, x]")]

theorem resolve_detects_spoiledDocument :
    (resolve "chain" (Strategy.standard .standard) ⟨some "a", none⟩
        (.object (spoiledDocument "a" (.int 3)))).outcome =
      .error (.migration (.malformed "migrations" (.text "[1, x]") (some "x")
        VersionError.listHint ⟨some "a", none⟩)) ∧
    (resolve "chain" (Strategy.standard .standard) ⟨some "a", none⟩
        (.object (spoiledDocument "a" (.int 3)))).mapError Failure.anonymous =
      (resolve "chain" (Strategy.standard .standard) ⟨some "b", none⟩
        (.object (spoiledDocument "b" (.text "v3")))).mapError Failure.anonymous := by
  have decides (id : String) (version : Value) :
      Decides .standard (spoiledDocument id version)
        (some (.rootList (.text "[1, x]"))) := by
    refine .rootList ?_ rfl
    rintro other ⟨content, found, _⟩
    cases found
  exact ⟨rfl, (resolve_detects "chain" .standard (spoiledDocument "a" (.int 3))).alone _
    (decides _ _) _ (decides _ _) _ _⟩

end Resolution

end Uplift
