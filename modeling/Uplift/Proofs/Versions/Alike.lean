import Uplift.Proofs.Journal.Agree
import Uplift.Proofs.Rewrite.ContentField
import Uplift.Proofs.Value.Alike
import Uplift.Proofs.Versions.Resolution

/-!
# Detection and marking of versions respect the order of entries

Alike objects declare the same versions, found by the same strategy after the same attempts; or the
declarations of both cannot be read, for reasons of the same class. The errors themselves may
differ, since they quote what was read. A marker leaves alike documents alike.
-/

set_option autoImplicit false

namespace Uplift

open Value (Alike)

/-- The name of the class of errors that a failure belongs to. -/
def Failure.className : Failure → String
  | migration error => error.report.code.title
  | untyped fault => fault.name

/-- Two failures are of the same class. -/
abbrev Failure.SameClass (failure other : Failure) : Prop := failure.className = other.className

theorem Failure.sameClass_refl (failure : Failure) : failure.SameClass failure := rfl

/-- The class of the failure that an error leads to. -/
def VersionError.className : VersionError → String
  | malformed .. => Report.Code.malformedVersionField.title
  | fault cause => cause.name

theorem VersionError.className_failure (subject : Subject) (error : VersionError) :
    (error.failure subject).className = error.className := by
  cases error <;> rfl

/-!
## Reading of fields
-/

namespace Listing

variable {field : String} {raw otherRaw : Value}

theorem itemPiece_alike {item other : Value} (alike : Alike item other) :
    (itemPiece field raw item).mapError VersionError.className =
      (itemPiece field otherRaw other).mapError VersionError.className := by
  cases alike with
  | array => rfl
  | object => rfl
  | scalar value =>
      cases value with
      | int number =>
          unfold itemPiece
          split <;> rfl
      | _ => rfl

theorem mapM_itemPiece_alike {items others : List Value} (pairs : List.Forall₂ Alike items others) :
    (items.mapM (itemPiece field raw)).mapError VersionError.className =
      (others.mapM (itemPiece field otherRaw)).mapError VersionError.className := by
  induction pairs with
  | nil => rfl
  | cons head _ ih =>
      simp only [List.mapM_cons, Outcome.mapError_bind, ih]
      rw [itemPiece_alike head]

/-- Pieces are read in the same way whatever the text is that they come from. -/
theorem readPieces_alike (pieces : List String) :
    (readPieces field raw pieces).mapError VersionError.className =
      (readPieces field otherRaw pieces).mapError VersionError.className := by
  induction pieces with
  | nil => rfl
  | cons piece rest ih =>
      simp only [readPieces]
      split
      · exact ih
      · split
        · simp only [Outcome.mapError_bind, ih]
        · rfl

theorem parse_alike (alike : Alike raw otherRaw) :
    (parse field raw).mapError VersionError.className =
      (parse field otherRaw).mapError VersionError.className := by
  cases alike with
  | scalar value => rfl
  | object => rfl
  | array pairs =>
      simp only [parse, Outcome.mapError_bind]
      rw [mapM_itemPiece_alike pairs]
      exact bind_congr readPieces_alike

end Listing

namespace Strategy

theorem readBound_alike {field : String} {raw otherRaw : Value} (alike : Alike raw otherRaw) :
    (readBound field raw).mapError VersionError.className =
      (readBound field otherRaw).mapError VersionError.className := by
  cases alike <;> rfl

private theorem attempt_nestedContent_of_none {delegate : Strategy} {contentField name : String}
    {entries : Entries Value}
    (none : ¬ ∃ content, entries.lookup (.text contentField) = some (.object content)) :
    (nestedContent delegate contentField name).attempt (.object entries) = .ok .none := by
  simp only [attempt]
  split
  · rename_i content found
    exact absurd ⟨content, found⟩ none
  · rfl

theorem attempt_alike (strategy : Strategy) {entries others : Entries Value}
    (same : entries.Match Alike others) :
    (strategy.attempt (.object entries)).mapError VersionError.className =
      (strategy.attempt (.object others)).mapError VersionError.className := by
  induction strategy generalizing entries others with
  | explicitList field name =>
      rw [Resolution.attempt_explicitList, Resolution.attempt_explicitList]
      rcases same.cases field with ⟨absent, otherAbsent⟩ | ⟨_, _, found, otherFound, alike⟩
      · rw [absent, otherAbsent]
      · rw [found, otherFound]
        dsimp only
        rw [Outcome.mapError_map, Outcome.mapError_map, Outcome.mapError_map, Outcome.mapError_map,
          Listing.parse_alike alike]
  | legacyScalar field name =>
      rw [Resolution.attempt_legacyScalar, Resolution.attempt_legacyScalar]
      rcases same.cases field with ⟨absent, otherAbsent⟩ | ⟨_, _, found, otherFound, alike⟩
      · rw [absent, otherAbsent]
      · rw [found, otherFound]
        dsimp only
        rw [Outcome.mapError_map, Outcome.mapError_map, Outcome.mapError_map, Outcome.mapError_map,
          readBound_alike alike]
  | nestedContent delegate contentField name ih =>
      rcases same.cases_object contentField with
        ⟨none, otherNone⟩ | ⟨_, _, found, otherFound, sameContent⟩
      · rw [attempt_nestedContent_of_none none, attempt_nestedContent_of_none otherNone]
      · simp only [attempt, found, otherFound]
        rw [Outcome.mapError_map, Outcome.mapError_map, ih sameContent]

end Strategy

/-!
## Resolution
-/

namespace Resolution

variable {subject : Subject} {entries others : Entries Value}

theorem agree_ask (same : entries.Match Alike others) (strategies : List Strategy) :
    Logged.Agree Eq Failure.SameClass (ask subject (.object entries) strategies)
      (ask subject (.object others) strategies) := by
  induction strategies with
  | nil => exact .pure rfl
  | cons strategy rest ih =>
      have attempts := strategy.attempt_alike same
      cases attempted : strategy.attempt (.object entries) with
      | ok found =>
          rw [attempted] at attempts
          have otherAttempted := Outcome.mapError_eq_ok_iff.mp attempts.symm
          simp only [ask, attempted, otherAttempted]
          cases found with
          | none => exact .bind_same Failure.sameClass_refl _ fun _ _ => ih
          | some satisfied => exact .same Failure.sameClass_refl _
      | error error =>
          rw [attempted] at attempts
          obtain ⟨otherError, otherAttempted, sameClass⟩ :=
            Outcome.mapError_eq_error_iff.mp attempts.symm
          have failed : strategy.attempt (.object entries) =
              (Except.error error : Except VersionError Satisfied).map some := attempted
          have otherFailed : strategy.attempt (.object others) =
              (Except.error otherError : Except VersionError Satisfied).map some := otherAttempted
          refine .error (ask_outcome_of_found failed) (ask_outcome_of_found otherFailed) ?_
          rw [Failure.SameClass, VersionError.className_failure, VersionError.className_failure,
            sameClass]

theorem agree_resolve (same : entries.Match Alike others) (family : String)
    (strategies : List Strategy) :
    Logged.Agree Eq Failure.SameClass (resolve family strategies subject (.object entries))
      (resolve family strategies subject (.object others)) := by
  refine (agree_ask same strategies).bind fun asked otherAsked sameAnswer => ?_
  subst sameAnswer
  exact .same Failure.sameClass_refl _

end Resolution

/-!
## The marker
-/

theorem Marker.alike_put {fields : FieldNames} {document other : Value} (text : String)
    (alike : Alike document other) :
    Alike (put fields text document) (put fields text other) := by
  cases document with
  | scalar scalar =>
      cases alike
      exact .scalar scalar
  | array items =>
      obtain ⟨others, rfl, _⟩ := alike.exists_array
      exact alike
  | object entries =>
      obtain ⟨others, rfl, same⟩ := alike.exists_object
      rcases same.cases_object fields.content with
        ⟨none, otherNone⟩ | ⟨content, otherContent, found, otherFound, sameContent⟩
      · rw [put_of_no_content none, put_of_no_content otherNone]
        exact Alike.object_iff.mpr (same.put _ (.scalar _))
      · rw [put_of_content found, put_of_content otherFound]
        exact Alike.object_iff.mpr
          (same.put _ (Alike.object_iff.mpr (sameContent.put _ (.scalar _))))

end Uplift
