import Uplift.Proofs.Engine.Delivery
import Uplift.Proofs.Engine.Runs
import Uplift.Proofs.Scalar.Blank

/-!
# Whom a failure is about

Every migration error of an object tells the identity that the document had when it was taken in.
No step has a part in this: neither what it made of the identifier and the name, nor what identity
was carried by the error that it failed with.
-/

set_option autoImplicit false

namespace Uplift

/-- An error is about a document; a root that is no object has no identity. -/
def MigrationError.Concerns (subject : Subject) : MigrationError → Prop
  | unresolved _ _ about | malformed _ _ _ _ about | newer _ _ _ about | stepFailed _ _ _ about =>
      about = subject
  | invalidRoot _ _ => False

/-- If an action fails with a migration error then that is about the document. -/
def Logged.Concerns {α : Type} (subject : Subject) (action : Logged Failure α) : Prop :=
  ∀ error, action.outcome = .error (.migration error) → error.Concerns subject

namespace Logged.Concerns

variable {α β : Type} {subject : Subject} {action : Logged Failure α}

theorem of_ok {value : α} (succeeds : action.outcome = .ok value) : action.Concerns subject := by
  intro error failed
  rw [succeeds] at failed
  cases failed

theorem of_untyped {fault : Fault} (failed : action.outcome = .error (.untyped fault)) :
    action.Concerns subject := by
  intro error typed
  rw [failed] at typed
  cases typed

theorem of_migration {error : MigrationError}
    (failed : action.outcome = .error (.migration error)) (about : error.Concerns subject) :
    action.Concerns subject := by
  intro other typed
  rw [failed] at typed
  cases typed
  exact about

theorem bind (first : action.Concerns subject) {next : α → Logged Failure β}
    (later : ∀ value, (next value).Concerns subject) : (action >>= next).Concerns subject := by
  intro error failed
  rcases Logged.bind_outcome_error.mp failed with early | ⟨value, _, late⟩
  · exact first error early
  · exact later value error late

theorem ofExcept (outcome : Except Fault α) :
    (Logged.ofExcept (outcome.mapError Failure.untyped)).Concerns subject := by
  cases outcome with
  | ok value => exact of_ok rfl
  | error fault => exact of_untyped rfl

end Logged.Concerns

/-!
## The phases of a migration
-/

open Logged (Concerns)

variable {subject : Subject}

theorem Resolution.ask_concerns (subject : Subject) (document : Value)
    (strategies : List Strategy) : (ask subject document strategies).Concerns subject := by
  induction strategies with
  | nil => exact .of_ok rfl
  | cons strategy rest ih =>
      unfold ask
      split
      · exact .of_migration rfl rfl
      · exact .of_untyped rfl
      · exact .bind (.of_ok rfl) fun _ => ih
      · exact .of_ok rfl

theorem Resolution.resolve_concerns (family : String) (strategies : List Strategy)
    (subject : Subject) (document : Value) :
    (resolve family strategies subject document).Concerns subject := by
  refine .bind (ask_concerns subject document strategies) fun found => ?_
  cases found with
  | some satisfied => exact .of_ok rfl
  | none => exact .of_migration rfl rfl

namespace Engine

variable {δ : Type}

theorem guard_concerns (engine : Engine δ) (subject : Subject) (declaration : Declaration) :
    (engine.guard subject declaration).Concerns subject := by
  unfold guard
  dsimp only
  split
  · exact .of_migration rfl rfl
  · exact .of_ok rfl

variable [Representation δ]

/-- A step fails on behalf of the document, whatever it was applied to and whatever it raised. -/
theorem perform_concerns (engine : Engine δ) (context : Context) (version : Int) (step : Step δ)
    (reached : δ) : (engine.perform context version step reached).Concerns context.subject := by
  unfold perform
  split
  · exact .of_untyped rfl
  · dsimp only
    split
    · exact .of_ok rfl
    · exact .of_migration rfl rfl

theorem performAll_concerns (engine : Engine δ) (context : Context) (plan : List (Int × Step δ))
    (reached : δ) : (engine.performAll context plan reached).Concerns context.subject := by
  induction plan generalizing reached with
  | nil => exact .of_ok rfl
  | cons entry rest ih =>
      obtain ⟨version, step⟩ := entry
      exact .bind (engine.perform_concerns context version step reached) ih

theorem migrate_concerns (engine : Engine δ) {document : δ}
    (root : (Representation.tree document).isObject = true) :
    (engine.migrate document).Concerns
      (engine.contextOf (Representation.tree document)).subject := by
  rw [migrate_of_isObject root]
  refine .bind (.ofExcept _) fun _ => ?_
  refine .bind (Resolution.resolve_concerns _ _ _ _) fun satisfied => ?_
  refine .bind (engine.guard_concerns _ _) fun _ => ?_
  refine .bind (.of_ok rfl) fun _ => ?_
  refine .bind (engine.performAll_concerns _ _ _) fun _ => ?_
  refine .bind (.ofExcept _) fun _ => ?_
  refine .bind (.of_ok rfl) fun _ => ?_
  exact .bind (.ofExcept _) fun _ => .of_ok rfl

end Engine

/-!
## The identity of a document
-/

/-- The identity that an object has in a field: the text of a scalar that is not null and not the
empty text. -/
def identityIn (field : String) (entries : Entries Value) : Value :=
  match entries.lookup (.text field) with
  | some (.scalar scalar) =>
      if scalar = .null ∨ scalar = .text "" then .null else .text scalar.wording
  | _ => .null

/-- A report tells the identity of an object. -/
structure Report.Identifies (report : Report) (fields : FieldNames) (entries : Entries Value) :
    Prop where
  id : report.entityId = identityIn fields.id entries
  name : report.entityName = identityIn fields.name entries

theorem Scalar.wording_eq_empty_iff {scalar : Scalar} :
    scalar.wording = "" ↔ scalar = .null ∨ scalar = .text "" := by
  constructor
  · intro empty
    have wordless : scalar.isWordless = true := by
      rw [Scalar.isWordless, empty]
      rfl
    rcases Scalar.isWordless_iff.mp wordless with rfl | ⟨written, rfl, _⟩
    · exact .inl rfl
    · exact .inr (congrArg Scalar.text empty)
  · rintro (rfl | rfl) <;> rfl

theorem textOrNull_identity? (field : String) (entries : Entries Value) :
    Report.textOrNull (Engine.identity? field (.object entries)) = identityIn field entries := by
  rw [Engine.identity?, Value.get?, identityIn]
  rcases entries.lookup (.text field) with _ | ⟨scalar⟩ | items | inner
  · rfl
  · by_cases empty : scalar.wording = ""
    · rcases Scalar.wording_eq_empty_iff.mp empty with rfl | rfl <;> rfl
    · have visible : (Value.scalar scalar).wording.isEmpty = false :=
        Bool.eq_false_iff.mpr (mt String.isEmpty_iff.mp empty)
      dsimp only
      rw [visible, if_neg (mt Scalar.wording_eq_empty_iff.mpr empty)]
      rfl
  · rfl
  · rfl

theorem MigrationError.Concerns.report_identifies {fields : FieldNames} {entries : Entries Value}
    {error : MigrationError}
    (concerns : error.Concerns (Engine.subjectOf fields (.object entries))) :
    error.report.Identifies fields entries := by
  cases error with
  | invalidRoot => cases concerns
  | unresolved family strategies about | malformed field raw token hint about
  | newer family unknown latest about | stepFailed family version cause about =>
      cases concerns
      exact ⟨textOrNull_identity? _ _, textOrNull_identity? _ _⟩

namespace Engine

variable {δ : Type} [Representation δ]

/-- Every migration error of an object, and every failed run, tells the identity that the object
has. The steps of the engine are any, its strategies are those of the library. -/
theorem failures_identify (engine : Engine δ) {document : δ} {entries : Entries Value}
    (root : Representation.tree document = .object entries) :
    (∀ error, (engine.migrate document).outcome = .error (.migration error) →
        error.report.Identifies engine.fields entries) ∧
      ∀ run, engine.run document = .ok run → run.status = .failed →
        ∃ report, run.report? = some report ∧ report.Identifies engine.fields entries := by
  have told (error : MigrationError)
      (failed : (engine.migrate document).outcome = .error (.migration error)) :
      error.report.Identifies engine.fields entries := by
    have concerns := engine.migrate_concerns (by rw [root]; rfl) error failed
    rw [root] at concerns
    exact concerns.report_identifies
  refine ⟨told, fun run ended failed => ?_⟩
  have recorded := (outcome_of_run ended).1
  cases outcome : run.outcome with
  | ok result =>
      have absent := Run.status_eq_failed_iff.mp failed
      rw [Run.result?_eq_some_iff.mpr outcome] at absent
      cases absent
  | error error =>
      rw [outcome] at recorded
      refine ⟨error.report, ?_, told error recorded⟩
      rw [Run.report?, outcome]

/-- A step that changes the identity, and one that fails on behalf of another document. -/
def renamingStep : Step Value where
  version := some (.int 1)
  description := "rename"
  apply _ _ := pure (.object [(.text "id", .text "renamed"), (.text "name", .text "renamed")])

def refusingStep : Step Value where
  version := some (.int 2)
  description := "refuse"
  apply _ _ := Logged.fail
    (.reported ((Report.internal "Refused" "").about ⟨some "other", some "other"⟩))

def renamingEngine : Engine Value where
  family := "ledger"
  fields := .standard
  registry := ⟨[(1, renamingStep), (2, refusingStep)], true⟩
  strategies := Strategy.standard .standard
  stampVersions := true
  rejectNewer := false

def ledger : Entries Value :=
  [(.text "version", .int 0), (.text "id", .int 7), (.text "name", .array [])]

theorem failures_identify_ledger :
    ∃ error, (renamingEngine.migrate (.object ledger)).outcome = .error (.migration error) ∧
      error.report.code = .stepFailed ∧ error.report.entityId = .text "7" ∧
        error.report.entityName = .null := by
  have root : Representation.tree (Value.object ledger) = .object ledger := rfl
  have writable : (Value.object ledger).isWritable = true := by
    decide +kernel
  have starts : renamingEngine.Starts (.object ledger) ⟨.legacy 0, "legacy-scalar"⟩
      (Digest.hex (.object ledger)) :=
    ⟨rfl, (digestion_eq_ok_iff rfl).mpr ⟨writable, rfl⟩, rfl, rfl⟩
  have named : Scalar.isWritable (.int 1) = true ∧ Scalar.isWritable (.int 2) = true := by
    decide +kernel
  have failed : (renamingEngine.migrate (.object ledger)).outcome =
      .error (.migration (.stepFailed "ledger" 2 _ ⟨some "7", none⟩)) :=
    migrate_eq_error_iff.mpr (.step starts (performAll_eq_error_iff.mpr
      ⟨[(1, renamingStep)], 2, refusingStep, _, ⟨⟨[], rfl⟩, .cons ⟨rfl, rfl⟩ .nil⟩,
        List.forall_mem_singleton.mpr named.1, perform_of_fails _ named.2 (.raised rfl)⟩))
  have told := (failures_identify renamingEngine root).1 _ failed
  exact ⟨_, failed, rfl, told.id, told.name⟩

end Engine

end Uplift
