import Uplift.Proofs.Engine.Phases

/-!
# Runs and migrations

A run looks at the root itself and makes the context that it migrates in, and a migration does both
on its own. The two come to the same: a run has the result of the migration, or the report of the
error that the migration fails with, and in both cases its notes up to there. What a migration does
not report of, a run fails with.
-/

set_option autoImplicit false

namespace Uplift

theorem MigrationResult.status_eq {δ : Type} (result : MigrationResult δ) :
    result.status = if result.applied = [] then .upToDate else .migrated := by
  simp only [status, isUpToDate, List.isEmpty_iff]

namespace Run

variable {δ : Type} {run : Run δ}

theorem result?_eq_some_iff {result : MigrationResult δ} :
    run.result? = some result ↔ run.outcome = .ok result := by
  unfold result?
  cases run.outcome <;> simp [Except.toOption]

theorem status_of_ok {result : MigrationResult δ} (succeeded : run.outcome = .ok result) :
    run.status = result.status := by
  rw [status, succeeded]

/-- A run fails exactly if it has no result. -/
theorem status_eq_failed_iff : run.status = .failed ↔ run.result? = none := by
  unfold status result?
  cases run.outcome with
  | ok result =>
      dsimp only
      rw [result.status_eq]
      split <;> simp [Except.toOption]
  | error error => simp [Except.toOption]

theorem isOk_eq_isSome (run : Run δ) : run.isOk = run.result?.isSome := by
  have failing := @status_eq_failed_iff δ run
  unfold isOk
  cases result : run.result? with
  | none => simp [failing.mpr result]
  | some found =>
      have succeeded : run.status ≠ .failed := fun failed => by
        rw [failing.mp failed] at result
        cases result
      simp [succeeded]

end Run

namespace Engine

variable {δ : Type} [Representation δ] {engine : Engine δ} {document : δ}

theorem checkRoot_of_isObject (root : (Representation.tree document).isObject = true) :
    engine.checkRoot document = .ok () := by
  unfold checkRoot
  cases tree : Representation.tree document with
  | scalar value => simp [tree, Value.isObject] at root
  | array items => simp [tree, Value.isObject] at root
  | object entries => rfl

theorem checkRoot_of_not_isObject (root : (Representation.tree document).isObject = false) :
    engine.checkRoot document =
      .error (.invalidRoot engine.family (Representation.tree document).kind) := by
  unfold checkRoot
  cases tree : Representation.tree document with
  | scalar value => rfl
  | array items => rfl
  | object entries => simp [tree, Value.isObject] at root

/-- A run keeps a record of a migration, unless the migration fails with what it has no report
of. -/
theorem run_eq (engine : Engine δ) (document : δ) :
    engine.run document =
      match (engine.migrate document).outcome with
      | .ok result => .ok ⟨.ok result, (engine.migrate document).notes⟩
      | .error (.migration error) => .ok ⟨.error error, (engine.migrate document).notes⟩
      | .error (.untyped fault) => .error fault := by
  unfold run
  cases root : (Representation.tree document).isObject with
  | false =>
      rw [checkRoot_of_not_isObject root, migrate_of_not_isObject root]
      rfl
  | true =>
      -- The context that is made first is the one that a migration makes on its own.
      unfold migrate migrateIn contextIn
      rw [checkRoot_of_isObject root]
      cases made : engine.newContext (Representation.tree document) <;> simp only [made] <;> rfl

theorem run_eq_ok_of_ok {result : MigrationResult δ}
    (migrated : (engine.migrate document).outcome = .ok result) :
    engine.run document = .ok ⟨.ok result, (engine.migrate document).notes⟩ := by
  rw [run_eq, migrated]

theorem run_eq_ok_of_error {error : MigrationError}
    (failed : (engine.migrate document).outcome = .error (.migration error)) :
    engine.run document = .ok ⟨.error error, (engine.migrate document).notes⟩ := by
  rw [run_eq, failed]

theorem run_eq_error_iff_untyped {fault : Fault} :
    engine.run document = .error fault ↔
      (engine.migrate document).outcome = .error (.untyped fault) := by
  rw [run_eq]
  cases (engine.migrate document).outcome with
  | ok result => simp
  | error failure => cases failure <;> simp

/-- The outcome that a run records is that of the migration. -/
theorem outcome_of_run {run : Run δ} (ended : engine.run document = .ok run) :
    (engine.migrate document).outcome = run.outcome.mapError Failure.migration ∧
      run.journal = (engine.migrate document).notes := by
  rw [run_eq] at ended
  cases outcome : (engine.migrate document).outcome with
  | ok result =>
      rw [outcome] at ended
      cases ended
      exact ⟨rfl, rfl⟩
  | error failure =>
      rw [outcome] at ended
      cases failure <;> cases ended
      exact ⟨rfl, rfl⟩

/-- What a run of a document tells of its migration. -/
structure Tells (engine : Engine δ) (document : δ) : Prop where
  succeeds : ∀ result, (engine.migrate document).outcome = .ok result ↔
    ∃ run, engine.run document = .ok run ∧ run.isOk = true ∧ run.result? = some result ∧
      run.report? = none ∧ run.status = result.status ∧
        run.journal = (engine.migrate document).notes
  /-- A document is up to date exactly if no step was applied to it. -/
  status : ∀ run result, engine.run document = .ok run → run.result? = some result →
    run.status = if result.applied = [] then .upToDate else .migrated
  fails : ∀ error, (engine.migrate document).outcome = .error (.migration error) ↔
    ∃ run, engine.run document = .ok run ∧ run.outcome = .error error ∧ run.isOk = false ∧
      run.status = .failed ∧ run.result? = none ∧ run.report? = some error.report ∧
        run.journal = (engine.migrate document).notes
  /-- Nothing happened before the root was found to be no object. -/
  noRoot : (Representation.tree document).isObject = false →
    engine.run document =
      .ok ⟨.error (.invalidRoot engine.family (Representation.tree document).kind), []⟩
  escapes : ∀ fault, (engine.migrate document).outcome = .error (.untyped fault) ↔
    engine.run document = .error fault
  /-- A failed run has no document. -/
  undelivered : ∀ run, engine.run document = .ok run → run.status = .failed → run.result? = none

theorem run_tells (engine : Engine δ) (document : δ) : engine.Tells document := by
  constructor
  case succeeds =>
    intro result
    constructor
    · intro migrated
      refine ⟨_, run_eq_ok_of_ok migrated, ?_, rfl, rfl, rfl, rfl⟩
      rw [Run.isOk_eq_isSome]
      rfl
    · rintro ⟨run, ended, _, found, _⟩
      rw [(outcome_of_run ended).1, Run.result?_eq_some_iff.mp found]
      rfl
  case status =>
    intro run result _ found
    rw [Run.status_of_ok (Run.result?_eq_some_iff.mp found), result.status_eq]
  case fails =>
    intro error
    constructor
    · intro failed
      exact ⟨_, run_eq_ok_of_error failed, rfl, rfl, rfl, rfl, rfl, rfl⟩
    · rintro ⟨run, ended, failed, _⟩
      rw [(outcome_of_run ended).1, failed]
      rfl
  case noRoot =>
    intro root
    rw [run_eq, migrate_of_not_isObject root]
    rfl
  case escapes => exact fun fault => run_eq_error_iff_untyped.symm
  case undelivered => exact fun run _ failed => Run.status_eq_failed_iff.mp failed

end Engine

end Uplift
