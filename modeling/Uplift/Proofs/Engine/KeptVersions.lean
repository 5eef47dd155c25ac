import Uplift.Proofs.Engine.Delivery

/-!
# Versions that a document keeps

The marker of a migration takes the place of what the document declared before. It lists registered
versions only, so a version that the document declared and that is not registered is kept as long as
nothing is applied, and is forgotten with the first step that is.
-/

set_option autoImplicit false

namespace Uplift.Engine

variable {engine : Engine Value} {document last : Value} {result : MigrationResult Value}

/-- A version that a document lists is still declared after its migration exactly if no step was
applied or the version is registered. Otherwise a registry that comes to have the version plans it
again. -/
theorem contains_after_migration_iff {family : String} {steps : List (Step Value)}
    {fields : FieldNames} {rejectNewer : Bool} {satisfied : Satisfied} {versions : List Int}
    (assembled : assemble family steps fields none true rejectNewer = .ok engine)
    (resolved : engine.resolution document = .ok satisfied)
    (explicit : satisfied.declaration = .explicit versions)
    (migrated : (engine.migrate document).outcome = .ok result) :
    ∃ again, engine.resolution result.document = .ok again ∧
      (∀ version ∈ versions, again.declaration.contains version = true ↔
        result.applied = [] ∨ version ∈ engine.registry.versions) ∧
      ∀ (later : Registry Value), ∀ version ∈ versions, version ∈ later.versions →
        (version ∈ (Plan.outstanding later again.declaration).map (·.1) ↔
          result.applied ≠ [] ∧ version ∉ engine.registry.versions) := by
  obtain ⟨standard, stamping⟩ := standard_of_assemble assembled
  obtain ⟨last, completes⟩ := migrate_eq_ok_iff.mp migrated
  obtain ⟨again, resolvedAgain, declared⟩ := completes.resolution_again standard stamping
  rw [completes.starts.satisfied_eq resolved, explicit] at declared
  have kept : ∀ version ∈ versions, again.declaration.contains version = true ↔
      result.applied = [] ∨ version ∈ engine.registry.versions := by
    intro version listed
    rw [declared]
    by_cases nothing : result.applied = []
    · simp [nothing, Declaration.contains, listed]
    · simp [nothing, Declaration.contains]
  refine ⟨again, resolvedAgain, kept, ?_⟩
  intro later version listed registered
  rw [Plan.mem_outstanding_versions, ← Bool.not_eq_true, kept version listed, not_or]
  exact ⟨fun planned => planned.2, fun forgotten => ⟨registered, forgotten⟩⟩

def laterService : Value :=
  .object [(.text "migrations", .text "[200]"), (.text "title", .text "Orders")]

theorem contains_after_migration_laterService :
    ∃ result again, ofServices.resolution laterService = .ok ⟨.explicit [200], "explicit-list"⟩ ∧
      (ofServices.migrate laterService).outcome = .ok result ∧ result.applied = [101, 102] ∧
        ofServices.resolution result.document = .ok again ∧
          again.declaration.contains 200 = false := by
  have seen : (ofServices.migrate laterService).outcome.toOption.map (·.applied) =
      some [101, 102] := by
    decide +kernel
  obtain ⟨result, migrated, applied⟩ := Outcome.exists_eq_ok_of_toOption_map seen
  obtain ⟨again, resolvedAgain, kept, _⟩ := contains_after_migration_iff
    (assemble_family Rewrite.onTree ⟨true, false, [], ""⟩ .service) rfl rfl migrated
  refine ⟨result, again, rfl, migrated, applied, resolvedAgain, ?_⟩
  rw [← Bool.not_eq_true, kept 200 (by decide), applied]
  decide +kernel

end Uplift.Engine
