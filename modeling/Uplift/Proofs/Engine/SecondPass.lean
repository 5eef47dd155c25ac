import Uplift.Proofs.Engine.Delivery

/-!
# The second pass

A document that a standard engine delivers is left alone by the same engine. If the first pass had
no plan then the second one meets the same document, and otherwise the marker tells that every
registered version is there.
-/

set_option autoImplicit false

namespace Uplift.Engine

variable {engine : Engine Value} {document last : Value} {result : MigrationResult Value}

def untouched (engine : Engine Value) (document : Value) (satisfied : Satisfied)
    (digest : String) : MigrationResult Value where
  family := engine.family
  document := document
  applied := []
  satisfied := satisfied
  inputDigest := digest
  outputDigest := digest

/-- A document that declares every registered version is delivered as it is. -/
theorem migrate_of_outstanding_eq_nil {satisfied : Satisfied} {digest : String}
    (starts : engine.Starts document satisfied digest)
    (complete : Plan.outstanding engine.registry satisfied.declaration = []) :
    (engine.migrate document).outcome = .ok (engine.untouched document satisfied digest) := by
  refine migrate_eq_ok_iff.mpr ⟨document, ?_⟩
  constructor
  case starts => exact starts
  case performed =>
    simp only [execution, untouched, complete]
    rfl
  case marked =>
    refine marking_eq_ok_iff.mpr ⟨fun marked => ?_, ?_⟩
    · exact absurd complete (isMarked_eq_true_iff.mp marked).2
    · exact (delivered_of_outstanding_eq_nil complete).symm
  case digested => exact starts.digested
  case applied => simp only [untouched, complete, List.map_nil]
  case family => rfl

/-- A standard engine that marks documents has nothing to do on what it has delivered. -/
theorem Completes.starts_again (completes : engine.Completes document last result)
    (standard : engine.Standard) (stamping : engine.stampVersions = true) :
    ∃ again, engine.Starts result.document again result.outputDigest ∧
      Plan.outstanding engine.registry again.declaration = [] := by
  obtain ⟨again, resolved, declared⟩ := completes.resolution_again standard stamping
  have root : result.document.isObject = true := by
    rw [completes.document_eq]
    exact isObject_delivered completes.isObject_last
  by_cases nothing : result.applied = []
  · rw [if_pos nothing] at declared
    have complete := completes.applied_eq_nil_iff.mp nothing
    have same := completes.document_eq_of_outstanding_eq_nil complete
    refine ⟨again, ⟨root, completes.digested, resolved, ?_⟩, ?_⟩
    · rw [declared, same]
      exact completes.starts.accepted
    · rw [declared]
      exact complete
  · rw [if_neg nothing] at declared
    refine ⟨again, ⟨root, completes.digested, resolved, ?_⟩, ?_⟩
    · rw [declared]
      exact inspection_of_registered fun _ registered => registered
    · rw [declared]
      refine Plan.outstanding_eq_nil_iff.mpr fun version registered => ?_
      simpa [Declaration.contains] using registered

/-- Whatever the steps do and however the fields are called, an engine that is assembled with the
standard strategies and marks its documents delivers them so that a second pass applies no step and
gives back the same document. -/
theorem migrate_delivered {family : String} {steps : List (Step Value)} {fields : FieldNames}
    {rejectNewer : Bool}
    (assembled : assemble family steps fields none true rejectNewer = .ok engine)
    (migrated : (engine.migrate document).outcome = .ok result) :
    ∃ again, (engine.migrate result.document).outcome = .ok again ∧
      again.applied = [] ∧ again.document = result.document ∧ again.status = .upToDate ∧
        again.inputDigest = result.outputDigest ∧ again.outputDigest = result.outputDigest := by
  obtain ⟨standard, stamping⟩ := standard_of_assemble assembled
  obtain ⟨last, completes⟩ := migrate_eq_ok_iff.mp migrated
  obtain ⟨satisfied, starts, complete⟩ := completes.starts_again standard stamping
  exact ⟨_, migrate_of_outstanding_eq_nil starts complete, rfl, rfl, rfl, rfl, rfl⟩

def flatService : Value :=
  .object [(.text "version", .text "0"), (.text "title", .text "Orders")]

theorem migrate_delivered_flatService :
    ∃ result again, (ofServices.migrate flatService).outcome = .ok result ∧
      result.applied = [101, 102] ∧
      (ofServices.migrate result.document).outcome = .ok again ∧ again.applied = [] ∧
        again.document = result.document ∧ again.status = .upToDate ∧
          again.inputDigest = result.outputDigest ∧ again.outputDigest = result.outputDigest := by
  have seen : (ofServices.migrate flatService).outcome.toOption.map (·.applied) =
      some [101, 102] := by
    decide +kernel
  obtain ⟨result, migrated, applied⟩ := Outcome.exists_eq_ok_of_toOption_map seen
  obtain ⟨again, secondPass⟩ :=
    migrate_delivered (assemble_family Rewrite.onTree ⟨true, false, [], ""⟩ .service) migrated
  exact ⟨result, again, migrated, applied, secondPass⟩

end Uplift.Engine
