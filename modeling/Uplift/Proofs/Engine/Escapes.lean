import Uplift.Proofs.Engine.Delivery
import Uplift.Proofs.Engine.FamilyPlan
import Uplift.Proofs.Engine.Runs
import Uplift.Proofs.Versions.Overlong

/-!
# What escapes a run

The engine of a known family reports what goes wrong with a document, with two exceptions. An
integer that has too many digits cannot be digested, and a version field may have a run of too many
digits where a version is read. Behind the resolution of its versions nothing escapes any more: the
versions of the families are short, and their steps keep documents writable.
-/

set_option autoImplicit false

namespace Uplift.Engine

/-- What goes wrong with a document and is not reported. Its texts are made of characters: one with a
lone surrogate, on which the digest fails as on an integer of too many digits, is refused where it is
read. -/
inductive Escapes (fields : FieldNames) : Value → Fault → Prop where
  | integer {entries : Entries Value} : (Value.object entries).isWritable = false →
      Escapes fields (.object entries) .integerTooLong
  | version {entries : Entries Value} {place : Declaring} {pieces : List String} {digits : Nat} :
      (Value.object entries).isWritable = true →
      Declaring.find? fields entries = some place → place.pieces? = some pieces →
      Listing.Overlong pieces digits → Escapes fields (.object entries) (.tooManyDigits digits)

section Standard

variable {engine : Engine Value} {entries : Entries Value} {fault : Fault}

/-- The resolution of a document that can be written lets only a run of too many digits escape. -/
theorem resolution_eq_untyped_iff (standard : engine.Standard)
    (writable : Entries.Writable entries) :
    engine.resolution (.object entries) = .error (.untyped fault) ↔
      ∃ place pieces digits, Declaring.find? engine.fields entries = some place ∧
        place.pieces? = some pieces ∧ Listing.Overlong pieces digits ∧
          fault = .tooManyDigits digits := by
  have outcome := Resolution.resolve_standard_outcome engine.family
    (engine.contextOf (.object entries)).subject engine.fields entries
  simp only [resolution, Representation.tree_value, standard.strategies, outcome]
  cases decided : Declaring.find? engine.fields entries with
  | none => simp
  | some place =>
      have faults := @Declaring.read_eq_fault_iff engine.fields place fault
        (Declaring.isWritable_raw writable decided)
      simp only [Option.some.injEq, exists_eq_left', exists_and_left]
      cases result : place.read engine.fields with
      | ok satisfied =>
          rw [result] at faults
          simpa using faults
      | error error =>
          rw [result] at faults
          cases error <;>
            simpa [VersionError.failure, eq_comm] using faults

/-- What the guard rejects is reported. -/
theorem inspection_ne_untyped {document : Value} {declaration : Declaration} :
    engine.inspection document declaration ≠ .error (.untyped fault) := by
  unfold inspection guard
  simp only
  split
  · rw [Logged.bind_outcome_of_ok _ (Logged.note_outcome _)]
    simp
  · simp

/-- What a step fails with is reported if the step has an identifier. -/
theorem execution_ne_untyped {document : Value} {declaration : Declaration}
    (named : Named (Plan.outstanding engine.registry declaration)) :
    engine.execution document declaration ≠ .error (.untyped fault) := by
  intro failed
  obtain ⟨before, version, step, reached, ⟨⟨rest, plan⟩, _⟩, _, escaped⟩ :=
    performAll_eq_error_iff.mp failed
  rcases perform_eq_error_iff.mp escaped with ⟨unwritable, _⟩ | ⟨_, cause, _, reported⟩
  · have member : (version, step) ∈ Plan.outstanding engine.registry declaration := by
      rw [plan]
      exact List.mem_append_right _ (.head _)
    rw [named _ member] at unwritable
    cases unwritable
  · cases reported

end Standard

variable {settings : Settings} {family : Family} {document last : Value}
  {declaration : Declaration}

private theorem named_outstanding :
    Named (Plan.outstanding (ofTrees settings family).registry declaration) := by
  intro entry planned
  have member := List.mem_map_of_mem (f := (·.1)) planned
  exact isWritable_registered (Plan.mem_outstanding_versions.mp member).1

private theorem digestion_of_execution (root : document.isObject = true)
    (writable : document.isWritable = true)
    (performed : (ofTrees settings family).execution document declaration = .ok last) :
    ∃ digest, digestion ((ofTrees settings family).delivered declaration last) = .ok digest := by
  obtain ⟨_, runs⟩ := performAll_eq_ok_iff.mp performed
  exact ⟨_, digestion_delivered (runs.isObject root)
    (runs.isWritable (fun _ planned => keepsWritable_of_planned planned) writable)⟩

theorem migrate_eq_untyped_iff {fault : Fault} :
    ((ofTrees settings family).migrate document).outcome = .error (.untyped fault) ↔
      Escapes (settings.fieldsFor family.name) document fault := by
  have standard := standard_family Rewrite.onTree settings family
  rw [migrate_eq_error_iff]
  constructor
  · -- The phases are told apart by the failure, so the fault is kept beside it.
    generalize escaped : Failure.untyped fault = failure
    intro breaks
    cases breaks with
    | root => cases escaped
    | input root undigested =>
        obtain ⟨unwritable, rfl⟩ := (digestion_eq_error_iff root).mp undigested
        cases escaped
        cases document with
        | scalar value => cases root
        | array items => cases root
        | object entries => exact .integer unwritable
    | resolution root digested unresolved =>
        cases escaped
        cases document with
        | scalar value => cases root
        | array items => cases root
        | object entries =>
            have writable := ((digestion_eq_ok_iff root).mp digested).1
            obtain ⟨place, pieces, digits, decided, found, overlong, rfl⟩ :=
              (resolution_eq_untyped_iff standard (Value.isWritable_object_iff.mp writable)).mp
                unresolved
            exact .version writable decided found overlong
    | guard _ _ _ rejected =>
        cases escaped
        exact absurd rejected inspection_ne_untyped
    | step _ failed =>
        cases escaped
        exact absurd failed (execution_ne_untyped named_outstanding)
    | marker starts performed unmarked =>
        rw [marking_eq_delivered fun _ => isWritable_registered] at unmarked
        cases unmarked
    | output starts performed marked undigested =>
        have writable := ((digestion_eq_ok_iff starts.root).mp starts.digested).1
        obtain ⟨digest, digested⟩ := digestion_of_execution starts.root writable performed
        rw [marking_eq_delivered fun _ => isWritable_registered] at marked
        cases marked
        rw [digested] at undigested
        cases undigested
  · intro escapes
    cases escapes with
    | integer unwritable =>
        exact .input rfl ((digestion_eq_error_iff rfl).mpr ⟨unwritable, rfl⟩)
    | version writable decided found overlong =>
        refine .resolution rfl ((digestion_eq_ok_iff rfl).mpr ⟨writable, rfl⟩) ?_
        exact (resolution_eq_untyped_iff standard (Value.isWritable_object_iff.mp writable)).mpr
          ⟨_, _, _, decided, found, overlong, rfl⟩

/-- Under all settings, whatever the document is, the engines of the known families fail without a
report of their own on these documents alone, and their runs end without a record on the same. -/
theorem run_eq_error_iff (settings : Settings) (family : Family) (document : Value)
    (fault : Fault) :
    (((ofTrees settings family).migrate document).outcome =
        .error (.untyped fault) ↔ Escapes (settings.fieldsFor family.name) document fault) ∧
      ((ofTrees settings family).run document = .error fault ↔
        Escapes (settings.fieldsFor family.name) document fault) := by
  refine ⟨migrate_eq_untyped_iff, ?_⟩
  rw [← migrate_eq_untyped_iff, run_eq]
  cases ended : ((ofTrees settings family).migrate document).outcome with
  | ok result => simp
  | error failure => cases failure <;> simp

end Uplift.Engine
