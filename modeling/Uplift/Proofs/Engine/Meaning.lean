import Uplift.Proofs.Engine.Delivery
import Uplift.Proofs.Versions.Declared
import Uplift.Proofs.Writable

/-!
# The meaning of a migration

What a migration of a tree comes to, said by its plan alone. The plan is fixed before the first step
is applied. If all steps of it run then what they give is delivered, and otherwise the migration
fails with the first step that does not. Integers of too many digits are the one thing besides that
a migration fails with.
-/

set_option autoImplicit false

namespace Uplift.Engine

variable {engine : Engine Value} {document last : Value} {satisfied : Satisfied}

abbrev planFor (engine : Engine Value) (satisfied : Satisfied) : List (Int × Step Value) :=
  Plan.outstanding engine.registry satisfied.declaration

def completed (engine : Engine Value) (document : Value) (satisfied : Satisfied) (last : Value) :
    MigrationResult Value where
  family := engine.family
  document := engine.delivered satisfied.declaration last
  applied := (engine.planFor satisfied).map (·.1)
  satisfied := satisfied
  inputDigest := Digest.hex document
  outputDigest := Digest.hex (engine.delivered satisfied.declaration last)

/-- A migration comes to a step that has no identifier, or to what cannot be digested. Too many digits
are the one reason, since texts are made of characters here: one with a lone surrogate, which could
not be digested either, is refused where it is read. -/
inductive Overflows (engine : Engine Value) (document : Value) (satisfied : Satisfied) : Prop where
  | input : document.isWritable = false → Overflows engine document satisfied
  | step {before : List (Int × Step Value)} {version : Int} {step : Step Value} {reached : Value} :
      document.isWritable = true →
      Plan.Reaches (engine.contextOf document) (engine.planFor satisfied) before version step
        document reached →
      Named before → Scalar.isWritable (.int version) = false →
      Overflows engine document satisfied
  | output {last : Value} :
      document.isWritable = true → Named (engine.planFor satisfied) →
      Plan.Runs (engine.contextOf document) (engine.planFor satisfied) document last →
      (engine.delivered satisfied.declaration last).isWritable = false →
      Overflows engine document satisfied

/-- How a migration of a document fails whose versions are found and not rejected. -/
inductive Stops (engine : Engine Value) (document : Value) (satisfied : Satisfied) :
    Failure → Prop where
  | fails {before : List (Int × Step Value)} {version : Int} {step : Step Value} {reached : Value}
      {cause : Fault} :
      document.isWritable = true →
      Plan.Reaches (engine.contextOf document) (engine.planFor satisfied) before version step
        document reached →
      Named (before ++ [(version, step)]) → step.Fails (engine.contextOf document) reached cause →
      Stops engine document satisfied (.migration (.stepFailed engine.family version cause
        (engine.contextOf document).subject))
  | overflows : Overflows engine document satisfied →
      Stops engine document satisfied (.untyped .integerTooLong)

private theorem isWritable_markedVersions (resolved : engine.resolution document = .ok satisfied)
    (writable : document.isWritable = true) (named : Named (engine.planFor satisfied)) :
    Listing.isWritable (engine.markedVersions satisfied.declaration) = true := by
  have declared := Resolution.writable_of_resolve resolved writable
  refine Listing.isWritable_iff.mpr fun version member => ?_
  rcases List.mem_append.mp member with kept | applied
  · exact declared version (Plan.mem_restrictedTo.mp kept).2
  · obtain ⟨entry, planned, rfl⟩ := List.mem_map.mp applied
    exact named entry planned

/-- Migrating a document that has the given versions comes to carrying out a plan that is made
once. -/
structure Means (engine : Engine Value) (document : Value) (satisfied : Satisfied) : Prop where
  /-- The plan has the registered steps that the document lacks. -/
  planned : ∀ version step, (version, step) ∈ engine.planFor satisfied ↔
    version ∈ engine.registry.versions ∧ satisfied.declaration.contains version = false ∧
      engine.registry.step? version = some step
  /-- The steps are planned in ascending order, and so none of them twice. -/
  ascending : ((engine.planFor satisfied).map (·.1)).Pairwise (· < ·)
  /-- A migration succeeds if the plan runs, as far as integers can be written. -/
  succeeds : ∀ result, (engine.migrate document).outcome = .ok result ↔
    document.isWritable = true ∧ ∃ last, Named (engine.planFor satisfied) ∧
      Plan.Runs (engine.contextOf document) (engine.planFor satisfied) document last ∧
        (engine.delivered satisfied.declaration last).isWritable = true ∧
          result = engine.completed document satisfied last
  /-- A migration fails with the first step that fails, and reports its cause. -/
  fails : ∀ error, (engine.migrate document).outcome = .error (.migration error) ↔
    document.isWritable = true ∧ ∃ before version step reached cause,
      Plan.Reaches (engine.contextOf document) (engine.planFor satisfied) before version step
        document reached ∧
      Named (before ++ [(version, step)]) ∧
      step.Fails (engine.contextOf document) reached cause ∧
      error = .stepFailed engine.family version cause (engine.contextOf document).subject
  /-- Nothing else goes wrong than integers of too many digits. -/
  overflows : ∀ fault, (engine.migrate document).outcome = .error (.untyped fault) ↔
    engine.Overflows document satisfied ∧ fault = .integerTooLong
  /-- The steps behind one that fails are not applied. -/
  abandons : ∀ before version step rest reached cause,
    engine.planFor satisfied = before ++ (version, step) :: rest →
    Plan.Runs (engine.contextOf document) before document reached →
    Named (before ++ [(version, step)]) → step.Fails (engine.contextOf document) reached cause →
    engine.performAll (engine.contextOf document) (engine.planFor satisfied) document =
      engine.performAll (engine.contextOf document) (before ++ [(version, step)]) document
  /-- What is delivered differs from what the steps gave in the marker alone. -/
  marks : engine.stampVersions = true → engine.planFor satisfied ≠ [] →
    ∀ last, Plan.Runs (engine.contextOf document) (engine.planFor satisfied) document last →
      ∃ before after, last = .object before ∧
        engine.delivered satisfied.declaration last = .object after ∧
          Marker.Marks engine.fields (Listing.format (engine.markedVersions satisfied.declaration))
            before after
  unmarked : engine.stampVersions = false ∨ engine.planFor satisfied = [] →
    ∀ last, engine.delivered satisfied.declaration last = last
  /-- Without a plan the document itself is delivered. -/
  untouched : engine.planFor satisfied = [] → ∀ result,
    (engine.migrate document).outcome = .ok result →
      result.document = document ∧ result.status = .upToDate ∧
        result.inputDigest = result.outputDigest

theorem named_append_singleton {before : List (Int × Step Value)} {version : Int}
    {step : Step Value} :
    Named (before ++ [(version, step)]) ↔
      Named before ∧ Scalar.isWritable (.int version) = true := by
  unfold Named
  rw [List.forall_mem_append, List.forall_mem_singleton]

private theorem migrate_eq_ok_iff_runs (root : document.isObject = true)
    (resolved : engine.resolution document = .ok satisfied)
    (accepted : engine.inspection document satisfied.declaration = .ok ())
    {result : MigrationResult Value} :
    (engine.migrate document).outcome = .ok result ↔
      document.isWritable = true ∧ ∃ last, Named (engine.planFor satisfied) ∧
        Plan.Runs (engine.contextOf document) (engine.planFor satisfied) document last ∧
          (engine.delivered satisfied.declaration last).isWritable = true ∧
            result = engine.completed document satisfied last := by
  rw [migrate_eq_ok_iff]
  constructor
  · intro meaning
    obtain ⟨last, completes⟩ := meaning
    have same := completes.starts.satisfied_eq resolved
    have delivered := completes.document_eq
    have performed := completes.performed
    have applied := completes.applied
    rw [same] at delivered performed applied
    obtain ⟨named, runs⟩ := performAll_eq_ok_iff.mp performed
    have finalRoot : result.document.isObject = true := by
      rw [delivered]
      exact isObject_delivered completes.isObject_last
    obtain ⟨writable, input⟩ := (digestion_eq_ok_iff root).mp completes.starts.digested
    obtain ⟨finalWritable, output⟩ := (digestion_eq_ok_iff finalRoot).mp completes.digested
    rw [delivered] at finalWritable output
    refine ⟨writable, last, named, runs, finalWritable, ?_⟩
    have family := completes.family
    obtain ⟨_, _, _, _, _, _⟩ := result
    simp only at family delivered applied same input output
    rw [family, delivered, applied, same, input, output]
    rfl
  · intro meaning
    obtain ⟨writable, last, named, runs, finalWritable, rfl⟩ := meaning
    have finalRoot : (engine.delivered satisfied.declaration last).isObject = true :=
      isObject_delivered (runs.isObject root)
    refine ⟨last, ?_⟩
    constructor
    case starts =>
      exact ⟨root, (digestion_eq_ok_iff root).mpr ⟨writable, rfl⟩, resolved, accepted⟩
    case performed => exact performAll_eq_ok_iff.mpr ⟨named, runs⟩
    case marked =>
      exact marking_eq_ok_iff.mpr
        ⟨fun _ => isWritable_markedVersions resolved writable named, rfl⟩
    case digested => exact (digestion_eq_ok_iff finalRoot).mpr ⟨finalWritable, rfl⟩
    case applied => rfl
    case family => rfl

private theorem stops_of_execution {failure : Failure} (writable : document.isWritable = true)
    (failed : engine.execution document satisfied.declaration = .error failure) :
    engine.Stops document satisfied failure := by
  obtain ⟨before, version, step, reached, reaches, named, notPerformed⟩ :=
    performAll_eq_error_iff.mp failed
  rcases perform_eq_error_iff.mp notPerformed with nameless | failing
  · obtain ⟨unwritable, rfl⟩ := nameless
    exact .overflows (.step writable reaches named unwritable)
  · obtain ⟨versionWritable, cause, fails, rfl⟩ := failing
    exact .fails writable reaches (named_append_singleton.mpr ⟨named, versionWritable⟩) fails

private theorem stops_of_breaks {failure : Failure} (root : document.isObject = true)
    (resolved : engine.resolution document = .ok satisfied)
    (accepted : engine.inspection document satisfied.declaration = .ok ())
    (breaks : engine.Breaks document failure) : engine.Stops document satisfied failure := by
  have isWritable {other : Satisfied} {digest : String}
      (starts : engine.Starts document other digest) : document.isWritable = true :=
    ((digestion_eq_ok_iff root).mp starts.digested).1
  cases breaks with
  | root notObject =>
      rw [Representation.tree_value, root] at notObject
      cases notObject
  | input _ undigested =>
      obtain ⟨unwritable, rfl⟩ := (digestion_eq_error_iff root).mp undigested
      exact .overflows (.input unwritable)
  | resolution _ _ unresolved =>
      rw [resolved] at unresolved
      cases unresolved
  | guard _ _ found rejected =>
      rw [resolved] at found
      cases found
      rw [accepted] at rejected
      cases rejected
  | step starts failed =>
      cases starts.satisfied_eq resolved
      exact stops_of_execution (isWritable starts) failed
  | marker starts performed unmarked =>
      cases starts.satisfied_eq resolved
      have named := (performAll_eq_ok_iff.mp performed).1
      have writable := isWritable_markedVersions resolved (isWritable starts) named
      rw [(marking_eq_error_iff.mp unmarked).2.1] at writable
      cases writable
  | output starts performed marked undigested =>
      cases starts.satisfied_eq resolved
      obtain ⟨named, runs⟩ := performAll_eq_ok_iff.mp performed
      obtain ⟨_, rfl⟩ := marking_eq_ok_iff.mp marked
      obtain ⟨unwritable, rfl⟩ :=
        (digestion_eq_error_iff (isObject_delivered (runs.isObject root))).mp undigested
      exact .overflows (.output (isWritable starts) named runs unwritable)

private theorem breaks_of_stops {failure : Failure} (root : document.isObject = true)
    (resolved : engine.resolution document = .ok satisfied)
    (accepted : engine.inspection document satisfied.declaration = .ok ())
    (stops : engine.Stops document satisfied failure) : engine.Breaks document failure := by
  have starts (writable : document.isWritable = true) :
      engine.Starts document satisfied (Digest.hex document) :=
    ⟨root, (digestion_eq_ok_iff root).mpr ⟨writable, rfl⟩, resolved, accepted⟩
  cases stops with
  | fails writable reaches named fails =>
      obtain ⟨beforeNamed, versionWritable⟩ := named_append_singleton.mp named
      have failed := perform_of_fails engine versionWritable fails
      exact .step (starts writable)
        (performAll_eq_error_iff.mpr ⟨_, _, _, _, reaches, beforeNamed, failed⟩)
  | overflows overflows =>
      cases overflows with
      | input unwritable => exact .input root ((digestion_eq_error_iff root).mpr ⟨unwritable, rfl⟩)
      | step writable reaches named unwritable =>
          exact .step (starts writable) (performAll_eq_error_iff.mpr
            ⟨_, _, _, _, reaches, named, perform_of_unnamed engine unwritable⟩)
      | output writable named runs unwritable =>
          have marked := isWritable_markedVersions resolved writable named
          exact .output (starts writable) (performAll_eq_ok_iff.mpr ⟨named, runs⟩)
            (marking_eq_ok_iff.mpr ⟨fun _ => marked, rfl⟩)
            ((digestion_eq_error_iff (isObject_delivered (runs.isObject root))).mpr
              ⟨unwritable, rfl⟩)

private theorem migrate_eq_error_iff_stops (root : document.isObject = true)
    (resolved : engine.resolution document = .ok satisfied)
    (accepted : engine.inspection document satisfied.declaration = .ok ()) {failure : Failure} :
    (engine.migrate document).outcome = .error failure ↔
      engine.Stops document satisfied failure := by
  rw [migrate_eq_error_iff]
  exact ⟨stops_of_breaks root resolved accepted, breaks_of_stops root resolved accepted⟩

/-- What a migration of a document comes to whose versions are found and not rejected. The steps are
any; the strategies of the engine are those of the library. -/
theorem migrate_means (root : document.isObject = true)
    (resolved : engine.resolution document = .ok satisfied)
    (accepted : engine.inspection document satisfied.declaration = .ok ()) :
    engine.Means document satisfied := by
  constructor
  case planned => exact fun version step => Plan.mem_outstanding
  case ascending => exact Plan.pairwise_outstanding_versions _ _
  case succeeds => exact fun result => migrate_eq_ok_iff_runs root resolved accepted
  case fails =>
    intro error
    rw [migrate_eq_error_iff_stops root resolved accepted]
    constructor
    · intro stops
      cases stops with
      | fails writable reaches named fails =>
          exact ⟨writable, _, _, _, _, _, reaches, named, fails, rfl⟩
    · intro failing
      obtain ⟨writable, before, version, step, reached, cause, reaches, named, fails, rfl⟩ :=
        failing
      exact .fails writable reaches named fails
  case overflows =>
    intro fault
    rw [migrate_eq_error_iff_stops root resolved accepted]
    constructor
    · intro stops
      cases stops with
      | overflows overflows => exact ⟨overflows, rfl⟩
    · intro overflowing
      obtain ⟨overflows, rfl⟩ := overflowing
      exact .overflows overflows
  case abandons =>
    intro before version step rest reached cause plan runs named fails
    obtain ⟨beforeNamed, versionWritable⟩ := named_append_singleton.mp named
    have failed := perform_of_fails engine versionWritable fails
    rw [plan]
    exact performAll_eq_of_reaches runs beforeNamed failed
  case marks =>
    intro stamping outstanding last runs
    exact delivered_marks (isMarked_eq_true_iff.mpr ⟨stamping, outstanding⟩) (runs.isObject root)
  case unmarked =>
    intro without last
    rcases without with off | complete
    · simp only [delivered, isMarked, off, Bool.false_and, Bool.false_eq_true, if_false]
    · exact delivered_of_outstanding_eq_nil complete
  case untouched =>
    intro complete result migrated
    obtain ⟨_, last, _, runs, _, rfl⟩ :=
      (migrate_eq_ok_iff_runs root resolved accepted).mp migrated
    rw [complete] at runs
    cases runs
    have same : engine.delivered satisfied.declaration document = document :=
      delivered_of_outstanding_eq_nil complete
    simp [completed, same, complete, MigrationResult.status, MigrationResult.isUpToDate]

def hugeService : Value :=
  .object [(.text "version", .text "0"), (.text "size", .int (tenTo Fault.digitLimit))]

theorem migrate_means_hugeService :
    ofServices.resolution hugeService = .ok ⟨.legacy 0, "legacy-scalar"⟩ ∧
      (∃ last, Plan.Runs (ofServices.contextOf hugeService)
        (ofServices.planFor ⟨.legacy 0, "legacy-scalar"⟩) hugeService last) ∧
      (ofServices.migrate hugeService).outcome = .error (.untyped .integerTooLong) := by
  have means : ofServices.Means hugeService ⟨.legacy 0, "legacy-scalar"⟩ :=
    migrate_means rfl rfl rfl
  have unwritable : hugeService.isWritable = false := by
    decide +kernel
  refine ⟨rfl, ⟨_, .cons ⟨rfl, rfl⟩ (.cons ⟨rfl, rfl⟩ .nil)⟩, ?_⟩
  exact (means.overflows .integerTooLong).mpr ⟨.input unwritable, rfl⟩

end Uplift.Engine
