import Uplift.Proofs.Engine.Assembly
import Uplift.Proofs.Engine.Runs
import Uplift.Proofs.Registry.Order

/-!
# Engines of steps in any order

An engine uses nothing of its registry but the steps in ascending order. So two families that are
built of the same steps, registered in different orders, have engines between which no document can
tell: they give the same results or the same failures, and note the same.
-/

set_option autoImplicit false

namespace Uplift

variable {δ : Type}

/-!
## Registries that list their steps alike
-/

section Listed

variable {registry other : Registry δ}

theorem Registry.versions_eq_of_ordered (same : registry.ordered = other.ordered) :
    registry.versions = other.versions := by
  rw [← map_fst_ordered, same, map_fst_ordered]

theorem Registry.latest?_eq_of_ordered (same : registry.ordered = other.ordered) :
    registry.latest? = other.latest? := by
  simp only [latest?, versions_eq_of_ordered same]

theorem Plan.outstanding_eq_of_ordered (same : registry.ordered = other.ordered)
    (declaration : Declaration) :
    outstanding registry declaration = outstanding other declaration := by
  simp only [outstanding, same]

theorem Plan.unknown_eq_of_ordered (same : registry.ordered = other.ordered)
    (declaration : Declaration) : unknown registry declaration = unknown other declaration := by
  cases declaration with
  | explicit versions => simp only [unknown, Registry.latest?_eq_of_ordered same]
  | legacy number => rfl

end Listed

namespace Engine

/-- The engine with the steps of another registry. -/
def registering (registry : Registry δ) (engine : Engine δ) : Engine δ :=
  { engine with registry := registry }

variable {engine : Engine δ} {other : Registry δ}

theorem guard_registering (same : engine.registry.ordered = other.ordered) (subject : Subject)
    (declaration : Declaration) :
    (engine.registering other).guard subject declaration = engine.guard subject declaration := by
  simp only [guard, registering, ← Plan.unknown_eq_of_ordered same,
    ← Registry.latest?_eq_of_ordered same]

variable [Representation δ]

theorem stamp_registering (same : engine.registry.ordered = other.ordered)
    (declaration : Declaration) (applied : List Int) (document : δ) :
    (engine.registering other).stamp declaration applied document =
      engine.stamp declaration applied document := by
  simp only [stamp, registering, ← Registry.versions_eq_of_ordered same]

theorem perform_registering (engine : Engine δ) (other : Registry δ) (context : Context)
    (version : Int) (step : Step δ) (document : δ) :
    (engine.registering other).perform context version step document =
      engine.perform context version step document := by
  have identifier : (engine.registering other).versionId version = engine.versionId version := by
    unfold versionId
    cases Scalar.isWritable (.int version) <;> rfl
  unfold perform
  rw [identifier]
  cases engine.versionId version with
  | error fault => rfl
  | ok sid => rfl

/-- What the steps of a plan do does not depend on what else is registered. -/
theorem performAll_registering (engine : Engine δ) (other : Registry δ) (context : Context)
    (plan : List (Int × Step δ)) (document : δ) :
    (engine.registering other).performAll context plan document =
      engine.performAll context plan document := by
  induction plan generalizing document with
  | nil => rfl
  | cons entry rest ih =>
      simp only [performAll, perform_registering, ih]

theorem migrateIn_registering (same : engine.registry.ordered = other.ordered)
    (given : Option Context) (document : δ) :
    (engine.registering other).migrateIn given document = engine.migrateIn given document := by
  simp only [migrateIn, guard_registering same, performAll_registering, stamp_registering same]
  simp only [registering, ← Plan.outstanding_eq_of_ordered same,
    ← Registry.versions_eq_of_ordered same]
  rfl

/-- No document tells two engines apart. -/
structure Interchangeable (engine other : Engine δ) : Prop where
  /-- Events are recorded under the same names of documents. -/
  context : ∀ tree, engine.contextOf tree = other.contextOf tree
  migrateIn : ∀ given document, engine.migrateIn given document = other.migrateIn given document
  migrate : ∀ document, engine.migrate document = other.migrate document
  run : ∀ document, engine.run document = other.run document

theorem interchangeable_registering (same : engine.registry.ordered = other.ordered) :
    Interchangeable engine (engine.registering other) where
  context _ := rfl
  migrateIn given document := (migrateIn_registering same given document).symm
  migrate document := (migrateIn_registering same none document).symm
  run document := by
    simp only [run, migrateIn_registering same]
    rfl

end Engine

namespace DocumentFamily

variable {steps others : List (Step δ)} {name : String} {fields : Option FieldNames}
  {strategies : Option (List Strategy)} {family other : DocumentFamily δ}

/-- A family is built exactly of steps that can be registered. -/
theorem exists_build_iff :
    (∃ family, build name steps fields strategies = .ok family) ↔ Registrable steps := by
  rw [← Registry.exists_ofSteps_iff]
  constructor
  · intro built
    obtain ⟨family, built⟩ := built
    obtain ⟨registry, made, _⟩ := Outcome.map_eq_ok_iff.mp built
    exact ⟨registry, made⟩
  · intro made
    obtain ⟨registry, made⟩ := made
    exact ⟨_, Outcome.map_eq_ok_iff.mpr ⟨registry, made, rfl⟩⟩

variable [Representation δ]

/-- Two families have no engine for the same reason, or engines that no document tells apart. -/
inductive EnginesAgree : Except AssemblyError (Engine δ) → Except AssemblyError (Engine δ) → Prop where
  | refused (error : AssemblyError) : EnginesAgree (.error error) (.error error)
  | made {engine other : Engine δ} : engine.Interchangeable other →
      EnginesAgree (.ok engine) (.ok other)

theorem enginesAgree_of_perm (perm : steps.Perm others)
    (built : build name steps fields strategies = .ok family)
    (otherBuilt : build name others fields strategies = .ok other)
    (stampVersions rejectNewer : Bool) :
    EnginesAgree (family.engine stampVersions rejectNewer)
      (other.engine stampVersions rejectNewer) := by
  obtain ⟨registry, made, same⟩ := Outcome.map_eq_ok_iff.mp built
  obtain ⟨otherRegistry, otherMade, otherSame⟩ := Outcome.map_eq_ok_iff.mp otherBuilt
  have listed := Registry.ordered_eq_of_perm perm made otherMade
  subst same otherSame
  unfold engine
  cases (strategies.getD (Strategy.standard (fields.getD .standard))).isEmpty with
  | true => exact .refused .noStrategies
  | false => exact .made (Engine.interchangeable_registering listed)

/-- Whether a family is built of some steps, and what its engine does, is the same in two orders of
registration. -/
structure BuildsAlike (name : String) (fields : Option FieldNames)
    (strategies : Option (List Strategy)) (steps others : List (Step δ)) : Prop where
  built : (∃ family, build name steps fields strategies = .ok family) ↔ Registrable steps
  otherBuilt : (∃ family, build name others fields strategies = .ok family) ↔ Registrable steps
  engines : ∀ family other, build name steps fields strategies = .ok family →
    build name others fields strategies = .ok other → ∀ stampVersions rejectNewer,
      EnginesAgree (family.engine stampVersions rejectNewer)
        (other.engine stampVersions rejectNewer)

/-- The order in which steps are registered makes no difference, whatever they do. The strategies are
those of the library. -/
theorem builds_alike (name : String) (fields : Option FieldNames)
    (strategies : Option (List Strategy)) (perm : steps.Perm others) :
    BuildsAlike name fields strategies steps others where
  built := exists_build_iff
  otherBuilt := by
    rw [exists_build_iff]
    exact ⟨fun registrable => registrable.perm perm.symm, fun registrable => registrable.perm perm⟩
  engines family other built otherBuilt := enginesAgree_of_perm perm built otherBuilt

/-- The steps of services in the order of their versions. -/
def serviceSteps : List (Step Value) :=
  Service.blueprints.map fun blueprint => blueprint.toStep (Rewrite.onTree .standard)

/-- Services of which the last step was registered first. -/
theorem builds_alike_reversedService :
    ∃ family other : DocumentFamily Value,
      build "service" serviceSteps none none = .ok family ∧
      build "service" serviceSteps.reverse none none = .ok other ∧
      family.registry.steps.map (·.1) = [101, 102] ∧
      other.registry.steps.map (·.1) = [102, 101] ∧
      EnginesAgree (family.engine true false) (other.engine true false) := by
  have alike := builds_alike "service" none none (List.reverse_perm serviceSteps).symm
  exact ⟨_, _, rfl, rfl, rfl, rfl, alike.engines _ _ rfl rfl true false⟩

end DocumentFamily

end Uplift
