import Uplift.Proofs.Engine.Staging
import Uplift.Proofs.Family.Service

/-!
# Services from end to end

A service that has neither version is upgraded under the packaged configuration unless it has
operations that are no array. What comes out is given entry by entry.
-/

set_option autoImplicit false

namespace Uplift

/-- The settings of the packaged configuration. -/
def Settings.packaged : Settings where
  stampVersions := true
  rejectNewer := false
  families := [(.text "chain", .standard), (.text "service", .standard)]
  configDigest := Digest.hex Config.defaults

theorem Settings.ofConfig_defaults : ofConfig Config.defaults = .ok packaged := rfl

namespace Engine

variable {settings : Settings} {entries : Entries Value} {satisfied : Satisfied}

open Service (Misplaced upgraded withContent moved)

/-- A service that can be read and written, and that declares neither version. -/
structure OutdatedService (settings : Settings) (entries : Entries Value)
    (satisfied : Satisfied) : Prop where
  distinct : entries.DistinctKeys
  writable : (Value.object entries).isWritable = true
  resolved : (ofTrees settings .service).resolution (.object entries) = .ok satisfied
  lacksFirst : satisfied.declaration.contains 101 = false
  lacksSecond : satisfied.declaration.contains 102 = false

namespace OutdatedService

variable (outdated : OutdatedService settings entries satisfied)

include outdated

theorem outstanding_eq : Plan.outstanding (ofTrees settings .service).registry
    satisfied.declaration = Service.blueprints.map fun blueprint => (blueprint.version,
      blueprint.toStep (Rewrite.onTree (settings.fieldsFor Service.label))) := by
  have ordered : (ofTrees settings .service).registry.ordered =
      Service.blueprints.map fun blueprint => (blueprint.version,
        blueprint.toStep (Rewrite.onTree (settings.fieldsFor Service.label))) := rfl
  rw [Plan.outstanding, ordered]
  simp [Service.blueprints, Service.v101, Service.v102, outdated.lacksFirst, outdated.lacksSecond]

theorem starts (accepting : settings.rejectNewer = false) :
    (ofTrees settings .service).Starts (.object entries) satisfied
      (Digest.hex (.object entries)) where
  root := rfl
  digested := (digestion_eq_ok_iff rfl).mpr ⟨outdated.writable, rfl⟩
  resolved := outdated.resolved
  accepted := by
    have flag : (ofTrees settings .service).rejectNewer = false := accepting
    rw [inspection, guard, flag]
    rfl

variable (standard : settings.fieldsFor Service.label = .standard)

include standard

/-- Both steps run on a service that has its operations, if any, in an array. -/
theorem execution_eq_ok (placed : ¬ ∃ operations, Misplaced entries operations) :
    (ofTrees settings .service).execution (.object entries) satisfied.declaration =
      .ok (withContent entries
        ((moved entries).changeField "operations" Service.namedOperations)) := by
  rw [execution, outdated.outstanding_eq, standard, performAll_eq_ok_iff]
  refine ⟨fun entry planned => ?_, .cons ⟨Service.migrates_v101 entries, rfl⟩
    (.cons ⟨Service.migrates_v102 outdated.distinct
      (Value.isWritable_object_iff.mp outdated.writable) placed, rfl⟩ .nil)⟩
  obtain ⟨blueprint, known, rfl⟩ := List.mem_map.mp planned
  exact Family.service.isWritable_version known

/-- The second step fails on a service that has its operations in another form. -/
theorem execution_eq_error {operations : Value} (misplaced : Misplaced entries operations) :
    (ofTrees settings .service).execution (.object entries) satisfied.declaration =
      .error (.migration (.stepFailed "service" 102
        (.expectedArray "content.operations" operations.kind)
        (subjectOf .standard (.object entries)))) := by
  rw [execution, outdated.outstanding_eq, standard, performAll_eq_error_iff]
  have subject : ((ofTrees settings .service).contextOf (.object entries)).subject =
      subjectOf .standard (.object entries) := by
    change subjectOf (settings.fieldsFor Service.label) _ = _
    rw [standard]
  have writable {blueprint : Blueprint} (known : blueprint ∈ Service.blueprints) :
      Scalar.isWritable (.int blueprint.version) = true :=
    Family.service.isWritable_version known
  refine ⟨[_], _, _, _, ⟨⟨[], rfl⟩, .cons ⟨Service.migrates_v101 entries, rfl⟩ .nil⟩,
    List.forall_mem_singleton.mpr (writable (.head _)), ?_⟩
  refine (perform_of_fails _ (writable (.tail _ (.head _)))
    (Service.fails_v102 misplaced)).trans ?_
  rw [Representation.tree_value, subject]
  rfl

theorem migrate_eq_error (accepting : settings.rejectNewer = false) {operations : Value}
    (misplaced : Misplaced entries operations) :
    ((ofTrees settings .service).migrate (.object entries)).outcome =
      .error (.migration (.stepFailed "service" 102
        (.expectedArray "content.operations" operations.kind)
        (subjectOf .standard (.object entries)))) :=
  migrate_eq_error_iff.mpr
    (.step (outdated.starts accepting) (outdated.execution_eq_error standard misplaced))

theorem migrate_eq_ok (accepting : settings.rejectNewer = false)
    (stamping : settings.stampVersions = true)
    (placed : ¬ ∃ operations, Misplaced entries operations) :
    ∃ result, ((ofTrees settings .service).migrate (.object entries)).outcome = .ok result ∧
      result.document = upgraded entries ∧ result.applied = [101, 102] := by
  have performed := outdated.execution_eq_ok standard placed
  have runs := (performAll_eq_ok_iff.mp performed).2
  have writable := runs.isWritable (fun _ planned => keepsWritable_of_planned planned)
    outdated.writable
  have marked : (ofTrees settings .service).isMarked satisfied.declaration = true := by
    refine isMarked_eq_true_iff.mpr ⟨stamping, ?_⟩
    rw [outdated.outstanding_eq]
    exact List.cons_ne_nil _ _
  have completes := (outdated.starts accepting).completes performed
    (fun _ registered => isWritable_registered registered) writable
  refine ⟨_, migrate_eq_ok_iff.mpr ⟨_, completes⟩, ?_, ?_⟩
  · have fields : (ofTrees settings .service).fields = .standard := standard
    have versions : (ofTrees settings .service).registry.versions = [101, 102] := rfl
    have text : Listing.format [101, 102] = "[101, 102]" := by decide
    rw [resultOf, delivered_of_isMarked marked, fields, versions, text,
      Service.marked_eq_upgraded]
  · rw [resultOf, outdated.outstanding_eq]
    rfl

end OutdatedService

/-- Under the packaged configuration the migration of a service that declares neither version fails
exactly if it has operations that are neither null nor an array, and then in the second step. From
any other it makes the upgraded service. The service is a tree, so none of its parts is shared, and
its texts are made of characters: one with a lone surrogate is refused where it is read, and cannot
be digested. -/
theorem migrate_outdated_service (configured : Settings.ofConfig Config.defaults = .ok settings)
    (outdated : OutdatedService settings entries satisfied) :
    (∀ failure, ((ofTrees settings .service).migrate (.object entries)).outcome = .error failure ↔
      ∃ operations, Misplaced entries operations ∧
        failure = .migration (.stepFailed "service" 102
          (.expectedArray "content.operations" operations.kind)
          (subjectOf .standard (.object entries)))) ∧
    ((¬ ∃ operations, Misplaced entries operations) →
      ∃ result, ((ofTrees settings .service).migrate (.object entries)).outcome = .ok result ∧
        result.document = upgraded entries ∧ result.applied = [101, 102]) := by
  rw [Settings.ofConfig_defaults] at configured
  cases configured
  have succeeds := outdated.migrate_eq_ok rfl rfl rfl
  refine ⟨fun failure => ⟨fun failed => ?_, ?_⟩, succeeds⟩
  · by_cases placed : ∃ operations, Misplaced entries operations
    · obtain ⟨operations, misplaced⟩ := placed
      rw [outdated.migrate_eq_error rfl rfl misplaced] at failed
      exact ⟨operations, misplaced, (Except.error.inj failed).symm⟩
    · obtain ⟨result, migrated, _⟩ := succeeds placed
      rw [migrated] at failed
      cases failed
  · rintro ⟨operations, misplaced, rfl⟩
    exact outdated.migrate_eq_error rfl rfl misplaced

/-- A service with an operation that has no name, and with a marker of another product. -/
def unnamedService : Entries Value :=
  [(.text "operations", .array
      [.object [(.text "id", .text "bar"), (.text "method", .text "publish")]]),
    (.text "migrations", .text "[7]"), (.text "id", .text "s1")]

/-- A service that has its operations in an object. -/
def keyedService : Entries Value :=
  [(.text "version", .text "0"), (.text "operations", .object [])]

theorem migrate_outdated_service_unnamedService :
    (∃ result,
      ((ofTrees .packaged .service).migrate (.object unnamedService)).outcome = .ok result ∧
        result.applied = [101, 102] ∧
          result.document = .object
            [(.text "id", .text "s1"),
              (.text "content", .object
                [(.text "operations", .array
                    [.object [(.text "id", .text "bar"), (.text "method", .text "publish"),
                      (.text "name", .text "bar-publish")]]),
                  (.text "migrations", .text "[101, 102]")])]) ∧
      ((ofTrees .packaged .service).migrate (.object keyedService)).outcome =
        .error (.migration (.stepFailed "service" 102
          (.expectedArray "content.operations" .object) ⟨none, none⟩)) := by
  have unnamed : OutdatedService .packaged unnamedService ⟨.explicit [7], "explicit-list"⟩ :=
    ⟨by simp [Entries.DistinctKeys, Scalar.key, unnamedService], by decide, rfl, by decide,
      by decide⟩
  have keyed : OutdatedService .packaged keyedService ⟨.legacy 0, "legacy-scalar"⟩ :=
    ⟨by simp [Entries.DistinctKeys, Scalar.key, keyedService], by decide, rfl, by decide,
      by decide⟩
  constructor
  · have placed : ¬ ∃ operations, Misplaced unnamedService operations := by
      rintro ⟨operations, found, _, notArray⟩
      cases found
      cases notArray
    obtain ⟨result, migrated, document, applied⟩ :=
      (migrate_outdated_service Settings.ofConfig_defaults unnamed).2 placed
    exact ⟨result, migrated, applied, document.trans rfl⟩
  · exact ((migrate_outdated_service Settings.ofConfig_defaults keyed).1 _).mpr
      ⟨.object [], ⟨rfl, by simp, rfl⟩, rfl⟩

end Engine

end Uplift
