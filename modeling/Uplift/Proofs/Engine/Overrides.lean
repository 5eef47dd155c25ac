import Uplift.Proofs.Config.Overrides
import Uplift.Proofs.Engine.Assembly

/-!
# Engines under overrides

The engine of a family goes by what the overrides leave in force: by the field names of its own
family, under which it looks for versions, changes documents and marks them, and by the flags of
the engine. What overrides say elsewhere, and of other families too, makes no difference to it.
-/

set_option autoImplicit false

namespace Uplift

namespace Config

theorem at?_append (before after : List String) (config : Value) :
    at? (before ++ after) config = (at? before config).bind (at? after) :=
  List.foldlM_append

/-- Overrides that can be put on top of the packaged configuration, and the settings that this
gives. -/
structure Gives (overrides : Entries Value) (settings : Settings) : Prop where
  distinct : (Value.object overrides).DistinctKeys
  accepted : ∃ config, resolve (.object overrides) = .ok config ∧
    Settings.ofConfig config = .ok settings

/-- Overrides that say the same of a family and of the engine, whatever they say of others. -/
structure SameFor (family : String) (first second : Entries Value) : Prop where
  ofEngine : at? ["engine"] (.object first) = at? ["engine"] (.object second)
  ofFamily : at? ["families", family] (.object first) = at? ["families", family] (.object second)

namespace SameFor

variable {family : String} {first second : Entries Value}

theorem flag (same : SameFor family first second) (base : Entries Value) (name : String) :
    inForce? base first ["engine", name] = inForce? base second ["engine", name] := by
  have below (overrides : Entries Value) :
      at? ["engine", name] (.object overrides) = (at? ["engine"] (.object overrides)).bind _ :=
    at?_append ["engine"] [name] _
  rw [inForce?, inForce?, below first, below second, same.ofEngine]

theorem field (same : SameFor family first second) (base : Entries Value) (name : String) :
    inForce? base first ["families", family, "fields", name] =
      inForce? base second ["families", family, "fields", name] := by
  have below (overrides : Entries Value) :
      at? ["families", family, "fields", name] (.object overrides) =
        (at? ["families", family] (.object overrides)).bind _ :=
    at?_append ["families", family] ["fields", name] _
  rw [inForce?, inForce?, below first, below second, same.ofFamily]

end SameFor

end Config

theorem Family.name_mem_packaged (family : Family) : family.name ∈ ["chain", "service"] := by
  cases family <;> decide

namespace Engine

open Config

variable {δ : Type} {carryOut : FieldNames → String → Treatment → δ → Logged Fault δ}
  {family : Family} {overrides others : Entries Value} {settings : Settings}
  {engine other : Engine δ}

/-- The engine of a family that goes by what is in force under some overrides: its strategies, its
steps and, by `engine.fields`, its marks have the field names of the family. -/
structure Follows (carryOut : FieldNames → String → Treatment → δ → Logged Fault δ)
    (family : Family) (overrides : Entries Value) (engine : Engine δ) : Prop where
  label : engine.family = family.name
  strategies : engine.strategies = Strategy.standard engine.fields
  registry : engine.registry = Family.registryOf (family.blueprints.map fun blueprint =>
    (blueprint.version, blueprint.toStep (carryOut engine.fields)))
  named : ∀ field ∈ Settings.fieldKeys, Entries.lookup (.text field) engine.fields.sectionOf =
    inForce? defaults.entries overrides ["families", family.name, "fields", field]
  visible : engine.fields.Visible
  stamping : inForce? defaults.entries overrides ["engine", "stamp_versions"] =
    some (.bool engine.stampVersions)
  rejecting : inForce? defaults.entries overrides ["engine", "reject_newer_versions"] =
    some (.bool engine.rejectNewer)

theorem follows_of_gives (given : Gives overrides settings) :
    (family.engine carryOut settings).Follows carryOut family overrides := by
  obtain ⟨config, resolved, accepted⟩ := given.accepted
  have visible := Settings.visible_fieldsFor accepted family.name
  obtain ⟨merged, rfl, made⟩ := merges_of_resolve given.distinct resolved
  obtain ⟨stamping, rejecting⟩ := flags_of_ofConfig made accepted
  have named (field : String) (known : field ∈ Settings.fieldKeys) :=
    lookup_fieldsFor made given.distinct accepted family.name_mem_packaged known
  exact ⟨rfl, rfl, rfl, named, visible, stamping, rejecting⟩

/-- What is in force determines the engine. -/
theorem Follows.unique (follows : engine.Follows carryOut family overrides)
    (again : other.Follows carryOut family others) (same : SameFor family.name overrides others) :
    engine = other := by
  have sameFields : engine.fields = other.fields := by
    refine FieldNames.eq_of_lookup fun field known => ?_
    rw [follows.named field known, again.named field known, same.field]
  have stamps : engine.stampVersions = other.stampVersions := by
    have stamping := follows.stamping
    rw [same.flag, again.stamping] at stamping
    simpa using stamping.symm
  have rejects : engine.rejectNewer = other.rejectNewer := by
    have rejecting := follows.rejecting
    rw [same.flag, again.rejecting] at rejecting
    simpa using rejecting.symm
  obtain ⟨label, fields, registry, strategies, stampVersions, rejectNewer⟩ := engine
  obtain ⟨otherLabel, otherFields, otherRegistry, otherStrategies, otherStamp, otherReject⟩ := other
  cases sameFields
  cases stamps
  cases rejects
  cases follows.label.trans again.label.symm
  cases follows.strategies.trans again.strategies.symm
  cases follows.registry.trans again.registry.symm
  rfl

/-- Accepted overrides reach the engine of each family exactly as they are, and what they say of
other families does not reach it. -/
theorem engine_follows (given : Gives overrides settings) (family : Family)
    (carryOut : FieldNames → String → Treatment → δ → Logged Fault δ) :
    (family.engine carryOut settings).Follows carryOut family overrides ∧
      ∀ others otherSettings, Gives others otherSettings → SameFor family.name overrides others →
        family.engine carryOut otherSettings = family.engine carryOut settings := by
  refine ⟨follows_of_gives given, fun others otherSettings otherGiven same => ?_⟩
  exact ((follows_of_gives given).unique (follows_of_gives otherGiven) same).symm

/-- Overrides that turn marks off. -/
def unmarked : Entries Value :=
  [(.text "engine", object [("stamp_versions", .bool false)])]

/-- The same, and another name for the content of services. -/
def unmarkedBodies : Entries Value :=
  unmarked ++ [(.text "families", object
    [("service", object [("fields", object [("content", .text "body")])])])]

theorem exists_gives_unmarked : ∃ settings, Gives unmarked settings := by
  have distinct : (Value.object unmarked).DistinctKeys := by
    simp [unmarked, object, Entries.DistinctKeys, Scalar.key]
  exact ⟨_, distinct, _, rfl, rfl⟩

theorem exists_gives_unmarkedBodies : ∃ settings, Gives unmarkedBodies settings := by
  have distinct : (Value.object unmarkedBodies).DistinctKeys := by
    simp [unmarkedBodies, unmarked, object, Entries.DistinctKeys, Scalar.key]
  exact ⟨_, distinct, _, rfl, rfl⟩

theorem engine_follows_unmarkedBodies :
    ∃ settings otherSettings, Gives unmarkedBodies settings ∧ Gives unmarked otherSettings ∧
      (Family.service.engine Rewrite.onTree settings).fields.content = "body" ∧
      (Family.service.engine Rewrite.onTree settings).stampVersions = false ∧
      Family.chain.engine Rewrite.onTree otherSettings =
        Family.chain.engine Rewrite.onTree settings := by
  obtain ⟨settings, given⟩ := exists_gives_unmarkedBodies
  obtain ⟨otherSettings, otherGiven⟩ := exists_gives_unmarked
  obtain ⟨service, _⟩ := engine_follows given .service Rewrite.onTree
  obtain ⟨_, beside⟩ := engine_follows given .chain Rewrite.onTree
  refine ⟨settings, otherSettings, given, otherGiven, ?_, ?_, ?_⟩
  · have named := service.named "content" (.head _)
    exact Scalar.text.inj (Value.scalar.inj (Option.some.inj named))
  · have stamping := service.stamping
    exact (Scalar.bool.inj (Value.scalar.inj (Option.some.inj stamping))).symm
  · exact beside _ _ otherGiven ⟨rfl, rfl⟩

end Engine

end Uplift
