import Uplift.Family
import Uplift.Proofs.Outcome
import Uplift.Proofs.Registry
import Uplift.Rewrite.Tree

/-!
# Assembled engines

An engine is assembled exactly if its steps make a registry and it has strategies, and it is made of
what was handed over. So the registry of every assembled engine is valid. The engines of the known
families are assembled in this way.
-/

set_option autoImplicit false

namespace Uplift.Engine

variable {δ : Type}

theorem assemble_eq_ok_iff {family : String} {steps : List (Step δ)} {fields : FieldNames}
    {strategies : Option (List Strategy)} {stampVersions rejectNewer : Bool} {engine : Engine δ} :
    assemble family steps fields strategies stampVersions rejectNewer = .ok engine ↔
      strategies.getD (Strategy.standard fields) ≠ [] ∧
        ∃ registry, Registry.ofSteps steps = .ok registry ∧
          engine = ⟨family, fields, registry, strategies.getD (Strategy.standard fields),
            stampVersions, rejectNewer⟩ := by
  unfold assemble
  cases registered : Registry.ofSteps steps with
  | error error => simp [bind, Except.bind]
  | ok registry =>
      cases chosen : strategies.getD (Strategy.standard fields) with
      | nil => simp [bind, Except.bind]
      | cons first rest =>
          simp [bind, Except.bind, pure, Except.pure, eq_comm]

/-- To assemble an engine is to build its family first. -/
theorem assemble_eq_build (name : String) (steps : List (Step δ)) (fields : FieldNames)
    (strategies : Option (List Strategy)) (stampVersions rejectNewer : Bool) :
    assemble name steps fields strategies stampVersions rejectNewer =
      ((DocumentFamily.build name steps (some fields) strategies).mapError .registry >>=
        fun family => family.engine stampVersions rejectNewer) := by
  unfold assemble DocumentFamily.build
  cases Registry.ofSteps steps with
  | error error => rfl
  | ok registry => rfl

/-- An engine that looks for versions under its own field names, in a valid registry. -/
structure Standard (engine : Engine δ) : Prop where
  strategies : engine.strategies = Strategy.standard engine.fields
  registry : engine.registry.Valid

/-- An engine that is assembled without strategies of its own is a standard one. -/
theorem standard_of_assemble {family : String} {steps : List (Step δ)} {fields : FieldNames}
    {stampVersions rejectNewer : Bool} {engine : Engine δ}
    (assembled : assemble family steps fields none stampVersions rejectNewer = .ok engine) :
    engine.Standard ∧ engine.stampVersions = stampVersions := by
  obtain ⟨_, registry, registered, rfl⟩ := assemble_eq_ok_iff.mp assembled
  exact ⟨⟨rfl, Registry.valid_of_ofSteps registered⟩, rfl⟩

/-- The engine of a family is assembled from the steps of the family. -/
theorem assemble_family (carryOut : FieldNames → String → Treatment → δ → Logged Fault δ)
    (settings : Settings) (family : Family) :
    assemble family.name
        (family.blueprints.map fun blueprint =>
          blueprint.toStep (carryOut (settings.fieldsFor family.name)))
        (settings.fieldsFor family.name) none settings.stampVersions settings.rejectNewer =
      .ok (family.engine carryOut settings) := by
  refine assemble_eq_ok_iff.mpr ⟨nofun, _, Family.ofSteps_blueprints _ family, ?_⟩
  rfl

theorem standard_family (carryOut : FieldNames → String → Treatment → δ → Logged Fault δ)
    (settings : Settings) (family : Family) : (family.engine carryOut settings).Standard :=
  (standard_of_assemble (assemble_family carryOut settings family)).1

/-- The engine of a family on documents that are held as trees. -/
abbrev ofTrees (settings : Settings) (family : Family) : Engine Value :=
  family.engine Rewrite.onTree settings

/-- The engine of services that marks documents and rejects none, under the standard field names. -/
def ofServices : Engine Value :=
  ofTrees ⟨true, false, [], ""⟩ .service

end Uplift.Engine
