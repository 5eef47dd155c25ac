import Mathlib.Data.List.Nodup
import Uplift.Proofs.Outcome
import Uplift.Proofs.Plan.Bounded
import Uplift.Proofs.Registry.History

/-!
# The order of registration

Steps make a registry exactly if they declare positive integers, no two of them the same. Each step
then stands under the version that it declares, and listed in ascending order the registry is the
same in whichever order the steps were registered.
-/

set_option autoImplicit false

namespace Uplift

variable {δ : Type} {steps others : List (Step δ)}

/-- Each step declares a positive integer as its version, and no two of them the same. -/
structure Registrable (steps : List (Step δ)) : Prop where
  positive : ∀ step ∈ steps, ∃ version : Int, step.version = some (.int version) ∧ 0 < version
  distinct : (steps.map (·.version)).Nodup

theorem Registrable.perm (registrable : Registrable steps) (perm : steps.Perm others) :
    Registrable others where
  positive step member := registrable.positive step (perm.mem_iff.mpr member)
  distinct := (perm.map _).nodup_iff.mp registrable.distinct

namespace Registry

variable {registry other result : Registry δ} {entries : List (Int × Step δ)} {step : Step δ}
  {version : Int}

/-!
## What steps make a registry
-/

/-- Steps that are added one by one stand behind those that were there, in the order in which they
came. -/
theorem steps_of_foldlM_add (accepted : steps.foldlM add registry = .ok result) :
    result.steps.map (·.2) = registry.steps.map (·.2) ++ steps := by
  induction steps generalizing registry with
  | nil =>
      cases accepted
      simp
  | cons step rest ih =>
      rw [List.foldlM_cons] at accepted
      obtain ⟨added, first, later⟩ := Outcome.bind_eq_ok_iff.mp accepted
      obtain ⟨_, version, _, _, rfl⟩ := add_eq_ok_iff.mp first
      simpa using ih later

theorem steps_of_ofSteps (accepted : ofSteps steps = .ok registry) :
    registry.steps.map (·.2) = steps := by
  obtain ⟨unsealed, folded, rfl⟩ := Outcome.map_eq_ok_iff.mp accepted
  exact steps_of_foldlM_add folded

/-- What steps declare is distinct if they stand under distinct versions, and only then. -/
theorem nodup_declared_iff (declared : ∀ entry ∈ entries, entry.2.number? = some entry.1) :
    ((entries.map (·.2)).map (·.version)).Nodup ↔ (entries.map (·.1)).Nodup := by
  have versions : (entries.map (·.2)).map (·.version) =
      (entries.map (·.1)).map fun version => some (Value.int version) := by
    simp only [List.map_map]
    apply List.map_congr_left
    intro entry member
    exact (Step.number?_eq_some_iff.mp (declared entry member)).1
  rw [versions]
  apply List.nodup_map_iff
  intro one another same
  cases same
  rfl

theorem Valid.registrable (valid : registry.Valid) : Registrable (registry.steps.map (·.2)) where
  positive := by
    intro step member
    obtain ⟨entry, stored, same⟩ := List.mem_map.mp member
    cases same
    exact ⟨entry.1, Step.number?_eq_some_iff.mp (valid.declared entry stored)⟩
  distinct := (nodup_declared_iff valid.declared).mpr valid.distinct

theorem exists_entries (numbered : ∀ step ∈ steps, ∃ version, step.number? = some version) :
    ∃ entries : List (Int × Step δ), entries.map (·.2) = steps ∧
      ∀ entry ∈ entries, entry.2.number? = some entry.1 := by
  induction steps with
  | nil => exact ⟨[], rfl, nofun⟩
  | cons step rest ih =>
      obtain ⟨⟨version, declared⟩, later⟩ := List.forall_mem_cons.mp numbered
      obtain ⟨entries, listed, all⟩ := ih later
      refine ⟨(version, step) :: entries, by simp [listed], ?_⟩
      exact List.forall_mem_cons.mpr ⟨declared, all⟩

/-- Steps make a registry exactly if each declares a positive version of its own. -/
theorem exists_ofSteps_iff :
    (∃ registry, ofSteps steps = .ok registry) ↔ Registrable steps := by
  constructor
  · intro accepted
    obtain ⟨registry, made⟩ := accepted
    rw [← steps_of_ofSteps made]
    exact (valid_of_ofSteps made).registrable
  · intro registrable
    have numbered : ∀ step ∈ steps, ∃ version, step.number? = some version := by
      intro step member
      obtain ⟨version, declared⟩ := registrable.positive step member
      exact ⟨version, Step.number?_eq_some_iff.mpr declared⟩
    obtain ⟨entries, rfl, declared⟩ := exists_entries numbered
    have distinct := (nodup_declared_iff declared).mp registrable.distinct
    exact ⟨_, ofSteps_of_valid ⟨declared, distinct⟩⟩

/-!
## What a registry shows
-/

theorem Valid.mem_steps_iff (valid : registry.Valid) {entry : Int × Step δ} :
    entry ∈ registry.steps ↔
      entry.2 ∈ registry.steps.map (·.2) ∧ entry.2.number? = some entry.1 := by
  constructor
  · intro member
    exact ⟨List.mem_map_of_mem member, valid.declared entry member⟩
  · intro known
    obtain ⟨stored, member, same⟩ := List.mem_map.mp known.1
    have version := valid.declared stored member
    rw [same, known.2] at version
    have place : stored = entry := Prod.ext (Option.some.inj version).symm same
    rwa [place] at member

theorem Valid.step?_eq_some_iff (valid : registry.Valid) :
    registry.step? version = some step ↔ (version, step) ∈ registry.steps := by
  have stored : ∀ found, registry.step? version = some found →
      (version, found) ∈ registry.steps := by
    intro found located
    obtain ⟨entry, first, same⟩ := Option.map_eq_some_iff.mp located
    have place : entry.1 = version := by simpa using List.find?_some first
    cases place
    cases same
    exact List.mem_of_find?_eq_some first
  refine ⟨stored step, fun member => ?_⟩
  have registered := List.mem_map_of_mem (f := (·.1)) member
  obtain ⟨found, located⟩ := exists_step_of_mem_versions (mem_versions.mpr registered)
  have same := List.inj_on_of_nodup_map valid.distinct (stored found located) member rfl
  cases same
  exact located

/-- Registries of the same steps list them alike. -/
theorem Valid.ordered_eq (valid : registry.Valid) (otherValid : other.Valid)
    (same : ∀ entry, entry ∈ registry.steps ↔ entry ∈ other.steps) :
    registry.ordered = other.ordered := by
  have versions : registry.versions = other.versions := by
    apply Ascending.eq_of_mem_iff registry.pairwise_versions other.pairwise_versions
    intro version
    simp only [mem_versions, List.mem_map, same]
  have found : ∀ version, registry.step? version = other.step? version := by
    intro version
    apply Option.ext
    intro step
    rw [valid.step?_eq_some_iff, otherValid.step?_eq_some_iff, same]
  simp only [ordered, versions, found]

/-- In whichever order steps are registered, the registry lists them alike. -/
theorem ordered_eq_of_perm (perm : steps.Perm others) (made : ofSteps steps = .ok registry)
    (otherMade : ofSteps others = .ok other) : registry.ordered = other.ordered := by
  have valid := valid_of_ofSteps made
  have otherValid := valid_of_ofSteps otherMade
  apply valid.ordered_eq otherValid
  intro entry
  rw [valid.mem_steps_iff, otherValid.mem_steps_iff, steps_of_ofSteps made,
    steps_of_ofSteps otherMade, perm.mem_iff]

end Registry

end Uplift
