import Uplift.Proofs.Versions.Ascending
import Uplift.Registry

/-!
# Invariant of registries

However a registry came about, its steps stand under the versions that they declare, these are
positive, and no two of them are the same. Listed in order there is exactly one step for each
registered version.
-/

set_option autoImplicit false

namespace Uplift

variable {δ : Type}

theorem Step.number?_pos {step : Step δ} {version : Int} (declared : step.number? = some version) :
    0 < version := by
  unfold Step.number? at declared
  split at declared
  · split at declared
    · cases declared
      assumption
    · cases declared
  · cases declared

namespace Registry

/-- The steps of a registry stand under the versions that they declare, each under its own. -/
structure Valid (registry : Registry δ) : Prop where
  declared : ∀ entry ∈ registry.steps, entry.2.number? = some entry.1
  distinct : (registry.steps.map (·.1)).Nodup

theorem step?_eq_none_iff {registry : Registry δ} {version : Int} :
    registry.step? version = none ↔ version ∉ registry.steps.map (·.1) := by
  simp only [step?, Option.map_eq_none_iff, List.find?_eq_none, List.mem_map, decide_eq_true_eq]
  constructor
  · intro absent found
    obtain ⟨entry, member, same⟩ := found
    exact absent entry member same
  · intro absent entry member same
    exact absent ⟨entry, member, same⟩

/-- A step is added only to an open registry, under the positive version that it declares, which no
other step has. -/
theorem add_eq_ok_iff {registry added : Registry δ} {step : Step δ} :
    registry.add step = .ok added ↔
      registry.isSealed = false ∧ ∃ version, step.number? = some version ∧
        version ∉ registry.steps.map (·.1) ∧
          added = { registry with steps := registry.steps ++ [(version, step)] } := by
  constructor
  · intro accepted
    unfold add at accepted
    split at accepted
    · cases accepted
    · rename_i unsealed
      split at accepted
      · cases accepted
      · rename_i version declared
        split at accepted
        · cases accepted
        · rename_i free
          cases accepted
          have fresh := step?_eq_none_iff.mp (Option.not_isSome_iff_eq_none.mp free)
          exact ⟨Bool.eq_false_iff.mpr unsealed, version, declared, fresh, rfl⟩
  · intro taken
    obtain ⟨unsealed, version, declared, fresh, rfl⟩ := taken
    have free := step?_eq_none_iff.mpr fresh
    simp [add, unsealed, declared, free]

theorem Valid.empty : (Registry.empty : Registry δ).Valid where
  declared _ member := nomatch member
  distinct := .nil

theorem Valid.add {registry added : Registry δ} {step : Step δ} (valid : registry.Valid)
    (accepted : registry.add step = .ok added) : added.Valid := by
  obtain ⟨_, version, declared, fresh, rfl⟩ := add_eq_ok_iff.mp accepted
  constructor
  · intro entry member
    rcases List.mem_append.mp member with old | new
    · exact valid.declared entry old
    · rw [List.mem_singleton.mp new]
      exact declared
  · rw [List.map_append, List.nodup_append]
    refine ⟨valid.distinct, by simp, ?_⟩
    intro old member new single same
    rw [List.map_singleton, List.mem_singleton] at single
    rw [same, single] at member
    exact fresh member

theorem Valid.foldlM_add {registry result : Registry δ} {steps : List (Step δ)}
    (valid : registry.Valid) (accepted : steps.foldlM Registry.add registry = .ok result) :
    result.Valid := by
  induction steps generalizing registry with
  | nil =>
      cases accepted
      exact valid
  | cons step rest ih =>
      rw [List.foldlM_cons] at accepted
      cases first : registry.add step with
      | error error =>
          rw [first] at accepted
          cases accepted
      | ok added =>
          rw [first] at accepted
          exact ih (valid.add first) accepted

/-- Every registry that is made of a list of steps is valid. -/
theorem valid_of_ofSteps {steps : List (Step δ)} {registry : Registry δ}
    (accepted : ofSteps steps = .ok registry) : registry.Valid := by
  unfold ofSteps at accepted
  cases folded : steps.foldlM Registry.add Registry.empty with
  | error error =>
      rw [folded] at accepted
      cases accepted
  | ok unsealed =>
      rw [folded] at accepted
      cases accepted
      have valid := Valid.empty.foldlM_add folded
      exact ⟨valid.declared, valid.distinct⟩

theorem mem_versions {registry : Registry δ} {version : Int} :
    version ∈ registry.versions ↔ version ∈ registry.steps.map (·.1) :=
  Ascending.mem_ofList

theorem pairwise_versions (registry : Registry δ) : registry.versions.Pairwise (· < ·) :=
  Ascending.pairwise_ofList _

theorem Valid.versions_pos {registry : Registry δ} (valid : registry.Valid) {version : Int}
    (registered : version ∈ registry.versions) : 0 < version := by
  obtain ⟨entry, member, rfl⟩ := List.mem_map.mp (mem_versions.mp registered)
  exact Step.number?_pos (valid.declared entry member)

theorem exists_step_of_mem_versions {registry : Registry δ} {version : Int}
    (registered : version ∈ registry.versions) : ∃ step, registry.step? version = some step := by
  cases found : registry.step? version with
  | none => exact absurd (mem_versions.mp registered) (step?_eq_none_iff.mp found)
  | some step => exact ⟨step, rfl⟩

/-- In order there is exactly one step for each registered version. -/
theorem map_fst_ordered (registry : Registry δ) :
    registry.ordered.map (·.1) = registry.versions := by
  have all : ∀ versions : List Int, (∀ version ∈ versions, version ∈ registry.versions) →
      (versions.filterMap fun version =>
        (registry.step? version).map fun step => (version, step)).map (·.1) = versions := by
    intro versions registered
    induction versions with
    | nil => rfl
    | cons version rest ih =>
        obtain ⟨step, found⟩ := exists_step_of_mem_versions (registered version (.head _))
        rw [List.filterMap_cons, found]
        simp only [Option.map_some, List.map_cons]
        rw [ih fun other member => registered other (.tail _ member)]
  exact all registry.versions fun _ member => member

theorem step?_of_mem_ordered {registry : Registry δ} {entry : Int × Step δ}
    (member : entry ∈ registry.ordered) : registry.step? entry.1 = some entry.2 := by
  obtain ⟨version, _, found⟩ := List.mem_filterMap.mp member
  obtain ⟨step, same, rfl⟩ := Option.map_eq_some_iff.mp found
  exact same

end Registry

end Uplift
