import Uplift.Plan
import Uplift.Proofs.Registry

/-!
# Plans and kept versions

Of the registered versions a plan has exactly those that a document does not declare, in ascending
order, and each with its step. Together with the registered versions that are declared they are all
that are registered, and so a marker of both lists the registry as a whole.
-/

set_option autoImplicit false

namespace Uplift.Plan

variable {δ : Type}

theorem map_fst_outstanding (registry : Registry δ) (declaration : Declaration) :
    (outstanding registry declaration).map (·.1) =
      registry.versions.filter fun version => !declaration.contains version := by
  rw [← Registry.map_fst_ordered, List.filter_map]
  rfl

theorem mem_outstanding_versions {registry : Registry δ} {declaration : Declaration}
    {version : Int} :
    version ∈ (outstanding registry declaration).map (·.1) ↔
      version ∈ registry.versions ∧ declaration.contains version = false := by
  simp [map_fst_outstanding]

theorem pairwise_outstanding_versions (registry : Registry δ) (declaration : Declaration) :
    ((outstanding registry declaration).map (·.1)).Pairwise (· < ·) := by
  rw [map_fst_outstanding]
  exact registry.pairwise_versions.filter _

theorem step?_of_mem_outstanding {registry : Registry δ} {declaration : Declaration}
    {entry : Int × Step δ} (member : entry ∈ outstanding registry declaration) :
    registry.step? entry.1 = some entry.2 :=
  Registry.step?_of_mem_ordered (List.mem_filter.mp member).1

/-- A plan has exactly the registered steps whose versions are not declared. -/
theorem mem_outstanding {registry : Registry δ} {declaration : Declaration} {version : Int}
    {step : Step δ} :
    (version, step) ∈ outstanding registry declaration ↔
      version ∈ registry.versions ∧ declaration.contains version = false ∧
        registry.step? version = some step := by
  constructor
  · intro member
    have versions := mem_outstanding_versions.mp (List.mem_map_of_mem (f := (·.1)) member)
    exact ⟨versions.1, versions.2, step?_of_mem_outstanding member⟩
  · intro lacking
    obtain ⟨registered, undeclared, found⟩ := lacking
    refine List.mem_filter.mpr ⟨List.mem_filterMap.mpr ⟨version, registered, ?_⟩, ?_⟩
    · rw [found, Option.map_some]
    · simp only [undeclared, Bool.not_false]

theorem outstanding_eq_nil_iff {registry : Registry δ} {declaration : Declaration} :
    outstanding registry declaration = [] ↔
      ∀ version ∈ registry.versions, declaration.contains version = true := by
  rw [← List.map_eq_nil_iff (f := (·.1)), map_fst_outstanding, List.filter_eq_nil_iff]
  simp

theorem mem_restrictedTo {registered : List Int} {declaration : Declaration} {version : Int} :
    version ∈ declaration.restrictedTo registered ↔
      version ∈ registered ∧ declaration.contains version = true := by
  simp [Declaration.restrictedTo, Ascending.mem_ofList]

/-- The declared versions that are registered, and those of the plan, are all that are
registered. -/
theorem mem_restrictedTo_append_outstanding {registry : Registry δ} {declaration : Declaration}
    {version : Int} :
    version ∈ declaration.restrictedTo registry.versions ++
        (outstanding registry declaration).map (·.1) ↔
      version ∈ registry.versions := by
  rw [List.mem_append, mem_restrictedTo, mem_outstanding_versions]
  cases declaration.contains version <;> simp

theorem ofList_restrictedTo_append_outstanding (registry : Registry δ)
    (declaration : Declaration) :
    Ascending.ofList (declaration.restrictedTo registry.versions ++
        (outstanding registry declaration).map (·.1)) =
      registry.versions :=
  Ascending.ofList_eq_of_mem_iff registry.pairwise_versions fun _ =>
    mem_restrictedTo_append_outstanding

theorem le_latest_of_mem_versions {registry : Registry δ} {version : Int}
    (registered : version ∈ registry.versions) : version ≤ registry.latest?.getD 0 := by
  have last := List.getLast?_eq_some_getLast (List.ne_nil_of_mem registered)
  rw [Registry.latest?, last]
  exact ((Ascending.getLast?_eq_some_iff registry.pairwise_versions).mp last).2 version registered

theorem unknown_eq_nil {registry : Registry δ} {versions : List Int}
    (registered : ∀ version ∈ versions, version ∈ registry.versions) :
    unknown registry (.explicit versions) = [] := by
  have noneAbove : versions.filter (registry.latest?.getD 0 < ·) = [] := by
    apply List.filter_eq_nil_iff.mpr
    intro version member
    have bounded := le_latest_of_mem_versions (registered version member)
    simpa using bounded
  simp only [unknown, Declaration.above, noneAbove]
  rfl

end Uplift.Plan
