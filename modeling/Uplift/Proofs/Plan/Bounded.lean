import Uplift.Proofs.Plan

/-!
# Plans up to a version

An older product has the same steps up to some version and lacks those behind it. Its plan for a
declaration is the first part of the plan that the newer product makes, and what remains of that one
are the steps behind the version.
-/

set_option autoImplicit false

namespace Uplift

variable {δ : Type} {bound : Int}

namespace Ascending

theorem ofList_filter (keep : Int → Bool) (versions : List Int) :
    ofList (versions.filter keep) = (ofList versions).filter keep := by
  refine ofList_eq_of_mem_iff ((pairwise_ofList versions).filter _) fun version => ?_
  rw [List.mem_filter, List.mem_filter, mem_ofList]

/-- An ascending list has the members up to a bound first, and then those behind it. -/
theorem filter_append_filter {α : Type} {version : α → Int} {entries : List α}
    (ascending : (entries.map version).Pairwise (· < ·)) (bound : Int) :
    entries.filter (fun entry => version entry ≤ bound) ++
      entries.filter (fun entry => bound < version entry) = entries := by
  induction entries with
  | nil => rfl
  | cons first rest ih =>
      obtain ⟨least, tail⟩ := List.pairwise_cons.mp ascending
      by_cases within : version first ≤ bound
      · have notBehind : ¬ bound < version first := by omega
        rw [List.filter_cons, List.filter_cons, if_pos (decide_eq_true within),
          if_neg (by simpa using notBehind), List.cons_append, ih tail]
      · have allBehind : ∀ entry ∈ first :: rest, bound < version entry := by
          refine List.forall_mem_cons.mpr ⟨by omega, fun entry member => ?_⟩
          have later := least _ (List.mem_map_of_mem member)
          omega
        have none : (first :: rest).filter (fun entry => version entry ≤ bound) = [] :=
          List.filter_eq_nil_iff.mpr fun entry member => by
            have behind := allBehind entry member
            simpa using behind
        rw [none, List.nil_append, List.filter_eq_self]
        exact fun entry member => decide_eq_true (allBehind entry member)

end Ascending

namespace Registry

/-- A list of steps makes a registry if their versions are positive and distinct. -/
theorem ofSteps_of_valid {steps : List (Int × Step δ)}
    (valid : Valid ⟨steps, true⟩) : ofSteps (steps.map (·.2)) = .ok ⟨steps, true⟩ := by
  suffices taken : ∀ done rest : List (Int × Step δ), Valid ⟨done ++ rest, true⟩ →
      (rest.map (·.2)).foldlM add ⟨done, false⟩ = .ok ⟨done ++ rest, false⟩ by
    have all : (steps.map (·.2)).foldlM add empty = .ok ⟨steps, false⟩ := taken [] steps valid
    rw [ofSteps, all]
    rfl
  intro done rest
  induction rest generalizing done with
  | nil =>
      intro _
      rw [List.append_nil]
      rfl
  | cons entry rest ih =>
      intro valid
      have added : add ⟨done, false⟩ entry.2 = .ok ⟨done ++ [entry], false⟩ := by
        refine add_eq_ok_iff.mpr ⟨rfl, entry.1, ?_, ?_, rfl⟩
        · exact valid.declared entry (List.mem_append_right _ (.head _))
        · have distinct := valid.distinct
          rw [List.map_append, List.map_cons, List.nodup_append] at distinct
          intro old
          exact distinct.2.2 _ old _ (.head _) rfl
      have later := ih (done ++ [entry])
      rw [List.append_assoc, List.singleton_append] at later
      rw [List.map_cons, List.foldlM_cons, added]
      exact later valid

/-- The registry of a product that has the steps up to a version only. -/
def upTo (bound : Int) (registry : Registry δ) : Registry δ :=
  { registry with steps := registry.steps.filter fun entry => entry.1 ≤ bound }

variable {registry : Registry δ}

theorem Valid.upTo (valid : registry.Valid) (bound : Int) : (registry.upTo bound).Valid where
  declared entry member := valid.declared entry (List.mem_filter.mp member).1
  distinct := valid.distinct.sublist (List.filter_sublist.map _)

theorem versions_upTo (bound : Int) (registry : Registry δ) :
    (registry.upTo bound).versions = registry.versions.filter (· ≤ bound) := by
  unfold versions upTo
  rw [← Ascending.ofList_filter, List.filter_map]
  rfl

theorem mem_versions_upTo {version : Int} :
    version ∈ (registry.upTo bound).versions ↔ version ∈ registry.versions ∧ version ≤ bound := by
  rw [versions_upTo, List.mem_filter, decide_eq_true_eq]

theorem step?_upTo {version : Int} (within : version ≤ bound) :
    (registry.upTo bound).step? version = registry.step? version := by
  unfold step? upTo
  rw [List.find?_filter]
  congr 2
  funext entry
  by_cases same : entry.1 = version
  · simp [same, within]
  · simp [same]

theorem ordered_upTo (bound : Int) (registry : Registry δ) :
    (registry.upTo bound).ordered = registry.ordered.filter (fun entry => entry.1 ≤ bound) := by
  unfold ordered
  rw [versions_upTo, List.filterMap_filter, List.filter_filterMap]
  congr 1
  funext version
  by_cases within : version ≤ bound
  · rw [if_pos (decide_eq_true within), step?_upTo within]
    cases registry.step? version <;> simp [Option.filter, within]
  · cases registry.step? version <;> simp [Option.filter, within]

end Registry

namespace Plan

variable {registry : Registry δ} {declaration : Declaration}

theorem outstanding_upTo (bound : Int) (registry : Registry δ) (declaration : Declaration) :
    outstanding (registry.upTo bound) declaration =
      (outstanding registry declaration).filter (fun entry => entry.1 ≤ bound) := by
  unfold outstanding
  rw [Registry.ordered_upTo, List.filter_filter, List.filter_filter]
  exact List.filter_congr fun entry _ => Bool.and_comm _ _

/-- A plan has the steps first that it has up to a version, and then those behind the version. -/
theorem outstanding_split (bound : Int) (registry : Registry δ) (declaration : Declaration) :
    outstanding (registry.upTo bound) declaration ++
        (outstanding registry declaration).filter (fun entry => bound < entry.1) =
      outstanding registry declaration := by
  rw [outstanding_upTo]
  exact Ascending.filter_append_filter (pairwise_outstanding_versions registry declaration) bound

end Plan

end Uplift
