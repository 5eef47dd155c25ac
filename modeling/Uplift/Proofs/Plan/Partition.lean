import Uplift.Proofs.Plan
import Uplift.Proofs.Registry.History
import Uplift.Proofs.Versions.Listing

/-!
# A plan and the kept versions share out the registry

Of a document's declaration a registered version is kept if it is declared and planned if it is not.
Neither list names a version twice, or one that is not registered. So a marker of both lists the
registry, as long as its versions have no more digits than are written.
-/

set_option autoImplicit false

namespace Uplift.Plan

variable {δ : Type}

/-- The kept versions and those of the plan have every registered version in exactly one of them. -/
structure SharesOut (registry : Registry δ) (declaration : Declaration) (kept planned : List Int) :
    Prop where
  keptAscends : kept.Pairwise (· < ·)
  plannedAscends : planned.Pairwise (· < ·)
  either : ∀ version, version ∈ registry.versions ↔ version ∈ kept ∨ version ∈ planned
  notBoth : ∀ version ∈ kept, version ∉ planned
  declared : ∀ version ∈ registry.versions,
    version ∈ kept ↔ declaration.contains version = true
  /-- The marker of both lists is that of all that is registered, and each version stands in it
  once. -/
  written : Listing.written (kept ++ planned) =
    if Listing.isWritable registry.versions then
      .ok ("[" ++ ", ".intercalate (registry.versions.map toString) ++ "]")
    else .error .integerTooLong

theorem written_restrictedTo_append_outstanding (registry : Registry δ)
    (declaration : Declaration) :
    Listing.written (declaration.restrictedTo registry.versions ++
        (outstanding registry declaration).map (·.1)) =
      if Listing.isWritable registry.versions then
        .ok ("[" ++ ", ".intercalate (registry.versions.map toString) ++ "]")
      else .error .integerTooLong := by
  have writable : Listing.isWritable (declaration.restrictedTo registry.versions ++
      (outstanding registry declaration).map (·.1)) = Listing.isWritable registry.versions := by
    rw [Bool.eq_iff_iff, Listing.isWritable_iff, Listing.isWritable_iff]
    exact forall_congr' fun version => imp_congr_left mem_restrictedTo_append_outstanding
  rw [Listing.written, writable, Listing.format, ofList_restrictedTo_append_outstanding]

/-- Whatever was added to a registry and whatever a document declares, what is kept and what is
planned share out the registry, and each planned step has the version it is planned for. -/
theorem sharesOut_ofCalls (calls : List (Registry.Call δ)) (declaration : Declaration) :
    (∀ entry ∈ outstanding (.ofCalls calls) declaration,
        entry.2.version = some (.int entry.1)) ∧
      SharesOut (.ofCalls calls) declaration
        (declaration.restrictedTo (Registry.ofCalls calls).versions)
        ((outstanding (.ofCalls calls) declaration).map (·.1)) := by
  constructor
  · intro entry member
    exact (Registry.valid_ofCalls calls).version_of_mem_ordered (List.mem_filter.mp member).1
  · constructor
    case keptAscends => exact Ascending.pairwise_ofList _
    case plannedAscends => exact pairwise_outstanding_versions _ _
    case either =>
      intro version
      rw [← List.mem_append, mem_restrictedTo_append_outstanding]
    case notBoth =>
      intro version kept planned
      have declared := (mem_restrictedTo.mp kept).2
      rw [(mem_outstanding_versions.mp planned).2] at declared
      cases declared
    case declared =>
      intro version registered
      rw [mem_restrictedTo, and_iff_right registered]
    case written => exact written_restrictedTo_append_outstanding _ _

end Uplift.Plan
