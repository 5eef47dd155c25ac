import Uplift.Versions.Ascending

/-!
# Ascending lists are determined by their members

`Ascending.ofList` gives a strictly ascending list, and there is only one such list with given
members. So what is said about the members of a list of versions settles its ascending form.
-/

set_option autoImplicit false

namespace Uplift.Ascending

private theorem lt_of_mem_insert {bound version other : Int} {versions : List Int}
    (first : bound < version) (rest : ∀ member ∈ versions, bound < member)
    (member : other ∈ insert version versions) : bound < other := by
  rcases mem_insert.mp member with rfl | old
  · exact first
  · exact rest other old

theorem pairwise_insert {version : Int} {versions : List Int}
    (ascending : versions.Pairwise (· < ·)) : (insert version versions).Pairwise (· < ·) := by
  induction versions with
  | nil => simp [insert]
  | cons first rest ih =>
      obtain ⟨least, tail⟩ := List.pairwise_cons.mp ascending
      simp only [insert]
      split
      · rename_i below
        refine List.pairwise_cons.mpr ⟨?_, ascending⟩
        intro other member
        rcases List.mem_cons.mp member with rfl | old
        · exact below
        · exact Int.lt_trans below (least other old)
      · split
        · exact ascending
        · rename_i notBelow notSame
          have above : first < version := by omega
          refine List.pairwise_cons.mpr ⟨?_, ih tail⟩
          intro other member
          exact lt_of_mem_insert above least member

theorem pairwise_ofList (versions : List Int) : (ofList versions).Pairwise (· < ·) := by
  induction versions with
  | nil => exact .nil
  | cons version rest ih => exact pairwise_insert ih

theorem eq_of_mem_iff {ones others : List Int}
    (ascendingOnes : ones.Pairwise (· < ·)) (ascendingOthers : others.Pairwise (· < ·))
    (same : ∀ version, version ∈ ones ↔ version ∈ others) : ones = others := by
  have uniqueOnes : ones.Nodup := ascendingOnes.imp fun less => Int.ne_of_lt less
  have uniqueOthers : others.Nodup := ascendingOthers.imp fun less => Int.ne_of_lt less
  have permutation : ones.Perm others :=
    (List.perm_ext_iff_of_nodup uniqueOnes uniqueOthers).mpr same
  refine permutation.eq_of_pairwise ?_ ascendingOnes ascendingOthers
  intro one other _ _ less greater
  omega

/-- The last version of an ascending list is the largest. -/
theorem getLast?_eq_some_iff {versions : List Int} {version : Int}
    (ascending : versions.Pairwise (· < ·)) :
    versions.getLast? = some version ↔
      version ∈ versions ∧ ∀ other ∈ versions, other ≤ version := by
  by_cases empty : versions = []
  · simp [empty]
  · obtain ⟨front, last, rfl⟩ : ∃ front last, versions = front ++ [last] :=
      ⟨_, _, (List.dropLast_concat_getLast empty).symm⟩
    obtain ⟨_, _, less⟩ := List.pairwise_append.mp ascending
    have largest : ∀ other ∈ front, other < last := fun other member =>
      less other member last (.head _)
    rw [List.getLast?_concat, Option.some.injEq]
    constructor
    · rintro rfl
      refine ⟨by simp, fun other member => ?_⟩
      rcases List.mem_append.mp member with before | final
      · exact Int.le_of_lt (largest other before)
      · exact Int.le_of_eq (List.mem_singleton.mp final)
    · rintro ⟨member, bound⟩
      rcases List.mem_append.mp member with before | final
      · have below := bound last (by simp)
        have above := largest version before
        omega
      · exact (List.mem_singleton.mp final).symm

theorem ofList_eq_of_mem_iff {versions ascending : List Int}
    (sorted : ascending.Pairwise (· < ·))
    (same : ∀ version, version ∈ versions ↔ version ∈ ascending) :
    ofList versions = ascending := by
  apply eq_of_mem_iff (pairwise_ofList versions) sorted
  intro version
  rw [mem_ofList, same]

end Uplift.Ascending
