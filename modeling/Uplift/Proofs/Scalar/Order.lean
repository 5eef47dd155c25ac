import Mathlib.Data.List.Induction
import Uplift.Proofs.Outcome
import Uplift.Scalar.Order

/-!
# Which scalars can be sorted

Numbers have an order among each other, and so have texts, dates, moments with an offset, moments
without one, and sequences of bytes; nothing else does. Scalars can be sorted exactly if they are of
one of these kinds, or if there is only one of them. Otherwise sorting tells two that have no order.
-/

set_option autoImplicit false

namespace Uplift.Scalar

/-- The kinds of scalars that have an order among each other. -/
inductive Scale where
  | number
  | text
  | date
  | moment (universal : Bool)
  | bytes
deriving DecidableEq

def scale? : Scalar → Option Scale
  | null => none
  | bool _ => some .number
  | int _ => some .number
  | float _ => some .number
  | text _ => some .text
  | date _ => some .date
  | moment value => some (.moment value.instant.1)
  | bytes _ => some .bytes

/-- Two scalars have an order if they lie on one scale. -/
def Comparable (first second : Scalar) : Prop :=
  ∃ scale, first.scale? = some scale ∧ second.scale? = some scale

variable {first second third : Scalar}

theorem Comparable.symm (comparable : Comparable first second) : Comparable second first := by
  obtain ⟨scale, ofFirst, ofSecond⟩ := comparable
  exact ⟨scale, ofSecond, ofFirst⟩

theorem Comparable.trans (one : Comparable first second) (other : Comparable second third) :
    Comparable first third := by
  obtain ⟨scale, ofFirst, ofSecond⟩ := one
  obtain ⟨same, again, ofThird⟩ := other
  rw [ofSecond, Option.some.injEq] at again
  exact ⟨scale, ofFirst, again ▸ ofThird⟩

theorem isSome_position?_iff {scalar : Scalar} :
    scalar.position?.isSome = true ↔ scalar.scale? = some .number := by
  cases scalar with
  | float value =>
      simp only [position?, scale?, iff_true]
      split
      · rfl
      · split <;> rfl
  | _ => simp [position?, scale?]

theorem isSome_before?_iff : (first.before? second).isSome = true ↔ Comparable first second := by
  have numbers : first.position?.isSome = true ↔ first.scale? = some .number :=
    isSome_position?_iff
  have otherNumbers : second.position?.isSome = true ↔ second.scale? = some .number :=
    isSome_position?_iff
  unfold before? Comparable
  cases place : first.position? with
  | some one =>
      cases otherPlace : second.position? with
      | some other =>
          rw [place] at numbers
          rw [otherPlace] at otherNumbers
          refine iff_of_true ?_ ⟨_, numbers.mp rfl, otherNumbers.mp rfl⟩
          rcases one with _ | ⟨oneRegion, oneSteps⟩ <;>
            rcases other with _ | ⟨otherRegion, otherSteps⟩ <;> rfl
      | none =>
          rw [place] at numbers
          simp only [otherPlace, Option.isSome_none, Bool.false_eq_true, false_iff] at otherNumbers
          have scale := numbers.mp rfl
          cases first <;> simp_all [scale?]
  | none =>
      simp only [place, Option.isSome_none, Bool.false_eq_true, false_iff] at numbers
      dsimp only
      cases first <;> cases second <;> simp_all [scale?]
      exact eq_comm

theorem compares_less_of_comparable (comparable : Comparable first second) :
    ∃ before, compares .less first second = .ok before := by
  obtain ⟨before, answer⟩ := Option.isSome_iff_exists.mp (isSome_before?_iff.mpr comparable)
  exact ⟨before, by simp only [compares, answer]⟩

theorem compares_less_of_not_comparable (apart : ¬ Comparable first second) :
    compares .less first second =
      .error (.unordered "<" first.qualifiedTypeName second.qualifiedTypeName) := by
  have answer : first.before? second = none := by
    rw [← Option.not_isSome_iff_eq_none, isSome_before?_iff]
    exact apart
  simp only [compares, answer, Comparison.sign]

/-!
## Sorting
-/

variable {scalar : Scalar} {scalars done sorted : List Scalar}

theorem insertSorted_cons {first : Scalar} {before : Bool}
    (compared : compares .less scalar first = .ok before) (rest : List Scalar) :
    insertSorted scalar (first :: rest) =
      if before then .ok (scalar :: first :: rest)
      else (insertSorted scalar rest).map (first :: ·) := by
  rw [insertSorted, compared]
  cases before
  · cases insertSorted scalar rest <;> rfl
  · rfl

theorem insertSorted_cons_of_not_comparable {first : Scalar}
    (apart : ¬ Comparable scalar first) (rest : List Scalar) :
    insertSorted scalar (first :: rest) =
      .error (.unordered "<" scalar.qualifiedTypeName first.qualifiedTypeName) := by
  rw [insertSorted, compares_less_of_not_comparable apart]
  rfl

/-- A scalar that has an order with all that are sorted already finds its place among them. -/
theorem exists_insertSorted (comparable : ∀ other ∈ done, Comparable scalar other) :
    ∃ placed, insertSorted scalar done = .ok placed := by
  induction done with
  | nil => exact ⟨_, rfl⟩
  | cons first rest ih =>
      obtain ⟨withFirst, withRest⟩ := List.forall_mem_cons.mp comparable
      obtain ⟨before, compared⟩ := compares_less_of_comparable withFirst
      obtain ⟨placed, inserted⟩ := ih withRest
      rw [insertSorted_cons compared, inserted]
      cases before <;> exact ⟨_, rfl⟩

theorem perm_of_insertSorted (inserted : insertSorted scalar done = .ok sorted) :
    sorted.Perm (scalar :: done) := by
  induction done generalizing sorted with
  | nil =>
      cases inserted
      exact .refl _
  | cons first rest ih =>
      by_cases comparable : Comparable scalar first
      · obtain ⟨before, compared⟩ := compares_less_of_comparable comparable
        rw [insertSorted_cons compared] at inserted
        cases before with
        | true =>
            cases inserted
            exact .refl _
        | false =>
            obtain ⟨placed, insertedRest, rfl⟩ := Outcome.map_eq_ok_iff.mp inserted
            exact ((ih insertedRest).cons _).trans (.swap _ _ _)
      · rw [insertSorted_cons_of_not_comparable comparable] at inserted
        cases inserted

/-- The first of the sorted scalars is compared in any case. -/
theorem comparable_head_of_insertSorted {first : Scalar} {rest : List Scalar}
    (inserted : insertSorted scalar (first :: rest) = .ok sorted) : Comparable scalar first := by
  by_contra apart
  rw [insertSorted_cons_of_not_comparable apart] at inserted
  cases inserted

theorem unordered_of_insertSorted {fault : Fault}
    (failed : insertSorted scalar done = .error fault) :
    ∃ other ∈ done, ¬ Comparable scalar other ∧
      fault = .unordered "<" scalar.qualifiedTypeName other.qualifiedTypeName := by
  induction done with
  | nil => cases failed
  | cons first rest ih =>
      by_cases comparable : Comparable scalar first
      · obtain ⟨before, compared⟩ := compares_less_of_comparable comparable
        rw [insertSorted_cons compared] at failed
        cases before with
        | true => cases failed
        | false =>
            obtain ⟨other, member, apart⟩ := ih (Outcome.map_eq_error_iff.mp failed)
            exact ⟨other, .tail _ member, apart⟩
      · rw [insertSorted_cons_of_not_comparable comparable] at failed
        cases failed
        exact ⟨first, .head _, comparable, rfl⟩

theorem sorted_concat (scalars : List Scalar) (last : Scalar) :
    Scalar.sorted (scalars ++ [last]) = Scalar.sorted scalars >>= insertSorted last := by
  rw [Scalar.sorted, Scalar.sorted, List.foldlM_append]
  refine congrArg _ (funext fun done => ?_)
  rw [List.foldlM_cons]
  cases insertSorted last done <;> rfl

theorem perm_of_sorted (done : Scalar.sorted scalars = .ok sorted) : sorted.Perm scalars := by
  induction scalars using List.reverseRecOn generalizing sorted with
  | nil =>
      cases done
      exact .refl _
  | append_singleton before last ih =>
      rw [sorted_concat] at done
      obtain ⟨placed, sortedBefore, inserted⟩ := Outcome.bind_eq_ok_iff.mp done
      exact (perm_of_insertSorted inserted).trans
        (((ih sortedBefore).cons _).trans (List.perm_append_singleton _ _).symm)

/-- Scalars can be sorted exactly if any two of them have an order. -/
theorem exists_sorted_iff :
    (∃ sorted, Scalar.sorted scalars = .ok sorted) ↔ scalars.Pairwise Comparable := by
  induction scalars using List.reverseRecOn with
  | nil => exact ⟨fun _ => .nil, fun _ => ⟨_, rfl⟩⟩
  | append_singleton before last ih =>
      rw [sorted_concat, List.pairwise_append, ← ih]
      simp only [List.pairwise_singleton, List.mem_singleton, forall_eq, true_and]
      constructor
      · rintro ⟨sorted, done⟩
        obtain ⟨placed, sortedBefore, inserted⟩ := Outcome.bind_eq_ok_iff.mp done
        refine ⟨⟨placed, sortedBefore⟩, fun scalar member => ?_⟩
        have inPlaced := (perm_of_sorted sortedBefore).mem_iff.mpr member
        have together := (perm_of_sorted sortedBefore).symm.pairwise
          (ih.mp ⟨placed, sortedBefore⟩) Comparable.symm
        cases placed with
        | nil => cases inPlaced
        | cons first rest =>
            -- The last one was compared with the first, and that has an order with all others.
            have withFirst := (comparable_head_of_insertSorted inserted).symm
            rcases List.mem_cons.mp inPlaced with rfl | inRest
            · exact withFirst
            · exact ((List.pairwise_cons.mp together).1 scalar inRest).symm.trans withFirst
      · rintro ⟨⟨placed, sortedBefore⟩, withLast⟩
        have withPlaced : ∀ other ∈ placed, Comparable last other := fun other member =>
          (withLast other ((perm_of_sorted sortedBefore).mem_iff.mp member)).symm
        obtain ⟨sorted, inserted⟩ := exists_insertSorted withPlaced
        exact ⟨sorted, Outcome.bind_eq_ok_iff.mpr ⟨placed, sortedBefore, inserted⟩⟩

/-- What sorting fails with names two of the scalars that have no order. -/
theorem unordered_of_sorted {fault : Fault} (failed : Scalar.sorted scalars = .error fault) :
    ∃ one ∈ scalars, ∃ other ∈ scalars, ¬ Comparable one other ∧
      fault = .unordered "<" one.qualifiedTypeName other.qualifiedTypeName := by
  induction scalars using List.reverseRecOn with
  | nil => cases failed
  | append_singleton before last ih =>
      rw [sorted_concat] at failed
      rcases Outcome.bind_eq_error_iff.mp failed with inBefore | ⟨placed, sortedBefore, inserting⟩
      · obtain ⟨one, member, other, otherMember, apart⟩ := ih inBefore
        exact ⟨one, List.mem_append_left _ member, other, List.mem_append_left _ otherMember, apart⟩
      · obtain ⟨other, member, apart⟩ := unordered_of_insertSorted inserting
        have inBefore := (perm_of_sorted sortedBefore).mem_iff.mp member
        exact ⟨last, List.mem_append_right _ (.head _), other,
          List.mem_append_left _ inBefore, apart⟩

end Uplift.Scalar
