import Uplift.Engine
import Uplift.Proofs.Plan

/-!
# A legacy number stands for the versions up to it

A number is a declaration without gaps. Whoever asks it finds what a list of all versions from one
up to the number would tell, in whatever order the list has them and however often. Only the
versions above a bound are named in another way, by the number alone.
-/

set_option autoImplicit false

namespace Uplift

namespace Declaration

variable {one other : Declaration} {bound latest : Int} {versions : List Int}

/-- Both declarations have the same versions. -/
def SameMembers (one other : Declaration) : Prop :=
  ∀ version, one.contains version = other.contains version

theorem SameMembers.containsValue (same : one.SameMembers other) (value : Value) :
    one.containsValue value = other.containsValue value := by
  unfold Declaration.containsValue
  rw [funext same]

theorem SameMembers.restrictedTo (same : one.SameMembers other) (registered : List Int) :
    one.restrictedTo registered = other.restrictedTo registered := by
  unfold Declaration.restrictedTo
  rw [funext same]

theorem SameMembers.outstanding (same : one.SameMembers other) {δ : Type}
    (registry : Registry δ) : Plan.outstanding registry one = Plan.outstanding registry other := by
  unfold Plan.outstanding
  rw [List.filter_congr fun entry _ => congrArg not (same entry.1)]

theorem SameMembers.stamp (same : one.SameMembers other) {δ : Type} [Representation δ]
    (engine : Engine δ) (applied : List Int) (document : δ) :
    engine.stamp one applied document = engine.stamp other applied document := by
  unfold Engine.stamp
  rw [same.restrictedTo]

theorem maxVersion_explicit (member : bound ∈ versions)
    (largest : ∀ version ∈ versions, version ≤ bound) :
    (explicit versions).maxVersion = bound := by
  cases versions with
  | nil => cases member
  | cons first rest =>
      have found := List.max?_eq_some_iff.mpr ⟨member, largest⟩
      rw [List.max?_cons'] at found
      exact Option.some.inj found

theorem above_explicit_eq_nil (within : ∀ version ∈ versions, version ≤ latest) :
    (explicit versions).above latest = [] := by
  have none : versions.filter (latest < ·) = [] := by
    refine List.filter_eq_nil_iff.mpr fun version member => ?_
    have bounded := within version member
    simpa using bounded
  rw [above, none]
  rfl

theorem getLast?_above_explicit (member : bound ∈ versions)
    (largest : ∀ version ∈ versions, version ≤ bound) (behind : latest < bound) :
    ((explicit versions).above latest).getLast? = some bound := by
  rw [above, Ascending.getLast?_eq_some_iff (Ascending.pairwise_ofList _)]
  simp only [Ascending.mem_ofList, List.mem_filter, decide_eq_true_eq]
  exact ⟨⟨member, behind⟩, fun version listed => largest version listed.1⟩

/-- A list names the versions from one up to a bound, in any order and as often as it likes. -/
def Counts (bound : Int) (versions : List Int) : Prop :=
  ∀ version, version ∈ versions ↔ 1 ≤ version ∧ version ≤ bound

theorem Counts.sameMembers (counts : Counts bound versions) :
    (legacy bound).SameMembers (explicit versions) := by
  intro version
  rw [Bool.eq_iff_iff, contains, contains, List.contains_iff_mem, counts version, Bool.and_eq_true,
    decide_eq_true_eq, decide_eq_true_eq]

/-- One declaration may stand for the other: whoever asks about versions is told the same, and what
is declared above a bound ends in the same version. -/
structure StandsFor (one other : Declaration) : Prop where
  contains : ∀ version, one.contains version = other.contains version
  containsValue : ∀ value, one.containsValue value = other.containsValue value
  maxVersion : one.maxVersion = other.maxVersion
  restrictedTo : ∀ registered, one.restrictedTo registered = other.restrictedTo registered
  outstanding : ∀ {δ : Type} (registry : Registry δ),
    Plan.outstanding registry one = Plan.outstanding registry other
  written : ∀ {δ : Type} (registry : Registry δ),
    Listing.written (one.restrictedTo registry.versions ++
        (Plan.outstanding registry one).map (·.1)) =
      Listing.written (other.restrictedTo registry.versions ++
        (Plan.outstanding registry other).map (·.1))
  stamp : ∀ {δ : Type} [Representation δ] (engine : Engine δ) applied document,
    engine.stamp one applied document = engine.stamp other applied document
  above : ∀ latest, 0 ≤ latest →
    (one.above latest = [] ∧ other.above latest = []) ∨
      ((one.above latest).getLast? = some one.maxVersion ∧
        (other.above latest).getLast? = some one.maxVersion)

/-- A legacy number stands for any list of the versions from one up to it. -/
theorem legacy_standsFor (natural : 0 ≤ bound) (counts : Counts bound versions) :
    (legacy bound).StandsFor (explicit versions) := by
  have same := counts.sameMembers
  have largest : ∀ version ∈ versions, version ≤ bound := fun version listed =>
    ((counts version).mp listed).2
  have member (positive : 1 ≤ bound) : bound ∈ versions :=
    (counts bound).mpr ⟨positive, Int.le_refl bound⟩
  constructor
  case contains => exact same
  case containsValue => exact same.containsValue
  case maxVersion =>
    by_cases positive : 1 ≤ bound
    · exact (maxVersion_explicit (member positive) largest).symm
    · have none : versions = [] := by
        refine List.eq_nil_iff_forall_not_mem.mpr fun version listed => ?_
        have within := (counts version).mp listed
        omega
      have zero : bound = 0 := by omega
      rw [none, zero]
      rfl
  case restrictedTo => exact same.restrictedTo
  case outstanding => exact same.outstanding
  case written =>
    intro δ registry
    rw [same.restrictedTo, same.outstanding]
  case stamp => exact same.stamp
  case above =>
    intro latest known
    by_cases behind : latest < bound
    · refine .inr ⟨by simp [above, behind, maxVersion], ?_⟩
      exact getLast?_above_explicit (member (by omega)) largest behind
    · refine .inl ⟨by simp [above, behind], above_explicit_eq_nil fun version listed => ?_⟩
      have within := largest version listed
      omega

theorem legacy_standsFor_repeatedVersions :
    (legacy 3).StandsFor (explicit [3, 1, 2, 2]) ∧ (legacy 0).StandsFor (explicit []) := by
  have three : Counts 3 [3, 1, 2, 2] := by
    intro version
    simp only [List.mem_cons, List.not_mem_nil, or_false]
    omega
  have zero : Counts 0 [] := by
    intro version
    simp only [List.not_mem_nil, false_iff]
    omega
  exact ⟨legacy_standsFor (by decide) three, legacy_standsFor (by decide) zero⟩

end Declaration

end Uplift
