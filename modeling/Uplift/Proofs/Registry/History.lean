import Mathlib.Data.List.Induction
import Uplift.Proofs.Registry

/-!
# Registries over any history

A registry comes about by calls that add a step or close it, in any order and whether they are
refused or not. Every call keeps the registry valid, a step that was once added stays where it is,
and a closed registry does not change any more. So the history alone says which step stands under
which version, and which steps will be taken.
-/

set_option autoImplicit false

namespace Uplift

variable {δ : Type}

theorem twoTo_pos (exponent : Nat) : 0 < twoTo exponent :=
  Nat.pow_pos (by decide)

theorem Scalar.sameKey_int (one other : Int) :
    sameKey (.int one) (.int other) = decide (one = other) := by
  have positive : 0 < ((twoTo 1074 : Nat) : Int) := Int.natCast_pos.mpr (twoTo_pos 1074)
  have steps : Binary64.stepsOfInt one = Binary64.stepsOfInt other ↔ one = other :=
    Int.mul_eq_mul_right_iff (Int.ne_of_gt positive)
  simp only [sameKey, key, Key.number.injEq, steps]

theorem Step.number?_eq_some_iff {step : Step δ} {version : Int} :
    step.number? = some version ↔ step.version = some (.int version) ∧ 0 < version := by
  constructor
  · intro declared
    have positive := number?_pos declared
    unfold number? at declared
    split at declared
    · rename_i number same
      split at declared
      · cases declared
        exact ⟨same, positive⟩
      · cases declared
    · cases declared
  · rintro ⟨declared, positive⟩
    rw [number?, declared]
    exact if_pos positive

namespace Registry

variable {registry added : Registry δ} {step : Step δ} {version : Int} {calls : List (Call δ)}

theorem get_int (registry : Registry δ) (version : Int) :
    registry.get (.int version) =
      match registry.step? version with
      | some step => .ok step
      | none => .error (.missingKey (toString version)) := by
  have same : (fun entry : Int × Step δ => (Scalar.int version).sameKey (.int entry.1)) =
      fun entry => decide (entry.1 = version) := by
    funext entry
    rw [Scalar.sameKey_int]
    exact decide_eq_decide.mpr eq_comm
  have found : registry.find? (.int version) = .ok (registry.step? version) := by
    unfold find? step?
    rw [← same]
  unfold get
  rw [found]
  cases registry.step? version <;> rfl

/-!
## Calls
-/

theorem after_add_of_ok (accepted : registry.add step = .ok added) :
    registry.after (.add step) = added := by
  simp only [after, answer, accepted]

theorem after_add_of_error {error : RegistryError} (refused : registry.add step = .error error) :
    registry.after (.add step) = registry := by
  simp only [after, answer, refused]

theorem Valid.after (valid : registry.Valid) (call : Call δ) : (registry.after call).Valid := by
  cases call with
  | close => exact ⟨valid.declared, valid.distinct⟩
  | add step =>
      cases result : registry.add step with
      | error error =>
          rw [after_add_of_error result]
          exact valid
      | ok added =>
          rw [after_add_of_ok result]
          exact valid.add result

/-- A step that is added stands under its version, where none stood before. -/
theorem step?_of_add (accepted : registry.add step = .ok added)
    (declared : step.version = some (.int version)) :
    registry.step? version = none ∧ added.step? version = some step := by
  obtain ⟨_, number, numbered, fresh, rfl⟩ := add_eq_ok_iff.mp accepted
  cases declared.symm.trans (Step.number?_eq_some_iff.mp numbered).1
  have free := step?_eq_none_iff.mpr fresh
  refine ⟨free, ?_⟩
  unfold step? at free ⊢
  rw [List.find?_append, Option.map_eq_none_iff.mp free]
  simp

/-- A step that stands under a version stands there after any call. -/
theorem step?_after (found : registry.step? version = some step) (call : Call δ) :
    (registry.after call).step? version = some step := by
  cases call with
  | close => exact found
  | add other =>
      cases result : registry.add other with
      | error error =>
          rw [after_add_of_error result]
          exact found
      | ok added =>
          obtain ⟨_, number, _, _, rfl⟩ := add_eq_ok_iff.mp result
          obtain ⟨entry, located, stored⟩ := Option.map_eq_some_iff.mp found
          rw [after_add_of_ok result, step?, List.find?_append, located, Option.some_or,
            Option.map_some, stored]

/-- A step that stands under a version after a call, and not before, was added by the call. -/
theorem add_of_step?_after {call : Call δ} (absent : registry.step? version = none)
    (found : (registry.after call).step? version = some step) :
    call = .add step ∧ step.version = some (.int version) ∧
      ∃ added, registry.add step = .ok added := by
  cases call with
  | close => exact absurd (absent.symm.trans found) nofun
  | add other =>
      cases result : registry.add other with
      | error error =>
          rw [after_add_of_error result, absent] at found
          cases found
      | ok added =>
          obtain ⟨_, number, numbered, _, made⟩ := add_eq_ok_iff.mp result
          have declared := (Step.number?_eq_some_iff.mp numbered).1
          rw [after_add_of_ok result] at found
          rw [made, step?, List.find?_append, Option.map_eq_none_iff.mp absent, Option.none_or,
            List.find?_singleton] at found
          split at found
          · rename_i same
            cases of_decide_eq_true same
            cases found
            exact ⟨rfl, declared, added, result⟩
          · cases found

theorem after_of_isSealed (closed : registry.isSealed = true) (call : Call δ) :
    registry.after call = registry := by
  cases call with
  | add step =>
      have refused : registry.add step = .error .sealed := if_pos closed
      exact after_add_of_error refused
  | close =>
      obtain ⟨steps, isSealed⟩ := registry
      cases closed
      rfl

theorem isSealed_after_iff {call : Call δ} :
    (registry.after call).isSealed = true ↔ registry.isSealed = true ∨ call = .close := by
  cases call with
  | close => simp [after, answer, close]
  | add step =>
      cases result : registry.add step with
      | error error => simp [after_add_of_error result]
      | ok added =>
          obtain ⟨_, _, _, _, rfl⟩ := add_eq_ok_iff.mp result
          simp [after_add_of_ok result]

/-!
## Histories
-/

theorem ofCalls_append (calls more : List (Call δ)) :
    ofCalls (calls ++ more) = more.foldl after (ofCalls calls) :=
  List.foldl_append

theorem ofCalls_concat (calls : List (Call δ)) (call : Call δ) :
    ofCalls (calls ++ [call]) = (ofCalls calls).after call :=
  ofCalls_append calls [call]

theorem valid_ofCalls (calls : List (Call δ)) : (ofCalls calls).Valid := by
  induction calls using List.reverseRecOn with
  | nil => exact .empty
  | append_singleton calls call ih =>
      rw [ofCalls_concat]
      exact ih.after call

theorem isSealed_ofCalls_iff : (ofCalls calls).isSealed = true ↔ .close ∈ calls := by
  induction calls using List.reverseRecOn with
  | nil => simp [ofCalls, empty]
  | append_singleton calls call ih =>
      rw [ofCalls_concat, isSealed_after_iff, ih, List.mem_append, List.mem_singleton,
        eq_comm (a := call)]

/-- A step that stands under a version stands there however the history goes on. -/
theorem step?_ofCalls_append (found : (ofCalls calls).step? version = some step)
    (more : List (Call δ)) : (ofCalls (calls ++ more)).step? version = some step := by
  induction more using List.reverseRecOn with
  | nil => rwa [List.append_nil]
  | append_singleton more call ih =>
      rw [← List.append_assoc, ofCalls_concat]
      exact step?_after ih call

theorem ofCalls_append_of_close (closed : .close ∈ calls) (more : List (Call δ)) :
    ofCalls (calls ++ more) = ofCalls calls := by
  induction more using List.reverseRecOn with
  | nil => rw [List.append_nil]
  | append_singleton more call ih =>
      rw [← List.append_assoc, ofCalls_concat, ih]
      exact after_of_isSealed (isSealed_ofCalls_iff.mpr closed) call

/-- A step is taken under a version by the call that comes next. -/
def Adds (before : List (Call δ)) (version : Int) (step : Step δ) : Prop :=
  step.version = some (.int version) ∧ ∃ added, (ofCalls before).add step = .ok added

/-- Of all calls that add a step under a version the first one adds this step. -/
def FirstAdds (calls : List (Call δ)) (version : Int) (step : Step δ) : Prop :=
  ∃ before later, calls = before ++ .add step :: later ∧ Adds before version step ∧
    ∀ earlier other rest, before = earlier ++ .add other :: rest → ¬ Adds earlier version other

theorem step?_of_adds {later : List (Call δ)} (adds : Adds calls version step) :
    (ofCalls calls).step? version = none ∧
      (ofCalls (calls ++ .add step :: later)).step? version = some step := by
  obtain ⟨declared, added, accepted⟩ := adds
  obtain ⟨absent, found⟩ := step?_of_add accepted declared
  refine ⟨absent, ?_⟩
  rw [List.append_cons]
  refine step?_ofCalls_append ?_ later
  rw [ofCalls_concat, after_add_of_ok accepted]
  exact found

/-- A step stands under a version exactly if it was the first that was added under it. -/
theorem step?_ofCalls_iff : (ofCalls calls).step? version = some step ↔
    FirstAdds calls version step := by
  constructor
  · intro found
    induction calls using List.reverseRecOn with
    | nil => cases found
    | append_singleton calls call ih =>
        cases present : (ofCalls calls).step? version with
        | some other =>
            have kept := step?_ofCalls_append present [call]
            cases kept.symm.trans found
            obtain ⟨before, later, rfl, first⟩ := ih present
            exact ⟨before, later ++ [call], by simp, first⟩
        | none =>
            rw [ofCalls_concat] at found
            obtain ⟨rfl, declared, accepted⟩ := add_of_step?_after present found
            refine ⟨calls, [], rfl, ⟨declared, accepted⟩, ?_⟩
            rintro earlier other rest rfl adds
            exact absurd (present.symm.trans (step?_of_adds adds).2) nofun
  · rintro ⟨before, later, rfl, adds, _⟩
    exact (step?_of_adds adds).2

/-!
## What a registry tells
-/

theorem Valid.length_versions (valid : registry.Valid) :
    registry.versions.length = registry.size := by
  have ascending : registry.versions.Nodup :=
    registry.pairwise_versions.imp fun less => Int.ne_of_lt less
  have same : registry.versions.Perm (registry.steps.map (·.1)) :=
    (List.perm_ext_iff_of_nodup ascending valid.distinct).mpr fun _ => mem_versions
  rw [same.length_eq, List.length_map, size]

theorem latest?_eq_some_iff : registry.latest? = some version ↔
    version ∈ registry.versions ∧ ∀ other ∈ registry.versions, other ≤ version :=
  Ascending.getLast?_eq_some_iff registry.pairwise_versions

theorem Valid.version_of_mem_ordered (valid : registry.Valid) {entry : Int × Step δ}
    (member : entry ∈ registry.ordered) : entry.2.version = some (.int entry.1) := by
  obtain ⟨stored, located, same⟩ := Option.map_eq_some_iff.mp (step?_of_mem_ordered member)
  have declared := valid.declared stored (List.mem_of_find?_eq_some located)
  have place : stored.1 = entry.1 := by simpa using List.find?_some located
  rw [place, same] at declared
  exact (Step.number?_eq_some_iff.mp declared).1

theorem exists_add_iff : (∃ added, registry.add step = .ok added) ↔
    registry.isSealed = false ∧ ∃ version, step.version = some (.int version) ∧ 0 < version ∧
      version ∉ registry.versions := by
  simp only [add_eq_ok_iff, Step.number?_eq_some_iff, mem_versions]
  constructor
  · rintro ⟨_, unsealed, version, ⟨declared, positive⟩, fresh, _⟩
    exact ⟨unsealed, version, declared, positive, fresh⟩
  · rintro ⟨unsealed, version, declared, positive, fresh⟩
    exact ⟨_, unsealed, version, ⟨declared, positive⟩, fresh, rfl⟩

/-- What a registry tells and takes after some calls, and what it is made of. -/
structure Follows (calls : List (Call δ)) (registry : Registry δ) : Prop where
  ascending : registry.versions.Pairwise (· < ·)
  positive : ∀ version ∈ registry.versions, 0 < version
  /-- There is one step for each version, in order, and it declares the version. -/
  listed : registry.ordered.map (·.1) = registry.versions
  declared : ∀ entry ∈ registry.ordered, entry.2.version = some (.int entry.1)
  found : ∀ version step, registry.get (.int version) = .ok step ↔ FirstAdds calls version step
  missing : ∀ version, registry.get (.int version) = .error (.missingKey (toString version)) ↔
    version ∉ registry.versions
  size : registry.size = registry.versions.length
  latest : ∀ version, registry.latest? = some version ↔
    version ∈ registry.versions ∧ ∀ other ∈ registry.versions, other ≤ version
  noLatest : registry.latest? = none ↔ registry.versions = []
  closing : registry.isSealed = true ↔ .close ∈ calls
  takes : ∀ step, (∃ added, registry.add step = .ok added) ↔
    registry.isSealed = false ∧ ∃ version, step.version = some (.int version) ∧ 0 < version ∧
      version ∉ registry.versions
  /-- A call that is refused changes nothing. -/
  refuses : ∀ step error, registry.add step = .error error → registry.after (.add step) = registry
  /-- Nothing changes a registry that was closed. -/
  closed : .close ∈ calls → ∀ more, ofCalls (calls ++ more) = registry

/-- Whatever calls were made, the registry follows them. -/
theorem follows_ofCalls (calls : List (Call δ)) : Follows calls (ofCalls calls) := by
  have valid := valid_ofCalls calls
  constructor
  case ascending => exact pairwise_versions _
  case positive => exact fun version registered => valid.versions_pos registered
  case listed => exact map_fst_ordered _
  case declared => exact fun entry member => valid.version_of_mem_ordered member
  case found =>
    intro version step
    rw [← step?_ofCalls_iff, get_int]
    cases (ofCalls calls).step? version <;> simp
  case missing =>
    intro version
    rw [mem_versions, ← step?_eq_none_iff, get_int]
    cases (ofCalls calls).step? version <;> simp
  case size => exact valid.length_versions.symm
  case latest => exact fun version => latest?_eq_some_iff
  case noLatest => exact List.getLast?_eq_none_iff
  case closing => exact isSealed_ofCalls_iff
  case takes => exact fun step => exists_add_iff
  case refuses => exact fun step error refused => after_add_of_error refused
  case closed => exact fun closed more => ofCalls_append_of_close closed more

end Registry

end Uplift
