import Mathlib.Data.List.Perm.Basic
import Uplift.Proofs.Rewrite.EveryObject
import Uplift.Proofs.Value.Distinct

/-!
# Renamed fields

A field is renamed by moving its entry behind all others, unless the new name is taken; then nothing
moves. Either way an object has the old name only beside the new one, and its values are the ones it
had. So renaming in a whole tree keeps its leaves, and their number under any other name.
-/

set_option autoImplicit false

namespace Uplift

/-- An object has both names, so that neither can be given to the other's value. -/
def Rule.clashes (old new : String) (entries : Entries Value) : Bool :=
  entries.contains (.text old) && entries.contains (.text new)

/-- What the entries of an object are renamed to, when their values change as well. -/
inductive Rule.Renames (old new : String) (change : Value → Value) (entries : Entries Value) :
    Entries Value → Prop where
  | moved {rest : Entries Value} {value : Value} : entries.Perm (rest ++ [(.text old, value)]) →
      rest.contains (.text new) = false →
      Renames old new change entries (rest.mapValues change ++ [(.text new, change value)])
  | kept : (entries.contains (.text old) = true → entries.contains (.text new) = true) →
      Renames old new change entries (entries.mapValues change)

namespace Rule

variable {old new field stepId : String} {change : Value → Value} {value : Value}
  {entries renamed : Entries Value}

theorem spares_renameField (fromOther : old ≠ field) (toOther : new ≠ field) (stepId : String)
    (entries : Entries Outline) : (renameField old new stepId entries).Spares field := by
  unfold renameField
  split
  · exact nofun
  · split
    · exact nofun
    · intro edit member
      cases List.mem_singleton.mp member
      exact ⟨fromOther, toOther⟩

theorem notes_renameField (old new stepId : String) (entries : Entries Value) :
    (renameField old new stepId (Rewrite.outlines entries)).notes =
      if clashes old new entries then [.warning stepId ("Object already has field " ++ new)]
      else [] := by
  rw [renameField, clashes, Rewrite.contains_outlines, Rewrite.contains_outlines]
  generalize entries.contains (.text old) = hasOld
  generalize entries.contains (.text new) = hasNew
  cases hasOld <;> cases hasNew <;> rfl

/-- One warning for each object that has both names, and no other note. -/
theorem flatMap_notes_renameField (old new stepId : String) (objects : List (Entries Value)) :
    (objects.flatMap fun entries => (renameField old new stepId (Rewrite.outlines entries)).notes) =
      List.replicate (objects.countP (clashes old new))
        (.warning stepId ("Object already has field " ++ new)) := by
  induction objects with
  | nil => rfl
  | cons object rest ih =>
      rw [List.flatMap_cons, ih, notes_renameField, List.countP_cons]
      split <;> simp [List.replicate_succ]

/-- Nothing is moved unless the new name is free. -/
theorem edits_renameField (stepId : String)
    (both : entries.contains (.text old) = true → entries.contains (.text new) = true) :
    (renameField old new stepId (Rewrite.outlines entries)).edits = [] := by
  rw [renameField, Rewrite.contains_outlines, Rewrite.contains_outlines]
  cases present : entries.contains (.text old) with
  | false => rfl
  | true =>
      rw [both present]
      rfl

theorem apply_renameField_of_kept (stepId : String) (change : Value → Value)
    (both : entries.contains (.text old) = true → entries.contains (.text new) = true) :
    (renameField old new stepId (Rewrite.outlines entries)).apply (entries.mapValues change) =
      entries.mapValues change :=
  Amendment.apply_of_no_edits (edits_renameField stepId both) _

theorem apply_renameField_of_moved (stepId : String) (change : Value → Value)
    (found : entries.lookup (.text old) = some value)
    (free : entries.contains (.text new) = false) :
    (renameField old new stepId (Rewrite.outlines entries)).apply (entries.mapValues change) =
      (entries.erase (.text old)).mapValues change ++ [(.text new, change value)] := by
  have freeBeside : ((entries.erase (.text old)).mapValues change).contains (.text new) = false := by
    rw [Entries.contains_mapValues]
    exact Entries.not_contains_filter free
  have asked : renameField old new stepId (Rewrite.outlines entries) =
      .ofEdits [.rename old new] := by
    rw [renameField, Rewrite.contains_outlines, Rewrite.contains_outlines,
      Entries.contains_of_lookup found, free]
    rfl
  rw [asked, ← Entries.put_of_not_contains freeBeside, ← Entries.erase_mapValues]
  change Edit.apply (entries.mapValues change) (.rename old new) = _
  rw [Edit.apply, Entries.lookup_mapValues, found]
  rfl

/-- Where the field is moved, the old name is gone. -/
theorem not_contains_moved (stepId : String) (change : Value → Value)
    (found : entries.lookup (.text old) = some value)
    (free : entries.contains (.text new) = false) :
    ((renameField old new stepId (Rewrite.outlines entries)).apply
      (entries.mapValues change)).contains (.text old) = false := by
  have different : (Scalar.text old).sameKey (.text new) = false := by
    rw [Bool.eq_false_iff, ne_eq, Scalar.sameKey_text_iff]
    intro same
    rw [← same, Entries.contains_of_lookup found] at free
    cases free
  have beside : ((entries.erase (.text old)).mapValues change).contains (.text old) = false := by
    rw [Entries.contains_mapValues, ← Entries.lookup_eq_none_iff, Entries.lookup_erase_same]
  rw [apply_renameField_of_moved stepId change found free]
  unfold Entries.contains at beside ⊢
  rw [List.any_append, beside]
  simp [different]

/-- An object has the old name without the new one, or nothing is moved in it. -/
theorem moved_or_kept (old new : String) (entries : Entries Value) :
    (∃ value, entries.lookup (.text old) = some value ∧ entries.contains (.text new) = false) ∨
      (entries.contains (.text old) = true → entries.contains (.text new) = true) := by
  rw [Entries.contains_eq_isSome_lookup (.text old)]
  cases entries.lookup (.text old) with
  | none => exact .inr nofun
  | some value =>
      cases entries.contains (.text new) with
      | false => exact .inl ⟨value, rfl, rfl⟩
      | true => exact .inr fun _ => rfl

theorem renames (old new stepId : String) (change : Value → Value)
    (distinct : entries.DistinctKeys) :
    Renames old new change entries
      ((renameField old new stepId (Rewrite.outlines entries)).apply
        (entries.mapValues change)) := by
  rcases moved_or_kept old new entries with ⟨value, found, free⟩ | both
  · rw [apply_renameField_of_moved stepId change found free]
    exact .moved (distinct.perm_erase found) (Entries.not_contains_filter free)
  · rw [apply_renameField_of_kept stepId change both]
    exact .kept both

namespace Renames

theorem contains (renames : Renames old new change entries renamed)
    (present : renamed.contains (.text old) = true) : renamed.contains (.text new) = true := by
  cases renames with
  | moved _ _ => simp [Entries.contains]
  | kept both =>
      rw [Entries.contains_mapValues] at present ⊢
      exact both present

theorem keys_of_absent (renames : Renames old new change entries renamed)
    (absent : entries.contains (.text old) = false) :
    renamed.map (·.1) = entries.map (·.1) := by
  cases renames with
  | @moved rest value perm free =>
      have member : (Scalar.text old, value) ∈ entries := by simp [perm.mem_iff]
      rw [Bool.eq_false_iff, ne_eq, Entries.contains_iff] at absent
      exact absurd (List.mem_map_of_mem member) absent
  | kept _ => exact Entries.keys_mapValues change entries

theorem distinctKeys (renames : Renames old new change entries renamed)
    (distinct : entries.DistinctKeys) : renamed.DistinctKeys := by
  cases renames with
  | @moved rest value perm free =>
      rw [← Entries.contains_mapValues change] at free
      rw [← Entries.put_of_not_contains free]
      have beside : rest.DistinctKeys :=
        List.Nodup.sublist ((List.sublist_append_left rest _).map _) (distinct.perm perm)
      exact Entries.DistinctKeys.put (beside.of_keys (Entries.keys_mapValues change rest).symm) _ _
  | kept _ => exact distinct.of_keys (Entries.keys_mapValues change entries).symm

/-- What is made of the entries of a renamed object is, up to the order, what is made of those it
had, if it makes no difference which of the two names a value has. -/
theorem flatMap_perm {α : Type} (renames : Renames old new change entries renamed)
    {make otherMake : Scalar × Value → List α}
    (makes : ∀ entry ∈ entries, (make (entry.1, change entry.2)).Perm (otherMake entry))
    (moves : ∀ value, make (.text new, value) = make (.text old, value)) :
    (renamed.flatMap make).Perm (entries.flatMap otherMake) := by
  have kept : ((entries.mapValues change).flatMap make).Perm (entries.flatMap otherMake) := by
    rw [Entries.mapValues, List.flatMap_map]
    exact List.Perm.flatMap_left entries makes
  cases renames with
  | @moved rest value perm free =>
      have named : (rest.mapValues change ++ [(Scalar.text new, change value)]).flatMap make =
          (Entries.mapValues change (rest ++ [(Scalar.text old, value)])).flatMap make := by
        simp [Entries.mapValues, moves]
      rw [named]
      exact ((perm.symm.map _).flatMap_right make).trans kept
  | kept _ => exact kept

/-- The values of a renamed object are what the values it had are changed to. -/
theorem exists_source (renames : Renames old new change entries renamed) {entry : Scalar × Value}
    (member : entry ∈ renamed) : ∃ source ∈ entries, entry.2 = change source.2 := by
  have values : (renamed.flatMap fun entry => [entry.2]).Perm
      (entries.flatMap fun entry => [change entry.2]) :=
    renames.flatMap_perm (fun _ _ => .refl _) fun _ => rfl
  have found : entry.2 ∈ renamed.flatMap fun entry => [entry.2] :=
    List.mem_flatMap.mpr ⟨entry, member, List.mem_singleton_self _⟩
  rw [values.mem_iff] at found
  simpa using found

end Renames

end Rule

namespace Rewrite

variable {old new stepId : String} {value : Value} {entries : Entries Value} {α : Type}

theorem renames_rewritten (old new stepId : String) (distinct : entries.DistinctKeys) :
    Rule.Renames old new (amendObjects (Rule.renameField old new stepId)) entries
      (rewritten (Rule.renameField old new stepId) entries) :=
  Rule.renames old new stepId _ distinct

/-- No object of a tree that is renamed has the old name without the new one, and none has a name
twice. -/
theorem forall_objects_renamed (distinct : value.DistinctKeys) :
    ∀ object ∈ (amendObjects (Rule.renameField old new stepId) value).objects,
      object.DistinctKeys ∧
        (object.contains (.text old) = true → object.contains (.text new) = true) := by
  refine forall_objects_amendObjects (fun entries own => ?_) (fun entries own entry member => ?_)
    (Value.distinctKeys_iff_objects.mp distinct)
  · have renames := renames_rewritten old new stepId own
    exact ⟨renames.distinctKeys own, renames.contains⟩
  · exact .inr ((renames_rewritten old new stepId own).exists_source member)

/-- As many objects of a tree are of some kind as were, if renaming does not change the kind of
one. -/
theorem countP_objects_renamed {kind : Entries Value → Bool}
    (same : ∀ entries, kind (rewritten (Rule.renameField old new stepId) entries) = kind entries)
    (distinct : value.DistinctKeys) :
    (amendObjects (Rule.renameField old new stepId) value).objects.countP kind =
      value.objects.countP kind := by
  induction value using Value.induction with
  | scalar scalar => rfl
  | array items ih =>
      rw [Value.DistinctKeys.array_iff] at distinct
      rw [amendObjects_array, Value.objects_array, Value.objects_array, List.flatMap_map,
        List.countP_flatMap, List.countP_flatMap]
      exact congrArg List.sum (List.map_congr_left fun item member =>
        ih item member (distinct item member))
  | object entries ih =>
      obtain ⟨own, below⟩ := Value.DistinctKeys.object_iff.mp distinct
      have values : ((rewritten (Rule.renameField old new stepId) entries).flatMap
            fun entry => entry.2.objects).Perm
          (entries.flatMap fun entry =>
            (amendObjects (Rule.renameField old new stepId) entry.2).objects) :=
        (renames_rewritten old new stepId own).flatMap_perm (fun _ _ => .refl _) fun _ => rfl
      rw [amendObjects_object, Value.objects_object, Value.objects_object, List.countP_cons,
        List.countP_cons, same, values.countP_eq, List.countP_flatMap, List.countP_flatMap]
      refine congrArg (· + _) (congrArg List.sum (List.map_congr_left fun entry member => ?_))
      exact ih entry member (below entry member)

/-- A tree has the leaves it had, if it makes no difference which of the two names they are under. -/
theorem leavesUnder_renamed_perm {view : Option Scalar × Scalar → α}
    (moves : ∀ leaf, view (some (.text new), leaf) = view (some (.text old), leaf))
    (distinct : value.DistinctKeys) (key : Option Scalar) :
    (((amendObjects (Rule.renameField old new stepId) value).leavesUnder key).map view).Perm
      ((value.leavesUnder key).map view) := by
  induction value using Value.induction generalizing key with
  | scalar scalar => exact .refl _
  | array items ih =>
      rw [amendObjects_array, Value.leavesUnder_array, Value.leavesUnder_array, List.map_flatMap,
        List.map_flatMap, List.flatMap_map]
      exact List.Perm.flatMap_left items fun item member =>
        ih item member (Value.DistinctKeys.array_iff.mp distinct item member) none
  | object entries ih =>
      obtain ⟨own, below⟩ := Value.DistinctKeys.object_iff.mp distinct
      rw [amendObjects_object, Value.leavesUnder_object, Value.leavesUnder_object,
        List.map_flatMap, List.map_flatMap]
      refine (renames_rewritten old new stepId own).flatMap_perm (fun entry member => ?_) fun value => ?_
      · exact ih entry member (below entry member) (some entry.1)
      · cases value with
        | scalar leaf => simp [Value.leavesUnder, moves]
        | array items => rw [Value.leavesUnder_array, Value.leavesUnder_array]
        | object entries => rw [Value.leavesUnder_object, Value.leavesUnder_object]

/-- Directly below a tree there is what becomes of what was there. -/
theorem children_renamed_perm (make : Value → List α) (distinct : value.DistinctKeys) :
    ((amendObjects (Rule.renameField old new stepId) value).children.flatMap make).Perm
      (value.children.flatMap fun child =>
        make (amendObjects (Rule.renameField old new stepId) child)) := by
  cases value with
  | scalar scalar => exact .nil
  | array items =>
      rw [amendObjects_array, Value.children, Value.children, List.flatMap_map]
  | object entries =>
      obtain ⟨own, _⟩ := Value.DistinctKeys.object_iff.mp distinct
      rw [amendObjects_object, Value.children, Value.children, List.flatMap_map, List.flatMap_map]
      exact (renames_rewritten old new stepId own).flatMap_perm (fun _ _ => .refl _) fun _ => rfl

/-- Renaming in one object alone, with the values as they are. -/
theorem exists_amendObject (old new stepId : String) (distinct : entries.DistinctKeys) :
    ∃ renamed : Entries Value, amendObject (Rule.renameField old new stepId) (.object entries) =
      .object renamed ∧ Rule.Renames old new id entries renamed ∧
        ∀ field, old ≠ field → new ≠ field →
          renamed.lookup (.text field) = entries.lookup (.text field) := by
  have same : entries.mapValues id = entries := List.map_id _
  have renames := Rule.renames old new stepId id distinct
  rw [same] at renames
  exact ⟨_, rfl, renames, fun field fromOther toOther =>
    Amendment.lookup_apply (Rule.spares_renameField fromOther toOther _ _) entries⟩

end Rewrite

end Uplift
