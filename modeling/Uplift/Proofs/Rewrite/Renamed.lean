import Uplift.Proofs.Rewrite.Renaming

/-!
# What renaming makes of a tree

Throughout a tree a field is renamed in each object that has the old name alone. Its entry goes to
the end, and what it holds is renamed as well. An object that has both names stays as it is, and one
warning tells of it. So after a renaming no field is left that could be renamed, and to rename once
more changes nothing and warns of the same objects.
-/

set_option autoImplicit false

namespace Uplift

/-- A tree becomes another one by renaming fields throughout. -/
inductive Value.Renamed (old new : String) : Value → Value → Prop where
  | scalar (value : Scalar) : Renamed old new (.scalar value) (.scalar value)
  | array {items others : List Value} : List.Forall₂ (Renamed old new) items others →
      Renamed old new (.array items) (.array others)
  /-- The entry with the old name comes last under the new one, and nothing has the old name. -/
  | moved {front back others : Entries Value} {value renamed : Value} :
      Entries.contains (.text new) (front ++ (.text old, value) :: back) = false →
      Entries.contains (.text old) (others ++ [(.text new, renamed)]) = false →
      (front ++ back).map (·.1) = others.map (·.1) →
      List.Forall₂ (Renamed old new) ((front ++ back).map (·.2)) (others.map (·.2)) →
      Renamed old new value renamed →
      Renamed old new (.object (front ++ (.text old, value) :: back))
        (.object (others ++ [(.text new, renamed)]))
  /-- An object with both names, or without the old one, has the keys it had in their order. -/
  | kept {entries others : Entries Value} :
      (entries.contains (.text old) = true → entries.contains (.text new) = true) →
      entries.map (·.1) = others.map (·.1) →
      List.Forall₂ (Renamed old new) (entries.map (·.2)) (others.map (·.2)) →
      Renamed old new (.object entries) (.object others)

namespace Rewrite

variable {old new stepId : String} {value : Value} {entries : Entries Value}

/-!
## The tree
-/

theorem renamed_amendObjects (old new stepId : String) (value : Value)
    (distinct : value.DistinctKeys) :
    value.Renamed old new (amendObjects (Rule.renameField old new stepId) value) := by
  induction value using Value.induction with
  | scalar scalar => exact .scalar scalar
  | array items ih =>
      rw [Value.DistinctKeys.array_iff] at distinct
      rw [amendObjects_array]
      refine .array ?_
      rw [List.forall₂_map_right_iff, List.forall₂_same]
      exact fun item member => ih item member (distinct item member)
  | object entries ih =>
      obtain ⟨own, below⟩ := Value.DistinctKeys.object_iff.mp distinct
      have each : ∀ entry ∈ entries, entry.2.Renamed old new
          (amendObjects (Rule.renameField old new stepId) entry.2) :=
        fun entry member => ih entry member (below entry member)
      rw [amendObjects_object, rewritten]
      rcases Rule.moved_or_kept old new entries with ⟨value, found, free⟩ | both
      · have gone := Rule.not_contains_moved stepId
          (amendObjects (Rule.renameField old new stepId)) found free
        rw [Rule.apply_renameField_of_moved stepId _ found free] at gone ⊢
        obtain ⟨front, back, rfl⟩ := List.append_of_mem (Entries.mem_of_lookup_text found)
        rw [own.erase_middle] at gone ⊢
        have beside : ∀ entry ∈ front ++ back, entry ∈ front ++ (.text old, value) :: back :=
          fun entry member => List.perm_middle.mem_iff.mpr (.tail _ member)
        exact .moved free gone (Entries.keys_mapValues _ _).symm
          (Entries.forall₂_values_mapValues fun entry member => each entry (beside entry member))
          (each (.text old, value) (List.mem_append_right _ (.head _)))
      · rw [Rule.apply_renameField_of_kept stepId _ both]
        exact .kept both (Entries.keys_mapValues _ _).symm (Entries.forall₂_values_mapValues each)

/-!
## The warnings
-/

/-- An object has both names after a renaming exactly if it had both before. -/
theorem clashes_rewritten (entries : Entries Value) :
    Rule.clashes old new (rewritten (Rule.renameField old new stepId) entries) =
      Rule.clashes old new entries := by
  rcases Rule.moved_or_kept old new entries with ⟨value, found, free⟩ | both
  · unfold Rule.clashes
    rw [rewritten, Rule.not_contains_moved stepId _ found free, free, Bool.false_and,
      Bool.and_false]
  · unfold Rule.clashes
    rw [rewritten, Rule.apply_renameField_of_kept stepId _ both, Entries.contains_mapValues,
      Entries.contains_mapValues]

theorem countP_clashes_amendObjects (distinct : value.DistinctKeys) :
    (amendObjects (Rule.renameField old new stepId) value).objects.countP (Rule.clashes old new) =
      value.objects.countP (Rule.clashes old new) :=
  countP_objects_renamed clashes_rewritten distinct

/-!
## Renaming throughout a tree
-/

/-- What a tree is renamed to, and the warnings that are given, when fields are renamed throughout
it. -/
structure RenamesThroughout (old new : String) (value renamed : Value) (told : List Note) :
    Prop where
  shape : value.Renamed old new renamed
  distinct : renamed.DistinctKeys
  /-- Nothing is left to be renamed. -/
  settled : ∀ object ∈ renamed.objects,
    object.contains (.text old) = true → object.contains (.text new) = true
  /-- One warning for each object that has both names. -/
  notes : told = List.replicate (value.objects.countP (Rule.clashes old new))
    (.warning "" ("Object already has field " ++ new))
  again : renameField old new true renamed = ⟨told, .ok renamed⟩

/-- To rename a field throughout a tree never fails. -/
theorem renameField_eq (old new : String) (value : Value) :
    renameField old new true value =
      ⟨List.replicate (value.objects.countP (Rule.clashes old new))
          (.warning "" ("Object already has field " ++ new)),
        .ok (amendObjects (Rule.renameField old new "") value)⟩ := by
  rw [← Rule.flatMap_notes_renameField]
  exact everyObject_eq_of_ok fun _ _ => rfl

theorem renamesThroughout_renameField (old new : String) (distinct : value.DistinctKeys) :
    ∃ renamed told, renameField old new true value = ⟨told, .ok renamed⟩ ∧
      RenamesThroughout old new value renamed told := by
  have objects : ∀ object ∈ (amendObjects (Rule.renameField old new "") value).objects,
      object.DistinctKeys ∧
        (object.contains (.text old) = true → object.contains (.text new) = true) :=
    forall_objects_renamed distinct
  have settled : amendObjects (Rule.renameField old new "")
      (amendObjects (Rule.renameField old new "") value) =
        amendObjects (Rule.renameField old new "") value :=
    amendObjects_eq_self fun object member =>
      Rule.edits_renameField "" (objects object member).2
  refine ⟨_, _, renameField_eq old new value, renamed_amendObjects old new "" value distinct, ?_,
    fun object member => (objects object member).2, rfl, ?_⟩
  · exact Value.distinctKeys_iff_objects.mpr fun object member => (objects object member).1
  · rw [renameField_eq, settled, countP_clashes_amendObjects distinct]

/-- A tree with the old name above and below itself, alone and beside the new one. -/
def nested : Value :=
  .object [(.text "old", .object [(.text "old", .int 1), (.text "size", .int 2)]),
    (.text "items", .array [.object [(.text "old", .null), (.text "new", .text "kept")],
      .object [(.text "old", .array [])]])]

def nestedAfter : Value :=
  .object [(.text "items", .array [.object [(.text "old", .null), (.text "new", .text "kept")],
      .object [(.text "new", .array [])]]),
    (.text "new", .object [(.text "size", .int 2), (.text "new", .int 1)])]

theorem renamesThroughout_renameField_nested : nested.DistinctKeys ∧
    renameField "old" "new" true nested =
      ⟨[.warning "" "Object already has field new"], .ok nestedAfter⟩ ∧
    RenamesThroughout "old" "new" nested nestedAfter
      [.warning "" "Object already has field new"] := by
  have distinct : nested.DistinctKeys := by
    simp [nested, Entries.DistinctKeys, Scalar.key]
  have done : renameField "old" "new" true nested =
      ⟨[.warning "" "Object already has field new"], .ok nestedAfter⟩ := rfl
  obtain ⟨renamed, told, same, renames⟩ := renamesThroughout_renameField "old" "new" distinct
  cases done.symm.trans same
  exact ⟨distinct, done, renames⟩

end Rewrite

end Uplift
