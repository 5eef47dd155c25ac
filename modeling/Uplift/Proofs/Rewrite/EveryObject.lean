import Uplift.Proofs.Rewrite.Amending
import Uplift.Proofs.Rewrite.ContentField
import Uplift.Proofs.Value.Leaves

/-!
# A rule on every object of a tree

The notes of such a treatment are those of the rule on the objects of the tree, one after the other.
A field that the rule spares leads to what became of its value, in every object and in the content.
-/

set_option autoImplicit false

namespace Uplift

/-- A change of another field. -/
def Edit.Spares {α : Type} (field : String) : Edit α → Prop
  | drop other | set other _ => other ≠ field
  | rename old new => old ≠ field ∧ new ≠ field

theorem Edit.lookup_apply {field : String} {edit : Edit Value} (spares : edit.Spares field)
    (entries : Entries Value) :
    Entries.lookup (.text field) (Edit.apply entries edit) = entries.lookup (.text field) := by
  have erased (other : String) (different : other ≠ field) :
      Entries.lookup (.text field) (Entries.erase (.text other) entries) =
        entries.lookup (.text field) := by
    have kept := Entries.lookup_filter_text (fun key => !(Scalar.text other).sameKey key) field
      entries
    rw [Entries.erase, kept, if_pos (by simpa using different)]
  cases edit with
  | drop other => exact erased other spares
  | set other value =>
      have different : other ≠ field := spares
      exact Entries.lookup_put_other _ _ (by simpa using different)
  | rename old new =>
      rw [apply]
      split
      · rfl
      · rw [Entries.lookup_put_other _ _ (by simpa using spares.2), erased old spares.1]

/-- An amendment by changes of other fields. -/
def Amendment.Spares (field : String) (amendment : Amendment) : Prop :=
  ∀ edit ∈ amendment.edits, edit.Spares field

theorem Amendment.lookup_apply {field : String} {amendment : Amendment}
    (spares : amendment.Spares field) (entries : Entries Value) :
    (amendment.apply entries).lookup (.text field) = entries.lookup (.text field) := by
  unfold Amendment.Spares at spares
  unfold Amendment.apply
  generalize amendment.edits = edits at spares
  induction edits generalizing entries with
  | nil => rfl
  | cons edit rest ih =>
      obtain ⟨first, others⟩ := List.forall_mem_cons.mp spares
      rw [List.foldl_cons, ih _ others, Edit.lookup_apply first]

namespace Rewrite

variable {rule : Entries Outline → Amendment} {entries : Entries Value}

theorem flatMap_amendObjectNotes (rule : Entries Outline → Amendment) (value : Value) :
    value.children.flatMap (amendObjectNotes rule) =
      value.childObjects.flatMap fun entries => (rule (outlines entries)).notes := by
  rw [Value.childObjects]
  induction value.children with
  | nil => rfl
  | cons child rest ih =>
      rw [List.flatMap_cons, ih]
      cases child <;> simp [amendObjectNotes]

/-- What becomes of the entries of an object. -/
def rewritten (rule : Entries Outline → Amendment) (entries : Entries Value) : Entries Value :=
  (rule (outlines entries)).apply (Entries.mapValues (amendObjects rule) entries)

theorem amendObjects_array (items : List Value) :
    amendObjects rule (.array items) = .array (items.map (amendObjects rule)) := by
  rw [amendObjects, amendItems_eq]

theorem amendObjects_object (entries : Entries Value) :
    amendObjects rule (.object entries) = .object (rewritten rule entries) := by
  rw [amendObjects, amendEntries_eq, rewritten]

theorem lookup_rewritten {field : String} (spares : (rule (outlines entries)).Spares field) :
    (rewritten rule entries).lookup (.text field) =
      (entries.lookup (.text field)).map (amendObjects rule) := by
  rw [rewritten, Amendment.lookup_apply spares, Entries.lookup_mapValues]

theorem contains_rewritten {field : String} (spares : (rule (outlines entries)).Spares field) :
    (rewritten rule entries).contains (.text field) = entries.contains (.text field) := by
  rw [Entries.contains_eq_isSome_lookup, Entries.contains_eq_isSome_lookup,
    lookup_rewritten spares, Option.isSome_map]

/-- What a rule makes of single objects holds of all objects that a tree has then, if the rule adds
none. -/
theorem forall_objects_amendObjects {holds image : Entries Value → Prop} {value : Value}
    (makes : ∀ entries, holds entries → image (rewritten rule entries))
    (moves : ∀ entries, holds entries → ∀ entry ∈ rewritten rule entries, entry.2.objects = [] ∨
      ∃ source ∈ entries, entry.2 = amendObjects rule source.2)
    (all : ∀ object ∈ value.objects, holds object) :
    ∀ object ∈ (amendObjects rule value).objects, image object := by
  induction value using Value.induction with
  | scalar scalar => exact nofun
  | array items ih =>
      rw [Value.forall_objects_array] at all
      rw [amendObjects_array, Value.forall_objects_array]
      exact List.forall_mem_map.mpr fun item member => ih item member (all item member)
  | object entries ih =>
      rw [Value.forall_objects_object] at all
      rw [amendObjects_object, Value.forall_objects_object]
      refine ⟨makes entries all.1, fun entry member => ?_⟩
      rcases moves entries all.1 entry member with none | ⟨source, sourceMember, same⟩
      · rw [none]
        exact nofun
      · rw [same]
        exact ih source sourceMember (all.2 source sourceMember)

/-- A tree stays as it is if the rule asks for no change in any of its objects. -/
theorem amendObjects_eq_self {value : Value}
    (quiet : ∀ object ∈ value.objects, (rule (outlines object)).edits = []) :
    amendObjects rule value = value := by
  induction value using Value.induction with
  | scalar scalar => rfl
  | array items ih =>
      rw [Value.forall_objects_array] at quiet
      have same : items.map (amendObjects rule) = items :=
        (List.map_congr_left fun item member => ih item member (quiet item member)).trans
          (List.map_id _)
      rw [amendObjects_array, same]
  | object entries ih =>
      rw [Value.forall_objects_object] at quiet
      have below : Entries.mapValues (amendObjects rule) entries = entries := by
        refine (List.map_congr_left fun entry member => ?_).trans (List.map_id _)
        rw [ih entry member (quiet.2 entry member)]
        rfl
      rw [amendObjects_object, rewritten, Amendment.apply_of_no_edits quiet.1, below]

/-- A field of the content is rewritten in its place, and none appears. -/
theorem contentField?_amendObjects {fields : FieldNames} {field : String}
    (content : ∀ entries, (rule entries).Spares fields.content)
    (spares : ∀ entries, (rule entries).Spares field) (document : Value) :
    contentField? fields field (amendObjects rule document) =
      (contentField? fields field document).map (amendObjects rule) := by
  cases document with
  | scalar value => rfl
  | array items => rfl
  | object root =>
      rw [amendObjects_object, contentField?, contentField?, lookup_rewritten (content _)]
      rcases Entries.lookup (.text fields.content) root with _ | scalar | items | inner
      · rfl
      · rfl
      · rfl
      · rw [Option.map_some, amendObjects_object]
        exact lookup_rewritten (spares _)

end Rewrite

end Uplift
