import Mathlib.Data.List.Perm.Subperm
import Uplift.Proofs.Value.Distinct
import Uplift.Rewrite.Rule

/-!
# Edits of entries

An edit moves values without looking at them, so it does the same to entries of any representation.
Apart from the value that it may bring along, each value it leaves is one that was there, and none is
left twice.
-/

set_option autoImplicit false

namespace Uplift

variable {α β : Type}

namespace Entries

variable {entries : Entries α}

theorem put_mapValues (change : α → β) (key : Scalar) (value : α) (entries : Entries α) :
    (entries.put key value).mapValues change = (entries.mapValues change).put key (change value) := by
  unfold put
  rw [contains_mapValues]
  split
  · rw [mapValues, mapValues, List.map_map, List.map_map]
    refine List.map_congr_left fun entry _ => ?_
    simp only [Function.comp_apply]
    split <;> rfl
  · exact List.map_append

theorem DistinctKeys.erase (distinct : entries.DistinctKeys) (key : Scalar) :
    (entries.erase key).DistinctKeys :=
  distinct.filter _

theorem DistinctKeys.mapValues (distinct : entries.DistinctKeys) (change : α → β) :
    (entries.mapValues change).DistinctKeys :=
  distinct.of_keys (keys_mapValues change entries).symm

/-- A value that is put takes at most the place of one other. -/
theorem DistinctKeys.values_put_subperm (distinct : entries.DistinctKeys) (name : String)
    (value : α) : (entries.put (.text name) value).values.Subperm (value :: entries.values) := by
  cases found : entries.lookup (.text name) with
  | none =>
      rw [put_of_not_contains (lookup_eq_none_iff.mp found), values, List.map_append]
      exact (List.perm_append_singleton _ _).subperm
  | some old =>
      obtain ⟨front, back, rfl⟩ := List.append_of_mem (mem_of_lookup_text found)
      have kept : (values (front ++ back)).Subperm (values (front ++ (.text name, old) :: back)) := by
        refine (List.Sublist.map _ ?_).subperm
        exact List.Sublist.append_left (List.sublist_cons_self _ _) _
      have moved : (values (front ++ (.text name, value) :: back)).Perm
          (value :: values (front ++ back)) := List.perm_middle.map _
      rw [distinct.put_middle]
      exact moved.subperm.trans (List.subperm_cons _ |>.mpr kept)

end Entries

namespace Edit

/-- The edit on entries of another representation. -/
def map (change : α → β) : Edit α → Edit β
  | drop field => drop field
  | set field value => set field (change value)
  | rename old new => rename old new

/-- The value that an edit brings along, if it sets one. -/
def brought : Edit α → List α
  | set _ value => [value]
  | drop _ | rename _ _ => []

variable {entries : Entries α}

theorem mapValues_apply (change : α → β) (entries : Entries α) (edit : Edit α) :
    (apply entries edit).mapValues change = apply (entries.mapValues change) (edit.map change) := by
  cases edit with
  | drop field => exact (Entries.erase_mapValues change _ entries).symm
  | set field value => exact Entries.put_mapValues change _ value entries
  | rename old new =>
      rw [map, apply, apply, Entries.lookup_mapValues]
      cases entries.lookup (.text old) with
      | none => rfl
      | some value =>
          rw [Option.map_some]
          dsimp only
          rw [Entries.put_mapValues, Entries.erase_mapValues]

theorem distinctKeys_apply (distinct : entries.DistinctKeys) (edit : Edit α) :
    (apply entries edit).DistinctKeys := by
  cases edit with
  | drop field => exact distinct.erase _
  | set field value => exact distinct.put _ _
  | rename old new =>
      rw [apply]
      split
      · exact distinct
      · exact (distinct.erase _).put _ _

theorem values_apply_subperm (distinct : entries.DistinctKeys) (edit : Edit α) :
    (apply entries edit).values.Subperm (entries.values ++ edit.brought) := by
  cases edit with
  | drop field =>
      rw [brought, List.append_nil]
      exact (List.filter_sublist.map _).subperm
  | set field value =>
      exact (distinct.values_put_subperm field value).trans
        (List.perm_append_singleton _ _).symm.subperm
  | rename old new =>
      rw [brought, List.append_nil, apply]
      split
      · exact .refl _
      · rename_i value found
        refine ((distinct.erase _).values_put_subperm new value).trans (List.Perm.subperm ?_)
        refine .trans ?_ ((distinct.perm_erase found).map _).symm
        rw [List.map_append]
        exact (List.perm_append_singleton _ _).symm

end Edit

end Uplift
