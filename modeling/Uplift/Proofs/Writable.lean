import Uplift.Digest
import Uplift.Proofs.Value

/-!
# Documents that can be written

A document can be written as text if each of its keys and scalars can. What is found in such a
document can be written, and so can what is made of it by putting, taking away and moving entries.
-/

set_option autoImplicit false

namespace Uplift

def Entries.Writable (entries : Entries Value) : Prop :=
  ∀ entry ∈ entries, entry.1.isWritable = true ∧ entry.2.isWritable = true

namespace Value

@[simp] theorem isWritable_scalar (value : Scalar) :
    (Value.scalar value).isWritable = value.isWritable := by
  simp [isWritable, scalars]

theorem isWritable_array_iff {items : List Value} :
    (Value.array items).isWritable = true ↔ ∀ item ∈ items, item.isWritable = true := by
  rw [isWritable, scalars, scalarsOfItems_eq_flatMap, List.all_flatMap, List.all_eq_true]
  rfl

theorem isWritable_object_iff {entries : List (Scalar × Value)} :
    (Value.object entries).isWritable = true ↔ Entries.Writable entries := by
  rw [isWritable, scalars, scalarsOfEntries_eq_flatMap, List.all_flatMap, List.all_eq_true]
  simp only [List.all_cons, Bool.and_eq_true, Entries.Writable, isWritable]

end Value

namespace Entries.Writable

variable {entries : Entries Value}

theorem nil : Writable [] := nofun

theorem cons_iff {key : Scalar} {value : Value} {rest : Entries Value} :
    Writable ((key, value) :: rest) ↔
      (key.isWritable = true ∧ value.isWritable = true) ∧ Writable rest :=
  List.forall_mem_cons

theorem lookup (writable : Writable entries) {key : Scalar} {value : Value}
    (found : entries.lookup key = some value) : value.isWritable = true := by
  obtain ⟨entry, located, rfl⟩ := Option.map_eq_some_iff.mp found
  exact (writable entry (List.mem_of_find?_eq_some located)).2

theorem filter (writable : Writable entries) (keep : Scalar × Value → Bool) :
    Writable (entries.filter keep) := fun entry member =>
  writable entry ((List.mem_filter.mp member).1)

theorem erase (writable : Writable entries) (key : Scalar) : Writable (entries.erase key) :=
  writable.filter _

theorem put (writable : Writable entries) {key : Scalar} {value : Value}
    (keyWritable : key.isWritable = true) (valueWritable : value.isWritable = true) :
    Writable (entries.put key value) := by
  intro entry member
  unfold Entries.put at member
  split at member
  · obtain ⟨old, present, rfl⟩ := List.mem_map.mp member
    have oldWritable := writable old present
    split
    · exact ⟨oldWritable.1, valueWritable⟩
    · exact oldWritable
  · rcases List.mem_append.mp member with before | added
    · exact writable entry before
    · cases List.mem_singleton.mp added
      exact ⟨keyWritable, valueWritable⟩

theorem putField (writable : Writable entries) (field : String) {value : Value}
    (valueWritable : value.isWritable = true) : Writable (entries.put (.text field) value) :=
  writable.put rfl valueWritable

end Entries.Writable

end Uplift
