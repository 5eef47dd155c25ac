import Uplift.Value

/-!
# Induction on trees

What holds of every scalar, and of an array or an object as soon as it holds of all that lies
directly below, holds of every tree. The scalars of a tree are gathered from what lies below, too.
-/

set_option autoImplicit false

namespace Uplift.Value

private theorem sizeOf_lt_of_mem_entries {entries : List (Scalar × Value)}
    {entry : Scalar × Value} (member : entry ∈ entries) : sizeOf entry.2 < sizeOf entries := by
  have inner : sizeOf entry.2 < sizeOf entry := by
    obtain ⟨key, value⟩ := entry
    simp only [Prod.mk.sizeOf_spec]
    omega
  exact Nat.lt_trans inner (List.sizeOf_lt_of_mem member)

@[elab_as_elim]
theorem induction {motive : Value → Prop} (scalar : ∀ value, motive (.scalar value))
    (array : ∀ items, (∀ item ∈ items, motive item) → motive (.array items))
    (object : ∀ entries, (∀ entry ∈ entries, motive entry.2) → motive (.object entries)) :
    ∀ value, motive value
  | .scalar value => scalar value
  | .array items => array items fun item _ => induction scalar array object item
  | .object entries => object entries fun entry _ => induction scalar array object entry.2
termination_by value => sizeOf value
decreasing_by
  · rename_i member
    have smaller := List.sizeOf_lt_of_mem member
    simp only [Value.array.sizeOf_spec]
    omega
  · rename_i member
    have smaller := sizeOf_lt_of_mem_entries member
    simp only [Value.object.sizeOf_spec]
    omega

/-- What holds of every scalar and every array holds of what is no object. -/
@[elab_as_elim]
theorem of_not_object {motive : Value → Prop} (scalar : ∀ value, motive (.scalar value))
    (array : ∀ items, motive (.array items)) :
    ∀ value : Value, (∀ entries, value ≠ .object entries) → motive value
  | .scalar value, _ => scalar value
  | .array items, _ => array items
  | .object entries, other => absurd rfl (other entries)

theorem scalarsOfItems_eq_flatMap (items : List Value) :
    scalarsOfItems items = items.flatMap scalars := by
  induction items with
  | nil => rfl
  | cons item rest ih => rw [scalarsOfItems, ih, List.flatMap_cons]

theorem scalarsOfEntries_eq_flatMap (entries : List (Scalar × Value)) :
    scalarsOfEntries entries = entries.flatMap fun entry => entry.1 :: scalars entry.2 := by
  induction entries with
  | nil => rfl
  | cons entry rest ih => rw [scalarsOfEntries, ih, List.flatMap_cons]

end Uplift.Value
