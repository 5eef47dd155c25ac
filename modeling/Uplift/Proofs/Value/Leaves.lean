import Mathlib.Data.List.Perm.Basic
import Uplift.Proofs.Value
import Uplift.Proofs.Value.Distinct

/-!
# Objects and leaves of a tree

All objects of a tree and all its scalars, as they stand in it from front to back. An object comes
before those below it, and a scalar comes with the key that it stands under.
-/

set_option autoImplicit false

namespace Uplift.Value

mutual

/-- All objects of a tree. -/
def objects : Value → List (Entries Value)
  | scalar _ => []
  | array items => objectsOfItems items
  | object entries => entries :: objectsOfEntries entries

def objectsOfItems : List Value → List (Entries Value)
  | [] => []
  | item :: rest => objects item ++ objectsOfItems rest

def objectsOfEntries : List (Scalar × Value) → List (Entries Value)
  | [] => []
  | (_, value) :: rest => objects value ++ objectsOfEntries rest

end

mutual

/-- The scalars of a tree that stands under a key itself, or under none; an item of an array stands
under none. -/
def leavesUnder (key : Option Scalar) : Value → List (Option Scalar × Scalar)
  | scalar value => [(key, value)]
  | array items => leavesOfItems items
  | object entries => leavesOfEntries entries

def leavesOfItems : List Value → List (Option Scalar × Scalar)
  | [] => []
  | item :: rest => leavesUnder none item ++ leavesOfItems rest

def leavesOfEntries : List (Scalar × Value) → List (Option Scalar × Scalar)
  | [] => []
  | (key, value) :: rest => leavesUnder (some key) value ++ leavesOfEntries rest

end

/-- The scalars of a tree, keys not among them. -/
def leaves (value : Value) : List Scalar :=
  (leavesUnder none value).map (·.2)

/-- The objects directly below a node. -/
def childObjects (value : Value) : List (Entries Value) :=
  value.children.filterMap fun child =>
    match child with
    | object entries => some entries
    | _ => none

variable {items : List Value} {entries : Entries Value}

theorem objects_array (items : List Value) :
    objects (.array items) = items.flatMap objects := by
  rw [objects]
  induction items with
  | nil => rfl
  | cons item rest ih => rw [objectsOfItems, ih, List.flatMap_cons]

theorem objects_object (entries : Entries Value) :
    objects (.object entries) = entries :: entries.flatMap fun entry => entry.2.objects := by
  rw [objects]
  congr 1
  induction entries with
  | nil => rfl
  | cons entry rest ih => rw [objectsOfEntries, ih, List.flatMap_cons]

theorem leavesUnder_array (key : Option Scalar) (items : List Value) :
    leavesUnder key (.array items) = items.flatMap (leavesUnder none) := by
  rw [leavesUnder]
  induction items with
  | nil => rfl
  | cons item rest ih => rw [leavesOfItems, ih, List.flatMap_cons]

theorem leavesUnder_object (key : Option Scalar) (entries : Entries Value) :
    leavesUnder key (.object entries) =
      entries.flatMap fun entry => leavesUnder (some entry.1) entry.2 := by
  rw [leavesUnder]
  induction entries with
  | nil => rfl
  | cons entry rest ih => rw [leavesOfEntries, ih, List.flatMap_cons]

/-- The key that a tree stands under tells of its leaves only where it is one itself. -/
theorem leavesUnder_map_snd (key : Option Scalar) (value : Value) :
    (leavesUnder key value).map (·.2) = value.leaves := by
  cases value <;> rfl

theorem leaves_array (items : List Value) : leaves (.array items) = items.flatMap leaves := by
  rw [leaves, leavesUnder_array, List.map_flatMap]
  rfl

theorem leaves_object (entries : Entries Value) :
    leaves (.object entries) = entries.flatMap fun entry => entry.2.leaves := by
  rw [leaves, leavesUnder_object, List.map_flatMap]
  exact List.flatMap_congr fun entry _ => leavesUnder_map_snd _ _

theorem mem_childObjects {value : Value} :
    entries ∈ value.childObjects ↔ .object entries ∈ value.children := by
  rw [childObjects, List.mem_filterMap]
  constructor
  · rintro ⟨child, member, same⟩
    cases child with
    | scalar scalar => cases same
    | array items => cases same
    | object inner =>
        cases same
        exact member
  · exact fun member => ⟨_, member, rfl⟩

theorem mem_objects_of_mem_childObjects {value : Value} (member : entries ∈ value.childObjects) :
    entries ∈ value.objects := by
  have self : entries ∈ objects (.object entries) := by
    rw [objects_object]
    exact .head _
  rw [mem_childObjects] at member
  cases value with
  | scalar scalar => cases member
  | array items =>
      rw [objects_array]
      exact List.mem_flatMap.mpr ⟨_, member, self⟩
  | object inner =>
      obtain ⟨entry, entryMember, same⟩ := List.mem_map.mp member
      rw [objects_object]
      exact .tail _ (List.mem_flatMap.mpr ⟨entry, entryMember, by rwa [same]⟩)

/-- An object keeps its leaves when a value in it is replaced by one with the same leaves. -/
theorem leaves_put_perm (distinct : entries.DistinctKeys) {name : String} {old new : Value}
    (found : entries.lookup (.text name) = some old) (same : new.leaves.Perm old.leaves) :
    (leaves (.object (entries.put (.text name) new))).Perm (leaves (.object entries)) := by
  have present := Entries.contains_of_lookup found
  rw [leaves_object, leaves_object, Entries.put_of_contains present, List.flatMap_map]
  refine List.Perm.flatMap_left entries fun entry member => ?_
  split
  · rename_i named
    obtain ⟨key, stored⟩ := entry
    rw [Scalar.sameKey_comm, Scalar.sameKey_text_iff] at named
    subst named
    rw [distinct.lookup_of_mem member, Option.some.injEq] at found
    rwa [found]
  · exact .refl _

/-- What holds of every object of an array holds of those of every item. -/
theorem forall_objects_array {holds : Entries Value → Prop} :
    (∀ object ∈ objects (.array items), holds object) ↔
      ∀ item ∈ items, ∀ object ∈ item.objects, holds object := by
  rw [objects_array]
  simp only [List.mem_flatMap]
  exact ⟨fun all item member object inside => all object ⟨item, member, inside⟩,
    fun all object ⟨item, member, inside⟩ => all item member object inside⟩

theorem forall_objects_object {holds : Entries Value → Prop} :
    (∀ object ∈ objects (.object entries), holds object) ↔
      holds entries ∧ ∀ entry ∈ entries, ∀ object ∈ entry.2.objects, holds object := by
  rw [objects_object, List.forall_mem_cons]
  simp only [List.mem_flatMap]
  exact and_congr_right fun _ =>
    ⟨fun all entry member object inside => all object ⟨entry, member, inside⟩,
      fun all object ⟨entry, member, inside⟩ => all entry member object inside⟩

/-- What holds of all objects of a tree holds still when an entry is put into it, if it holds of what
is put there and of the object itself. -/
theorem forall_objects_put {holds : Entries Value → Prop} {key : Scalar} {value : Value}
    (all : ∀ object ∈ objects (.object entries), holds object)
    (own : holds (entries.put key value)) (inside : ∀ object ∈ value.objects, holds object) :
    ∀ object ∈ objects (.object (entries.put key value)), holds object := by
  rw [forall_objects_object] at all ⊢
  refine ⟨own, fun entry member => ?_⟩
  rcases Entries.mem_or_eq_of_mem_put member with known | added
  · exact all.2 entry known
  · rwa [added]

theorem forall_objects_of_lookup {holds : Entries Value → Prop} {name : String} {value : Value}
    (all : ∀ object ∈ objects (.object entries), holds object)
    (found : entries.lookup (.text name) = some value) : ∀ object ∈ value.objects, holds object :=
  (forall_objects_object.mp all).2 _ (Entries.mem_of_lookup_text found)

theorem distinctKeys_iff_objects {value : Value} :
    value.DistinctKeys ↔ ∀ object ∈ value.objects, object.DistinctKeys := by
  induction value using Value.induction with
  | scalar scalar => exact ⟨fun _ => nofun, fun _ => .scalar scalar⟩
  | array items ih =>
      rw [DistinctKeys.array_iff, forall_objects_array]
      exact forall₂_congr ih
  | object entries ih =>
      rw [DistinctKeys.object_iff, forall_objects_object]
      exact and_congr_right fun _ => forall₂_congr ih

end Uplift.Value
