import Uplift.Proofs.Entries.Match
import Uplift.Value

/-!
# Trees without duplicate keys

Where no object has a key twice, entries are the values that are found under their keys, and objects
with the same keys in the same order are equal if the same is found in them.
-/

set_option autoImplicit false

namespace Uplift

namespace Entries

variable {α : Type} {entries others : Entries α} {key other : Scalar}

theorem lookup_congr (same : key.sameKey other = true) (entries : Entries α) :
    entries.lookup key = entries.lookup other := by
  have keys := Scalar.sameKey_iff.mp same
  simp [lookup, Scalar.sameKey, keys]

theorem exists_sameKey_of_lookup {value : α} (found : entries.lookup key = some value) :
    ∃ entry ∈ entries, key.sameKey entry.1 = true ∧ entry.2 = value := by
  obtain ⟨entry, located, leads⟩ := Option.map_eq_some_iff.mp found
  have same := List.find?_some located
  exact ⟨entry, List.mem_of_find?_eq_some located, same, leads⟩

theorem exists_mem_of_lookup {value : α} (found : entries.lookup key = some value) :
    ∃ entry ∈ entries, entry.2 = value := by
  obtain ⟨entry, member, _, same⟩ := exists_sameKey_of_lookup found
  exact ⟨entry, member, same⟩

theorem DistinctKeys.lookup_tail {value : α} (distinct : DistinctKeys ((key, value) :: entries))
    (same : key.sameKey other = true) : entries.lookup other = none := by
  obtain ⟨fresh, _⟩ := List.nodup_cons.mp distinct
  rw [← lookup_congr same, lookup_eq_none_iff, Bool.eq_false_iff]
  exact fun present => fresh (contains_iff.mp present)

theorem DistinctKeys.contains_beside {front back : Entries α} {value : α}
    (distinct : DistinctKeys (front ++ (key, value) :: back)) :
    contains key (front ++ back) = false := by
  rw [← lookup_eq_none_iff]
  exact (distinct.perm List.perm_middle).lookup_tail (Scalar.sameKey_refl _)

theorem DistinctKeys.erase_middle {front back : Entries α} {value : α}
    (distinct : DistinctKeys (front ++ (key, value) :: back)) :
    erase key (front ++ (key, value) :: back) = front ++ back := by
  have others := distinct.contains_beside
  simp only [contains, List.any_eq_false, List.mem_append] at others
  have kept {part : Entries α} (within : ∀ entry ∈ part, entry ∈ front ∨ entry ∈ back) :
      (part.filter fun entry => !key.sameKey entry.1) = part :=
    List.filter_eq_self.mpr fun entry member => by simpa using others entry (within entry member)
  simp only [erase, List.filter_append, List.filter_cons, Scalar.sameKey_refl]
  rw [kept fun _ => .inl, kept fun _ => .inr]
  rfl

theorem DistinctKeys.put_middle {front back : Entries α} {value : α}
    (distinct : DistinctKeys (front ++ (key, value) :: back)) (new : α) :
    Entries.put key new (front ++ (key, value) :: back) = front ++ (key, new) :: back := by
  have others := distinct.contains_beside
  simp only [contains, List.any_eq_false, List.mem_append] at others
  have kept {part : Entries α} (within : ∀ entry ∈ part, entry ∈ front ∨ entry ∈ back) :
      (part.map fun entry => if key.sameKey entry.1 then (entry.1, new) else entry) = part :=
    (List.map_congr_left fun entry member =>
      if_neg (others entry (within entry member))).trans (List.map_id _)
  have present : contains key (front ++ (key, value) :: back) = true :=
    contains_of_mem (List.mem_append_right _ (.head _))
  rw [put_of_contains present, List.map_append, List.map_cons, kept fun _ => .inl,
    kept fun _ => .inr, if_pos (Scalar.sameKey_refl key)]

/-- To put what is found under a name changes nothing. -/
theorem DistinctKeys.put_eq_self {name : String} {value : α} (distinct : entries.DistinctKeys)
    (found : entries.lookup (.text name) = some value) :
    entries.put (.text name) value = entries := by
  obtain ⟨front, back, rfl⟩ := List.append_of_mem (mem_of_lookup_text found)
  exact distinct.put_middle value

/-- Objects with the same keys in the same order, and the same under each of them, are the same. -/
theorem DistinctKeys.ext (distinct : entries.DistinctKeys)
    (keys : entries.map (·.1) = others.map (·.1))
    (same : ∀ key, entries.lookup key = others.lookup key) : entries = others := by
  have othersDistinct : others.DistinctKeys := distinct.of_keys keys
  have lengths : entries.length = others.length := by
    simpa using congrArg List.length keys
  refine List.ext_getElem lengths fun index within otherWithin => ?_
  have sameKey : entries[index].1 = others[index].1 := by
    have mapped := List.getElem_of_eq keys (by simpa using within)
    rwa [List.getElem_map, List.getElem_map] at mapped
  have found : entries.lookup entries[index].1 = some entries[index].2 :=
    distinct.lookup_of_mem (List.getElem_mem within)
  have otherFound : others.lookup others[index].1 = some others[index].2 :=
    othersDistinct.lookup_of_mem (List.getElem_mem otherWithin)
  rw [sameKey, same, otherFound] at found
  exact Prod.ext sameKey (Option.some.inj found).symm

end Entries

/-- No object of the tree has a key twice. -/
inductive Value.DistinctKeys : Value → Prop where
  | scalar (value : Scalar) : DistinctKeys (.scalar value)
  | array {items : List Value} : (∀ item ∈ items, DistinctKeys item) → DistinctKeys (.array items)
  | object {entries : Entries Value} : entries.DistinctKeys →
      (∀ entry ∈ entries, DistinctKeys entry.2) → DistinctKeys (.object entries)

namespace Value.DistinctKeys

variable {entries : Entries Value}

@[simp] theorem of_scalar (value : Scalar) : DistinctKeys (.scalar value) := .scalar value

@[simp] theorem array_iff {items : List Value} :
    DistinctKeys (.array items) ↔ ∀ item ∈ items, item.DistinctKeys :=
  ⟨fun distinct => by cases distinct with | array below => exact below, .array⟩

@[simp] theorem object_iff : DistinctKeys (.object entries) ↔
    entries.DistinctKeys ∧ ∀ entry ∈ entries, entry.2.DistinctKeys :=
  ⟨fun distinct => by cases distinct with | object own below => exact ⟨own, below⟩,
    fun both => .object both.1 both.2⟩

theorem empty : DistinctKeys (.object []) := .object .nil nofun

theorem keys (distinct : DistinctKeys (.object entries)) : entries.DistinctKeys :=
  (object_iff.mp distinct).1

theorem lookup (distinct : DistinctKeys (.object entries)) {key : Scalar} {value : Value}
    (found : entries.lookup key = some value) : value.DistinctKeys := by
  obtain ⟨entry, member, rfl⟩ := Entries.exists_mem_of_lookup found
  exact (object_iff.mp distinct).2 entry member

theorem of_mem_children {value child : Value} (distinct : value.DistinctKeys)
    (member : child ∈ value.children) : child.DistinctKeys := by
  cases distinct with
  | scalar => cases member
  | array below => exact below child member
  | object _ below =>
      obtain ⟨entry, entryMember, rfl⟩ := List.mem_map.mp member
      exact below entry entryMember

end Value.DistinctKeys

end Uplift
