import Uplift.Proofs.Entries

/-!
# Entries under distinct keys

No two entries of an object stand under the same key, and putting and taking away entries keeps it
so. An entry is then found under its key, and two objects that have the same entries differ in
their order alone.
-/

set_option autoImplicit false

namespace Uplift

theorem Scalar.sameKey_text_iff {key : Scalar} {name : String} :
    key.sameKey (.text name) = true ↔ key = .text name := by
  constructor
  · intro same
    have keys := Scalar.sameKey_iff.mp same
    cases key with
    | text other =>
        cases keys
        rfl
    | float value =>
        simp only [Scalar.key] at keys
        split at keys
        · cases keys
        · split at keys <;> cases keys
    | null | bool value | int value | date value | moment value | bytes value => cases keys
  · rintro rfl
    exact Scalar.sameKey_refl _

theorem Scalar.sameKey_comm (first second : Scalar) :
    first.sameKey second = second.sameKey first := by
  simp only [Scalar.sameKey, eq_comm]

namespace Entries

variable {α : Type} {entries : Entries α} {key : Scalar}

theorem contains_iff : entries.contains key = true ↔ key.key ∈ entries.map (·.1.key) := by
  simp only [contains, List.any_eq_true, Scalar.sameKey_iff, List.mem_map]
  constructor
  · intro found
    obtain ⟨entry, member, same⟩ := found
    exact ⟨entry, member, same.symm⟩
  · intro found
    obtain ⟨entry, member, same⟩ := found
    exact ⟨entry, member, same.symm⟩

theorem contains_of_mem {value : α} (member : (key, value) ∈ entries) :
    entries.contains key = true :=
  contains_iff.mpr (List.mem_map_of_mem (f := fun entry : Scalar × α => entry.1.key) member)

theorem lookup_put_text {name other : String} (value : α) (entries : Entries α) :
    (entries.put (.text name) value).lookup (.text other) =
      if other = name then some value else entries.lookup (.text other) := by
  split
  · rename_i same
    rw [same, lookup_put_same]
  · rename_i different
    exact lookup_put_other _ _ (by simpa [eq_comm] using different)

/-- Only what is asked for decides whether it is found among some of the entries. -/
theorem lookup_filter_text (keep : Scalar → Bool) (name : String) (entries : Entries α) :
    lookup (.text name) (entries.filter fun entry => keep entry.1) =
      if keep (.text name) then entries.lookup (.text name) else none := by
  induction entries with
  | nil => simp
  | cons entry rest ih =>
      rw [List.filter_cons, lookup_cons]
      by_cases same : (Scalar.text name).sameKey entry.1
      · have key := same
        rw [Scalar.sameKey_comm, Scalar.sameKey_text_iff] at key
        rw [if_pos same, key]
        cases kept : keep (.text name) with
        | true => rw [if_pos rfl, lookup_cons, if_pos same, if_pos rfl]
        | false => simpa [kept] using ih
      · rw [if_neg same, ← ih]
        split
        · rw [lookup_cons, if_neg same]
        · rfl

theorem mem_of_lookup_text {name : String} {value : α}
    (found : entries.lookup (.text name) = some value) : (.text name, value) ∈ entries := by
  obtain ⟨⟨other, stored⟩, located, rfl⟩ := Option.map_eq_some_iff.mp found
  have same := List.find?_some located
  rw [Scalar.sameKey_comm, Scalar.sameKey_text_iff] at same
  cases same
  exact List.mem_of_find?_eq_some located

namespace DistinctKeys

theorem nil : DistinctKeys ([] : Entries α) := List.nodup_nil

theorem nodup (distinct : entries.DistinctKeys) : entries.Nodup :=
  List.Pairwise.of_map _ (fun _ _ different same => different (congrArg (·.1.key) same)) distinct

theorem filter (distinct : entries.DistinctKeys) (keep : Scalar × α → Bool) :
    DistinctKeys (entries.filter keep) :=
  List.Nodup.sublist (List.filter_sublist.map _) distinct

theorem perm {others : Entries α} (distinct : entries.DistinctKeys) (perm : entries.Perm others) :
    others.DistinctKeys :=
  (perm.map _).nodup_iff.mp distinct

theorem put (distinct : entries.DistinctKeys) (key : Scalar) (value : α) :
    DistinctKeys (entries.put key value) := by
  have keys := congrArg (List.map Scalar.key) (keys_put key value entries)
  simp only [List.map_map, List.map_append] at keys
  unfold DistinctKeys
  change ((entries.put key value).map (Scalar.key ∘ (·.1))).Nodup
  rw [keys]
  cases present : entries.contains key with
  | true =>
      rw [if_pos rfl, List.map_nil, List.append_nil]
      exact distinct
  | false =>
      have absent : key.key ∉ entries.map (·.1.key) := by
        rw [← contains_iff, present]
        exact Bool.false_ne_true
      refine List.nodup_append.mpr ⟨distinct, by simp, ?_⟩
      intro old member new single same
      rw [same] at member
      simp only [Bool.false_eq_true, if_false, List.map_cons, List.map_nil,
        List.mem_singleton] at single
      rw [single] at member
      exact absent member

/-- Under distinct keys an entry is what is found under its key. -/
theorem lookup_of_mem (distinct : entries.DistinctKeys) {value : α}
    (member : (key, value) ∈ entries) : entries.lookup key = some value := by
  induction entries with
  | nil => cases member
  | cons entry rest ih =>
      obtain ⟨fresh, restDistinct⟩ := List.nodup_cons.mp distinct
      rw [lookup_cons]
      rcases List.mem_cons.mp member with rfl | inRest
      · rw [Scalar.sameKey_refl, if_pos rfl]
      · have different : ¬ key.sameKey entry.1 = true := by
          intro same
          refine fresh (List.mem_map.mpr ⟨(key, value), inRest, ?_⟩)
          exact Scalar.sameKey_iff.mp same
        rw [if_neg different]
        exact ih restDistinct inRest

theorem mem_text_iff (distinct : entries.DistinctKeys) {name : String} {value : α} :
    (.text name, value) ∈ entries ↔ entries.lookup (.text name) = some value :=
  ⟨distinct.lookup_of_mem, mem_of_lookup_text⟩

/-- What is found under a name stands behind all else, up to the order of entries. -/
theorem perm_erase (distinct : entries.DistinctKeys) {name : String} {value : α}
    (found : entries.lookup (.text name) = some value) :
    entries.Perm (entries.erase (.text name) ++ [(.text name, value)]) := by
  have gone : (entries.erase (.text name)).contains (.text name) = false := by
    rw [← lookup_eq_none_iff, lookup_erase_same]
  have added : DistinctKeys (entries.erase (.text name) ++ [(.text name, value)]) := by
    rw [← put_of_not_contains gone]
    exact (distinct.filter _).put _ _
  refine (List.perm_ext_iff_of_nodup distinct.nodup added.nodup).mpr ?_
  rintro ⟨key, stored⟩
  rw [List.mem_append, List.mem_singleton, erase, List.mem_filter]
  constructor
  · intro member
    by_cases same : key = .text name
    · subst same
      rw [distinct.lookup_of_mem member] at found
      exact .inr (by rw [Option.some.inj found])
    · refine .inl ⟨member, ?_⟩
      rw [Scalar.sameKey_comm, Bool.not_eq_true', Bool.eq_false_iff]
      exact mt Scalar.sameKey_text_iff.mp same
  · rintro (kept | same)
    · exact kept.1
    · rw [same]
      exact mem_of_lookup_text found

theorem perm_iff {others : Entries α} (distinct : entries.DistinctKeys)
    (othersDistinct : others.DistinctKeys) :
    entries.Perm others ↔ ∀ entry, entry ∈ entries ↔ entry ∈ others :=
  List.perm_ext_iff_of_nodup distinct.nodup othersDistinct.nodup

end DistinctKeys

/-!
## Changes of one field
-/

section ChangeField

variable {name : String}

/-- Changes what stands under a name, if anything does. -/
def changeField (name : String) (change : α → α) (entries : Entries α) : Entries α :=
  entries.map fun entry => if entry.1 = .text name then (entry.1, change entry.2) else entry

theorem DistinctKeys.changeField_eq_self (distinct : entries.DistinctKeys) (change : α → α)
    (unchanged : ∀ value, entries.lookup (.text name) = some value → change value = value) :
    entries.changeField name change = entries := by
  refine (List.map_congr_left fun entry member => ?_).trans (List.map_id _)
  obtain ⟨key, stored⟩ := entry
  by_cases same : key = .text name
  · subst same
    rw [if_pos rfl, unchanged stored (distinct.lookup_of_mem member)]
    rfl
  · exact if_neg same

/-- To change a field is to put what its value is changed to in its place. -/
theorem DistinctKeys.put_eq_changeField (distinct : entries.DistinctKeys) {value : α}
    (found : entries.lookup (.text name) = some value) (change : α → α) :
    entries.put (.text name) (change value) = entries.changeField name change := by
  rw [put_of_contains (contains_of_lookup found)]
  refine List.map_congr_left fun entry member => ?_
  obtain ⟨key, stored⟩ := entry
  rw [Scalar.sameKey_comm]
  by_cases same : key = .text name
  · subst same
    rw [distinct.lookup_of_mem member] at found
    rw [if_pos (Scalar.sameKey_refl _), if_pos rfl, Option.some.inj found]
  · rw [if_neg (mt Scalar.sameKey_text_iff.mp same), if_neg same]

theorem contains_changeField (key : Scalar) (name : String) (change : α → α)
    (entries : Entries α) : (entries.changeField name change).contains key = entries.contains key := by
  induction entries with
  | nil => rfl
  | cons entry rest ih =>
      simp only [contains, changeField, List.map_cons, List.any_cons] at ih ⊢
      rw [ih]
      split <;> rfl

end ChangeField

/-- All keys are texts. -/
def TextKeys (entries : Entries α) : Prop :=
  ∀ entry ∈ entries, ∃ name, entry.1 = .text name

namespace TextKeys

theorem nil : TextKeys ([] : Entries α) := nofun

theorem filter (texts : entries.TextKeys) (keep : Scalar × α → Bool) :
    TextKeys (entries.filter keep) := fun entry member =>
  texts entry (List.mem_filter.mp member).1

theorem put (texts : entries.TextKeys) (name : String) (value : α) :
    TextKeys (entries.put (.text name) value) := by
  intro entry member
  have key : entry.1 ∈ (entries.put (.text name) value).map (·.1) := List.mem_map_of_mem member
  rw [keys_put, List.mem_append] at key
  rcases key with old | new
  · obtain ⟨before, present, same⟩ := List.mem_map.mp old
    rw [← same]
    exact texts before present
  · split at new
    · cases new
    · exact ⟨name, List.mem_singleton.mp new⟩

end TextKeys

/-- Two objects with texts as keys under which the same is found differ in their order alone. -/
theorem DistinctKeys.perm_of_lookup {others : Entries α} (distinct : entries.DistinctKeys)
    (texts : entries.TextKeys) (othersDistinct : others.DistinctKeys)
    (othersTexts : others.TextKeys)
    (same : ∀ name, entries.lookup (.text name) = others.lookup (.text name)) :
    entries.Perm others := by
  refine (distinct.perm_iff othersDistinct).mpr ?_
  rintro ⟨key, value⟩
  constructor
  · intro member
    obtain ⟨name, rfl⟩ := texts _ member
    rwa [othersDistinct.mem_text_iff, ← same, ← distinct.mem_text_iff]
  · intro member
    obtain ⟨name, rfl⟩ := othersTexts _ member
    rwa [distinct.mem_text_iff, same, ← othersDistinct.mem_text_iff]

end Entries

end Uplift
