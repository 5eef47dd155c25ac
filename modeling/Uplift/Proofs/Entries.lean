import Uplift.Entries

/-!
# Writing and finding entries

What is found under a key after an entry was written: under the same key the value that was written,
and under any other key what was there before. Keys keep their places, and a new key comes last.
-/

set_option autoImplicit false

namespace Uplift.Entries

variable {α : Type}

private theorem sameKey_eq {first second other : Scalar} (same : first.sameKey second = true) :
    first.sameKey other = second.sameKey other := by
  have keys := Scalar.sameKey_iff.mp same
  simp [Scalar.sameKey, keys]

theorem lookup_eq_none_iff {key : Scalar} {entries : Entries α} :
    entries.lookup key = none ↔ entries.contains key = false := by
  rw [contains_eq_isSome_lookup]
  cases entries.lookup key <;> simp

theorem contains_of_lookup {key : Scalar} {value : α} {entries : Entries α}
    (found : entries.lookup key = some value) : entries.contains key = true := by
  rw [contains_eq_isSome_lookup, found]
  rfl

private theorem lookup_map_replace (key other : Scalar) (value : α) (entries : Entries α) :
    lookup other (entries.map fun entry =>
        if key.sameKey entry.1 then (entry.1, value) else entry) =
      if key.sameKey other then (lookup other entries).map fun _ => value
      else lookup other entries := by
  induction entries with
  | nil => simp
  | cons entry rest ih =>
      rw [List.map_cons, lookup_cons, lookup_cons, ih]
      by_cases replaced : key.sameKey entry.1
      · by_cases sought : other.sameKey entry.1
        · have same : key.sameKey other = true := by
            rw [Scalar.sameKey_iff] at replaced sought ⊢
            exact replaced.trans sought.symm
          simp [replaced, sought, same]
        · simp [replaced, sought]
      · by_cases sought : other.sameKey entry.1
        · have different : key.sameKey other = false := by
            apply Bool.eq_false_iff.mpr
            intro same
            exact replaced ((sameKey_eq same).trans sought)
          simp [replaced, sought, different]
        · simp [replaced, sought]

private theorem lookup_append_entry (other key : Scalar) (value : α) (entries : Entries α) :
    lookup other (entries ++ [(key, value)]) =
      (lookup other entries).or (if other.sameKey key then some value else none) := by
  induction entries with
  | nil => simp [lookup_cons]
  | cons entry rest ih =>
      rw [List.cons_append, lookup_cons, lookup_cons, ih]
      by_cases sought : other.sameKey entry.1 <;> simp [sought]

@[simp] theorem lookup_put_same (key : Scalar) (value : α) (entries : Entries α) :
    lookup key (put key value entries) = some value := by
  unfold put
  cases present : entries.contains key with
  | true =>
      have found : (lookup key entries).isSome = true := by
        rw [← contains_eq_isSome_lookup, present]
      rw [if_pos rfl, lookup_map_replace]
      obtain ⟨old, same⟩ := Option.isSome_iff_exists.mp found
      simp [same]
  | false =>
      rw [if_neg Bool.false_ne_true, lookup_append_entry, lookup_eq_none_iff.mpr present]
      simp

theorem lookup_put_other {key other : Scalar} (value : α) (entries : Entries α)
    (different : key.sameKey other = false) :
    lookup other (put key value entries) = lookup other entries := by
  have reversed : other.sameKey key = false := by
    simpa [Scalar.sameKey, eq_comm] using different
  unfold put
  split
  · rw [lookup_map_replace]
    simp [different]
  · rw [lookup_append_entry]
    simp [reversed]

theorem keys_put (key : Scalar) (value : α) (entries : Entries α) :
    (put key value entries).map (·.1) =
      entries.map (·.1) ++ (if entries.contains key then [] else [key]) := by
  unfold put
  split
  · simp only [List.map_map, List.append_nil]
    apply List.map_congr_left
    intro entry _
    simp only [Function.comp_apply]
    split <;> rfl
  · simp

@[simp] theorem contains_put_same (key : Scalar) (value : α) (entries : Entries α) :
    contains key (put key value entries) = true := by
  rw [contains_eq_isSome_lookup, lookup_put_same]
  rfl

theorem contains_put_other {key other : Scalar} (value : α) (entries : Entries α)
    (different : key.sameKey other = false) :
    contains other (put key value entries) = contains other entries := by
  rw [contains_eq_isSome_lookup, contains_eq_isSome_lookup, lookup_put_other _ _ different]

theorem put_of_contains {key : Scalar} {entries : Entries α}
    (present : entries.contains key = true) (value : α) :
    put key value entries =
      entries.map fun entry => if key.sameKey entry.1 then (entry.1, value) else entry :=
  if_pos present

theorem put_of_not_contains {key : Scalar} {entries : Entries α}
    (absent : entries.contains key = false) (value : α) :
    put key value entries = entries ++ [(key, value)] :=
  if_neg (by rw [absent]; exact Bool.false_ne_true)

theorem mem_or_eq_of_mem_put {key : Scalar} {value : α} {entries : Entries α} {entry : Scalar × α}
    (member : entry ∈ put key value entries) : entry ∈ entries ∨ entry.2 = value := by
  unfold put at member
  split at member
  · obtain ⟨source, sourceMember, rfl⟩ := List.mem_map.mp member
    split
    · exact .inr rfl
    · exact .inl sourceMember
  · rcases List.mem_append.mp member with known | added
    · exact .inl known
    · exact .inr (by rw [List.mem_singleton.mp added])

/-- Of two values that are written under one key the second counts. -/
@[simp] theorem put_put_same (key : Scalar) (first second : α) (entries : Entries α) :
    put key second (put key first entries) = put key second entries := by
  rw [put_of_contains (contains_put_same key first entries)]
  cases present : entries.contains key with
  | true =>
      rw [put_of_contains present, put_of_contains present, List.map_map]
      refine List.map_congr_left fun entry _ => ?_
      by_cases same : key.sameKey entry.1 = true <;> simp [same]
  | false =>
      have untouched : ∀ entry ∈ entries, key.sameKey entry.1 = false := by
        simpa [contains] using present
      rw [put_of_not_contains present, put_of_not_contains present, List.map_append]
      congr 1
      · refine (List.map_congr_left fun entry member => ?_).trans (List.map_id _)
        rw [untouched entry member]
        rfl
      · simp

/-- Where a key is present, writing it does not meet with writing another key. -/
theorem put_put_comm {key other : Scalar} (value added : α) {entries : Entries α}
    (present : entries.contains key = true) (different : key.sameKey other = false) :
    put key value (put other added entries) = put other added (put key value entries) := by
  have reversed : other.sameKey key = false := by
    simpa [Scalar.sameKey, eq_comm] using different
  have kept : contains key (put other added entries) = true := by
    rw [contains_put_other _ _ reversed, present]
  rw [put_of_contains kept]
  cases old : entries.contains other with
  | true =>
      rw [put_of_contains old,
        put_of_contains ((contains_put_other _ _ different).trans old),
        put_of_contains present, List.map_map, List.map_map]
      refine List.map_congr_left fun entry _ => ?_
      by_cases first : key.sameKey entry.1 = true
      · have second : other.sameKey entry.1 = false := by
          rw [Scalar.sameKey_iff] at first
          simpa [Scalar.sameKey, ← first] using reversed
        simp [first, second]
      · by_cases second : other.sameKey entry.1 = true <;> simp [first, second]
  | false =>
      rw [put_of_not_contains old,
        put_of_not_contains ((contains_put_other _ _ different).trans old),
        put_of_contains present, List.map_append]
      simp [different]

theorem lookup_mapValues {β : Type} (change : α → β) (key : Scalar) (entries : Entries α) :
    lookup key (mapValues change entries) = (lookup key entries).map change := by
  induction entries with
  | nil => rfl
  | cons entry rest ih =>
      rw [mapValues, List.map_cons, lookup_cons, lookup_cons]
      split
      · rfl
      · exact ih

@[simp] theorem contains_mapValues {β : Type} (change : α → β) (key : Scalar)
    (entries : Entries α) : (mapValues change entries).contains key = entries.contains key := by
  rw [contains_eq_isSome_lookup, contains_eq_isSome_lookup, lookup_mapValues, Option.isSome_map]

theorem keys_mapValues {β : Type} (change : α → β) (entries : Entries α) :
    (mapValues change entries).map (·.1) = entries.map (·.1) := by
  rw [mapValues, List.map_map]
  rfl

theorem contains_eq_of_keys {β : Type} {entries : Entries α} {others : Entries β}
    (keys : entries.map (·.1) = others.map (·.1)) (key : Scalar) :
    entries.contains key = others.contains key := by
  have same := congrArg (List.any · key.sameKey) keys
  rwa [List.any_map, List.any_map] at same

theorem erase_mapValues {β : Type} (change : α → β) (key : Scalar) (entries : Entries α) :
    erase key (mapValues change entries) = mapValues change (erase key entries) := by
  rw [erase, mapValues, List.filter_map]
  rfl

theorem contains_of_contains_filter {keep : Scalar × α → Bool} {key : Scalar} {entries : Entries α}
    (present : contains key (entries.filter keep) = true) : entries.contains key = true := by
  rw [contains, List.any_eq_true] at present ⊢
  obtain ⟨entry, member, same⟩ := present
  exact ⟨entry, (List.mem_filter.mp member).1, same⟩

theorem not_contains_filter {keep : Scalar × α → Bool} {key : Scalar} {entries : Entries α}
    (absent : entries.contains key = false) : contains key (entries.filter keep) = false := by
  rw [Bool.eq_false_iff] at absent ⊢
  exact fun present => absent (contains_of_contains_filter present)

@[simp] theorem lookup_erase_same (key : Scalar) (entries : Entries α) :
    lookup key (erase key entries) = none := by
  rw [lookup_eq_none_iff]
  simp [contains, erase]

/-- Two objects differ at most in the entry of one key: all other keys lead to the same values, and
the keys stand in the same order, where the key itself comes last if it is new. -/
structure DifferAt (key : Scalar) (before after : Entries α) : Prop where
  elsewhere : ∀ other, key.sameKey other = false → lookup other after = lookup other before
  order : after.map (·.1) = before.map (·.1) ++ (if before.contains key then [] else [key])

theorem differAt_put (key : Scalar) (value : α) (entries : Entries α) :
    DifferAt key entries (put key value entries) where
  elsewhere _ different := lookup_put_other value entries different
  order := keys_put key value entries

end Uplift.Entries
