import Uplift.Config.Merge
import Uplift.Proofs.Outcome
import Uplift.Proofs.Value
import Uplift.Proofs.Value.Distinct

/-!
# What a merge makes

`Merges` states the rules of a merge by themselves. Where both sides have objects, the keys that
they share can be written, the keys of the base come first and then the new ones, and each key leads
to what the rules make of both sides; anything else is replaced as a whole if it may be. For trees
without duplicate keys the function succeeds exactly with what the rules allow, at whatever place it
works.
-/

set_option autoImplicit false

namespace Uplift

theorem Value.typeName_eq_none_iff {value : Value} :
    value.typeName = "NoneType" ↔ value = .null := by
  cases value with
  | scalar scalar => cases scalar <;> simp [Value.typeName, Scalar.typeName]
  | array items => simp [Value.typeName]
  | object entries => simp [Value.typeName]

theorem Value.typeName_eq_list_iff {value : Value} :
    value.typeName = "list" ↔ value.isArray = true := by
  cases value with
  | scalar scalar => cases scalar <;> simp [Value.typeName, Scalar.typeName, Value.isArray]
  | array items => simp [Value.typeName, Value.isArray]
  | object entries => simp [Value.typeName, Value.isArray]

theorem Value.typeName_eq_dict_iff {value : Value} :
    value.typeName = "dict" ↔ value.isObject = true := by
  cases value with
  | scalar scalar => cases scalar <;> simp [Value.typeName, Scalar.typeName, Value.isObject]
  | array items => simp [Value.typeName, Value.isObject]
  | object entries => simp [Value.typeName, Value.isObject]

namespace Config

open Entries

/-- What a merge makes of what two objects have under one key. -/
inductive MergesUnder (merges : Value → Value → Value → Prop) :
    Option Value → Option Value → Option Value → Prop where
  | kept (found : Option Value) : MergesUnder merges found none found
  | added (override : Value) : MergesUnder merges none (some override) (some override)
  | merged {base override value : Value} : merges base override value →
      MergesUnder merges (some base) (some override) (some value)

/-- The keys of a base, and behind them those that are new. -/
def mergedKeys (base overrides : Entries Value) : List Scalar :=
  base.map (·.1) ++ (overrides.map (·.1)).filter fun key => !base.contains key

/-- The overrides have no key of too many digits in common with a base. -/
def SharesWritable (base overrides : Entries Value) : Prop :=
  ∀ key ∈ overrides.map (·.1), base.contains key = true → key.isWritable = true

/-- A merge of a base and an override makes a value. -/
inductive Merges : Value → Value → Value → Prop where
  | replaced {base override : Value} : (base.isObject && override.isObject) = false →
      replaceable base override = true → Merges base override override
  | objects {base overrides merged : Entries Value} : SharesWritable base overrides →
      merged.map (·.1) = mergedKeys base overrides →
      (∀ key, MergesUnder Merges (base.lookup key) (overrides.lookup key) (merged.lookup key)) →
      Merges (.object base) (.object overrides) (.object merged)

theorem replaceable_iff {base override : Value} : replaceable base override = true ↔
    base = .null ∨ override.isArray = true ∨ base.typeName = override.typeName := by
  cases base with
  | scalar scalar => cases scalar <;> simp [replaceable]
  | array items => simp [replaceable]
  | object entries => simp [replaceable]

variable {base overrides merged : Entries Value} {merges : Value → Value → Value → Prop}

theorem mergeValue_of_not_objects (place : String) {base override : Value}
    (plain : (base.isObject && override.isObject) = false) :
    mergeValue place base override =
      if replaceable base override then .ok override
      else .error (.types place base.typeName override.typeName) := by
  cases override with
  | scalar scalar => simp [mergeValue]
  | array items => simp [mergeValue]
  | object overrides =>
      cases base with
      | scalar scalar => simp [mergeValue]
      | array items => simp [mergeValue]
      | object entries => cases plain

theorem mergeValue_objects_eq_ok_iff {place : String} {value : Value} :
    mergeValue place (.object base) (.object overrides) = .ok value ↔
      ∃ merged, mergeEntries (place ++ ".") base overrides = .ok merged ∧
        Value.object merged = value := by
  rw [mergeValue, Outcome.map_eq_ok_iff]

/-- What is made of an override and of what the base has under its key. -/
def mergeUnder (leading : String) (key : Scalar) (base : Option Value) (override : Value) :
    Except MergeConflict Value :=
  match base with
  | none => .ok override
  | some found => placeOf leading key >>= fun place => mergeValue place found override

theorem mergeUnder_some_eq_ok_iff {leading : String} {key : Scalar} {found override value : Value} :
    mergeUnder leading key (some found) override = .ok value ↔
      key.isWritable = true ∧ mergeValue (leading ++ key.shown) found override = .ok value := by
  rw [mergeUnder, placeOf]
  cases key.isWritable <;> simp [bind, Except.bind]

theorem mergeEntries_cons (leading : String) (key : Scalar) (first : Value)
    (base rest : Entries Value) :
    mergeEntries leading base ((key, first) :: rest) =
      mergeUnder leading key (base.lookup key) first >>= fun value =>
        mergeEntries leading (base.put key value) rest := by
  simp only [mergeEntries, mergeUnder]
  cases base.lookup key with
  | none => rfl
  | some found => exact (bind_assoc ..).symm

theorem mergeEntries_cons_eq_ok_iff {leading : String} {key : Scalar} {first : Value}
    {rest : Entries Value} :
    mergeEntries leading base ((key, first) :: rest) = .ok merged ↔
      ∃ value, mergeUnder leading key (base.lookup key) first = .ok value ∧
        mergeEntries leading (base.put key value) rest = .ok merged := by
  rw [mergeEntries_cons]
  exact Outcome.bind_eq_ok_iff

/-- Once an entry is merged, the entries behind it find in the base what they found before. -/
private theorem lookup_of_rest {key sought : Scalar} {first : Value} {rest : Entries Value}
    (distinct : DistinctKeys ((key, first) :: rest)) {override : Value}
    (found : lookup sought rest = some override) :
    key.sameKey sought = false ∧ lookup sought ((key, first) :: rest) = some override := by
  have different : key.sameKey sought = false := by
    apply Bool.eq_false_iff.mpr
    intro same
    rw [distinct.lookup_tail same] at found
    cases found
  have reversed : sought.sameKey key = false := by
    rw [Scalar.sameKey_comm, different]
  refine ⟨different, ?_⟩
  rw [lookup_cons, reversed, if_neg Bool.false_ne_true, found]

/-- A key that is written into the base is none of those behind it. -/
private theorem contains_put_of_rest {key : Scalar} {first : Value} {rest : Entries Value}
    (distinct : DistinctKeys ((key, first) :: rest)) (base : Entries Value) (value : Value)
    {other : Scalar} (member : other ∈ rest.map (·.1)) :
    contains other (base.put key value) = base.contains other := by
  have present : contains other rest = true := by
    obtain ⟨entry, inRest, rfl⟩ := List.mem_map.mp member
    exact List.any_eq_true.mpr ⟨entry, inRest, Scalar.sameKey_refl _⟩
  rw [contains_eq_isSome_lookup] at present
  obtain ⟨override, found⟩ := Option.isSome_iff_exists.mp present
  exact contains_put_other _ _ (lookup_of_rest distinct found).1

private theorem sharesWritable_cons_iff {key : Scalar} {first : Value} {rest : Entries Value}
    (distinct : DistinctKeys ((key, first) :: rest)) (base : Entries Value) (value : Value) :
    SharesWritable base ((key, first) :: rest) ↔
      (base.contains key = true → key.isWritable = true) ∧
        SharesWritable (base.put key value) rest := by
  unfold SharesWritable
  rw [List.map_cons, List.forall_mem_cons]
  refine and_congr_right fun _ => forall₂_congr fun other member => ?_
  rw [contains_put_of_rest distinct base value member]

private theorem mergedKeys_cons {key : Scalar} {first : Value} {rest : Entries Value}
    (distinct : DistinctKeys ((key, first) :: rest)) (base : Entries Value) (value : Value) :
    mergedKeys (base.put key value) rest = mergedKeys base ((key, first) :: rest) := by
  have others : ∀ other ∈ rest.map (·.1),
      (!contains other (base.put key value)) = !base.contains other := by
    intro other member
    rw [contains_put_of_rest distinct base value member]
  unfold mergedKeys
  rw [keys_put, List.filter_congr others, List.append_assoc, List.map_cons, List.filter_cons]
  cases base.contains key <;> simp

theorem merged_of_mergeEntries {leading : String} (distinct : overrides.DistinctKeys)
    (below : ∀ place key found override value, base.lookup key = some found →
      overrides.lookup key = some override → mergeValue place found override = .ok value →
      merges found override value)
    (done : mergeEntries leading base overrides = .ok merged) :
    SharesWritable base overrides ∧ merged.map (·.1) = mergedKeys base overrides ∧
      ∀ key, MergesUnder merges (base.lookup key) (overrides.lookup key) (merged.lookup key) := by
  induction overrides generalizing base with
  | nil =>
      cases done
      refine ⟨nofun, by simp [mergedKeys], fun key => ?_⟩
      rw [lookup_nil]
      exact .kept _
  | cons entry rest ih =>
      obtain ⟨key, first⟩ := entry
      obtain ⟨value, valued, later⟩ := mergeEntries_cons_eq_ok_iff.mp done
      obtain ⟨_, restDistinct⟩ := List.nodup_cons.mp distinct
      -- The entries behind this one are merged with a base in which it has been written already.
      obtain ⟨restShares, restKeys, restUnder⟩ := ih restDistinct (by
        intro place sought found override result inBase inRest
        obtain ⟨different, inAll⟩ := lookup_of_rest distinct inRest
        rw [lookup_put_other _ _ different] at inBase
        exact below place sought found override result inBase inAll) later
      have shares : SharesWritable base ((key, first) :: rest) := by
        rw [sharesWritable_cons_iff distinct base value]
        refine ⟨fun present => ?_, restShares⟩
        rw [contains_eq_isSome_lookup] at present
        obtain ⟨found, inBase⟩ := Option.isSome_iff_exists.mp present
        rw [inBase] at valued
        exact (mergeUnder_some_eq_ok_iff.mp valued).1
      refine ⟨shares, restKeys.trans (mergedKeys_cons distinct base value), fun sought => ?_⟩
      have under := restUnder sought
      by_cases same : key.sameKey sought = true
      · have reversed : sought.sameKey key = true := by
          rw [Scalar.sameKey_comm, same]
        rw [distinct.lookup_tail same, lookup_congr reversed, lookup_put_same] at under
        rw [lookup_cons, if_pos reversed, lookup_congr reversed base]
        generalize lookup sought merged = after at under ⊢
        cases under
        cases inBase : base.lookup key with
        | none =>
            rw [inBase] at valued
            cases valued
            exact .added _
        | some found =>
            rw [inBase] at valued
            have made := (mergeUnder_some_eq_ok_iff.mp valued).2
            refine .merged (below _ key found first value inBase ?_ made)
            rw [lookup_cons, Scalar.sameKey_refl, if_pos rfl]
      · have different : key.sameKey sought = false := Bool.eq_false_iff.mpr same
        rw [lookup_put_other _ _ different] at under
        rw [lookup_cons, Scalar.sameKey_comm, if_neg same]
        exact under

theorem exists_mergeEntries (leading : String) (distinct : overrides.DistinctKeys)
    (shares : SharesWritable base overrides)
    (below : ∀ key found override, base.lookup key = some found →
      overrides.lookup key = some override →
      ∀ place, ∃ value, mergeValue place found override = .ok value) :
    ∃ merged, mergeEntries leading base overrides = .ok merged := by
  induction overrides generalizing base with
  | nil => exact ⟨base, rfl⟩
  | cons entry rest ih =>
      obtain ⟨key, first⟩ := entry
      obtain ⟨_, restDistinct⟩ := List.nodup_cons.mp distinct
      have valued : ∃ value, mergeUnder leading key (base.lookup key) first = .ok value := by
        cases inBase : base.lookup key with
        | none => exact ⟨first, rfl⟩
        | some found =>
            have present : base.contains key = true := by
              rw [contains_eq_isSome_lookup, inBase]
              rfl
            obtain ⟨value, made⟩ := below key found first inBase (by
              rw [lookup_cons, Scalar.sameKey_refl, if_pos rfl]) (leading ++ key.shown)
            exact ⟨value, mergeUnder_some_eq_ok_iff.mpr ⟨shares _ (.head _) present, made⟩⟩
      obtain ⟨value, valued⟩ := valued
      have restShares := ((sharesWritable_cons_iff distinct base value).mp shares).2
      have behind : ∀ sought found override, (base.put key value).lookup sought = some found →
          lookup sought rest = some override →
          ∀ place, ∃ value, mergeValue place found override = .ok value := by
        intro sought found override inBase inRest
        obtain ⟨different, inAll⟩ := lookup_of_rest distinct inRest
        rw [lookup_put_other _ _ different] at inBase
        exact below sought found override inBase inAll
      obtain ⟨merged, done⟩ := ih restDistinct restShares behind
      exact ⟨merged, mergeEntries_cons_eq_ok_iff.mpr ⟨value, valued, done⟩⟩

theorem distinctKeys_of_mergedKeys (baseDistinct : base.DistinctKeys)
    (distinct : overrides.DistinctKeys) (keys : merged.map (·.1) = mergedKeys base overrides) :
    merged.DistinctKeys := by
  have mapped := congrArg (List.map Scalar.key) keys
  simp only [mergedKeys, List.map_append, List.map_map] at mapped
  change (merged.map (Scalar.key ∘ (·.1))).Nodup
  rw [mapped, List.nodup_append]
  refine ⟨baseDistinct, ?_, ?_⟩
  · have all : ((overrides.map (·.1)).map Scalar.key).Nodup := by
      rw [List.map_map]
      exact distinct
    exact all.sublist (List.filter_sublist.map _)
  · intro old inBase new added same
    obtain ⟨key, fresh, rfl⟩ := List.mem_map.mp added
    obtain ⟨_, absent⟩ := List.mem_filter.mp fresh
    have present : base.contains key = true := contains_iff.mpr (same ▸ inBase)
    simp [present] at absent

theorem merges_iff_of_not_objects {base override value : Value}
    (plain : (base.isObject && override.isObject) = false) :
    Merges base override value ↔ replaceable base override = true ∧ value = override := by
  constructor
  · intro merges
    cases merges with
    | replaced _ fits => exact ⟨fits, rfl⟩
    | objects keys under => cases plain
  · rintro ⟨fits, rfl⟩
    exact .replaced plain fits

theorem merges_objects_iff {value : Value} :
    Merges (.object base) (.object overrides) value ↔
      ∃ merged, value = .object merged ∧ SharesWritable base overrides ∧
        merged.map (·.1) = mergedKeys base overrides ∧
        ∀ key, MergesUnder Merges (base.lookup key) (overrides.lookup key)
          (Entries.lookup key merged) := by
  constructor
  · intro merges
    cases merges with
    | replaced plain _ => cases plain
    | objects shares keys under => exact ⟨_, rfl, shares, keys, under⟩
  · rintro ⟨merged, rfl, shares, keys, under⟩
    exact .objects shares keys under

theorem MergesUnder.unique {base override value other : Option Value}
    (each : ∀ found inner result another, base = some found → override = some inner →
      merges found inner result → merges found inner another → result = another)
    (first : MergesUnder merges base override value)
    (second : MergesUnder merges base override other) : value = other := by
  cases first with
  | kept found =>
      cases second
      rfl
  | added override =>
      cases second
      rfl
  | merged made =>
      cases second with
      | merged again => rw [each _ _ _ _ rfl rfl made again]

private theorem mergeEntries_iff_of_each {leading : String} (baseDistinct : base.DistinctKeys)
    (distinct : overrides.DistinctKeys)
    (each : ∀ key found override, base.lookup key = some found →
      overrides.lookup key = some override → ∀ place value,
        mergeValue place found override = .ok value ↔ Merges found override value) :
    mergeEntries leading base overrides = .ok merged ↔
      Merges (.object base) (.object overrides) (.object merged) := by
  have sound {made : Entries Value} (done : mergeEntries leading base overrides = .ok made) :
      SharesWritable base overrides ∧ made.map (·.1) = mergedKeys base overrides ∧ ∀ key,
        MergesUnder Merges (base.lookup key) (overrides.lookup key) (made.lookup key) := by
    refine merged_of_mergeEntries distinct ?_ done
    intro place key found override value inBase inOverrides valued
    exact (each key found override inBase inOverrides place value).mp valued
  constructor
  · intro done
    obtain ⟨shares, keys, under⟩ := sound done
    exact .objects shares keys under
  · intro merges
    cases merges with
    | replaced plain _ => cases plain
    | objects shares keys under =>
        obtain ⟨made, done⟩ := exists_mergeEntries leading distinct shares (by
          intro key found override inBase inOverrides place
          have both := under key
          rw [inBase, inOverrides] at both
          generalize lookup key merged = after at both
          cases both with
          | merged merges =>
              exact ⟨_, (each key found override inBase inOverrides place _).mpr merges⟩)
        obtain ⟨_, madeKeys, madeUnder⟩ := sound done
        have same : made = merged := by
          refine (distinctKeys_of_mergedKeys baseDistinct distinct madeKeys).ext
            (madeKeys.trans keys.symm) fun key => ?_
          refine (madeUnder key).unique ?_ (under key)
          intro found override result another inBase inOverrides first second
          have valued := (each key found override inBase inOverrides "" result).mpr first
          have valuedAgain := (each key found override inBase inOverrides "" another).mpr second
          rw [valued] at valuedAgain
          exact Except.ok.inj valuedAgain
        rw [← same]
        exact done

/-- For trees without duplicate keys a merge succeeds exactly with what the rules allow. -/
theorem mergeValue_eq_ok_iff {base override : Value} (baseDistinct : base.DistinctKeys)
    (distinct : override.DistinctKeys) (place : String) {value : Value} :
    mergeValue place base override = .ok value ↔ Merges base override value := by
  induction override using Value.induction generalizing base place value with
  | scalar scalar =>
      have plain : (base.isObject && (Value.scalar scalar).isObject) = false := by
        simp [Value.isObject]
      rw [mergeValue_of_not_objects place plain, merges_iff_of_not_objects plain]
      cases replaceable base (.scalar scalar) <;> simp [eq_comm]
  | array items =>
      have plain : (base.isObject && (Value.array items).isObject) = false := by
        simp [Value.isObject]
      rw [mergeValue_of_not_objects place plain, merges_iff_of_not_objects plain]
      cases replaceable base (.array items) <;> simp [eq_comm]
  | object overrides ih =>
      cases base with
      | object base =>
          have entries (merged : Entries Value) :
              mergeEntries (place ++ ".") base overrides = .ok merged ↔
                Merges (.object base) (.object overrides) (.object merged) := by
            refine mergeEntries_iff_of_each baseDistinct.keys distinct.keys ?_
            intro key found override inBase inOverrides place value
            obtain ⟨entry, member, rfl⟩ := exists_mem_of_lookup inOverrides
            exact ih entry member (baseDistinct.lookup inBase) (distinct.lookup inOverrides) place
          rw [mergeValue_objects_eq_ok_iff]
          constructor
          · rintro ⟨merged, done, rfl⟩
            exact (entries merged).mp done
          · intro merges
            obtain ⟨merged, rfl, _⟩ := merges_objects_iff.mp merges
            exact ⟨merged, (entries merged).mpr merges, rfl⟩
      | scalar scalar | array items =>
          rw [mergeValue_of_not_objects place rfl, merges_iff_of_not_objects rfl]
          split <;> simp [*, eq_comm]

theorem Merges.unique {base override value other : Value} (baseDistinct : base.DistinctKeys)
    (distinct : override.DistinctKeys) (first : Merges base override value)
    (second : Merges base override other) : value = other := by
  have valued := (mergeValue_eq_ok_iff baseDistinct distinct "").mpr first
  rw [(mergeValue_eq_ok_iff baseDistinct distinct "").mpr second] at valued
  exact (Except.ok.inj valued).symm

theorem mergeEntries_eq_ok_iff (leading : String)
    (baseDistinct : (Value.object base).DistinctKeys)
    (distinct : (Value.object overrides).DistinctKeys) :
    mergeEntries leading base overrides = .ok merged ↔
      Merges (.object base) (.object overrides) (.object merged) := by
  refine mergeEntries_iff_of_each baseDistinct.keys distinct.keys ?_
  intro key found override inBase inOverrides place value
  exact mergeValue_eq_ok_iff (baseDistinct.lookup inBase) (distinct.lookup inOverrides) place

/-- Two objects can be merged if everything can be that stands under a key of both, and if these
keys can be written. -/
theorem exists_merges_objects (baseDistinct : (Value.object base).DistinctKeys)
    (distinct : (Value.object overrides).DistinctKeys) (shares : SharesWritable base overrides)
    (below : ∀ key found override, base.lookup key = some found →
      overrides.lookup key = some override → ∃ value, Merges found override value) :
    ∃ merged, Merges (.object base) (.object overrides) (.object merged) := by
  obtain ⟨merged, done⟩ := exists_mergeEntries "" distinct.keys shares (by
    intro key found override inBase inOverrides place
    obtain ⟨value, merges⟩ := below key found override inBase inOverrides
    exact ⟨value, (mergeValue_eq_ok_iff (baseDistinct.lookup inBase)
      (distinct.lookup inOverrides) place).mpr merges⟩)
  exact ⟨merged, (mergeEntries_eq_ok_iff "" baseDistinct distinct).mp done⟩

theorem MergesUnder.isSome {base override value : Option Value}
    (under : MergesUnder merges base override value) :
    value.isSome = (base.isSome || override.isSome) := by
  cases under <;> simp

theorem Merges.contains (made : Merges (.object base) (.object overrides) (.object merged))
    (key : Scalar) : merged.contains key = (base.contains key || overrides.contains key) := by
  cases made with
  | replaced plain _ => cases plain
  | objects _ _ under =>
      rw [contains_eq_isSome_lookup, contains_eq_isSome_lookup, contains_eq_isSome_lookup]
      exact (under key).isSome

theorem Merges.distinctKeys {base override value : Value} (baseDistinct : base.DistinctKeys)
    (distinct : override.DistinctKeys) (made : Merges base override value) :
    value.DistinctKeys := by
  induction override using Value.induction generalizing base value with
  | scalar scalar | array items =>
      obtain ⟨_, rfl⟩ := (merges_iff_of_not_objects (by simp [Value.isObject])).mp made
      exact distinct
  | object overrides ih =>
      cases made with
      | replaced => exact distinct
      | objects _ keys under =>
          have own := distinctKeys_of_mergedKeys baseDistinct.keys distinct.keys keys
          refine .object own fun entry member => ?_
          have both := under entry.1
          have found : Entries.lookup entry.1 _ = some entry.2 := own.lookup_of_mem member
          rw [found] at both
          generalize inBase : Entries.lookup entry.1 _ = before at both
          generalize inOverrides : Entries.lookup entry.1 overrides = override at both
          cases both with
          | kept => exact baseDistinct.lookup inBase
          | added => exact distinct.lookup inOverrides
          | merged made =>
              obtain ⟨inner, innerMember, rfl⟩ := exists_mem_of_lookup inOverrides
              exact ih inner innerMember (baseDistinct.lookup inBase)
                (distinct.lookup inOverrides) made

/-- A configuration is merged with overrides exactly as the rules say. -/
theorem merge_eq_ok_iff (baseDistinct : (Value.object base).DistinctKeys)
    (distinct : (Value.object overrides).DistinctKeys) {value : Value} :
    merge (.object base) (.object overrides) = .ok value ↔
      Merges (.object base) (.object overrides) value := by
  have entries (merged : Entries Value) : mergeEntries "" base overrides = .ok merged ↔
      Merges (.object base) (.object overrides) (.object merged) :=
    mergeEntries_eq_ok_iff "" baseDistinct distinct
  rw [merge]
  constructor
  · intro done
    obtain ⟨merged, made, rfl⟩ := Outcome.map_eq_ok_iff.mp done
    exact (entries merged).mp made
  · intro merges
    obtain ⟨merged, rfl, _⟩ := merges_objects_iff.mp merges
    exact Outcome.map_eq_ok_iff.mpr ⟨merged, (entries merged).mpr merges, rfl⟩

end Config

end Uplift
