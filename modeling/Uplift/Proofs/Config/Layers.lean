import Uplift.Config.Defaults
import Uplift.Proofs.Config.Conflict

/-!
# Layers of configurations compose

Three layers come to the same in whichever order neighbours are merged, as long as the lower two can
be merged first. An empty layer says nothing. A layer that is put on top once more adds nothing, if
its keys can be written: all of them are shared then.
The layer in the middle carries the induction: only what it has in common with a neighbour is
merged before the third layer is reached.
-/

set_option autoImplicit false

namespace Uplift

namespace Config

open Entries

variable {first second third lower whole : Value}

/-- What replaces one value and is replaced by another leaves the way free for that one. -/
theorem replaceable_trans (one : replaceable first second = true)
    (two : replaceable second third = true) : replaceable first third = true := by
  rw [replaceable_iff] at one two ⊢
  rcases one with null | list | same
  · exact .inl null
  · rcases two with rfl | other | type
    · cases list
    · exact .inr (.inl other)
    · rw [← Value.typeName_eq_list_iff] at list ⊢
      exact .inr (.inl (type.symm.trans list))
  · rcases two with rfl | other | type
    · exact .inl (Value.typeName_eq_none_iff.mp same)
    · exact .inr (.inl other)
    · exact .inr (.inr (same.trans type))

/-- An object is not merged with another one across a value that is none. -/
theorem not_objects_of_replaceable (between : second.isObject = false)
    (one : replaceable first second = true) (two : replaceable second third = true) :
    (first.isObject && third.isObject) = false := by
  rw [Bool.and_eq_false_iff]
  rcases replaceable_iff.mp one with rfl | list | same
  · exact .inl rfl
  · have other : third.isArray = true := by
      rcases replaceable_iff.mp two with rfl | other | type
      · cases list
      · exact other
      · rw [← Value.typeName_eq_list_iff] at list ⊢
        exact type.symm.trans list
    refine .inr ?_
    rw [Bool.eq_false_iff, Ne, ← Value.typeName_eq_dict_iff, Value.typeName_eq_list_iff.mpr other]
    decide
  · refine .inl ?_
    rw [Bool.eq_false_iff, Ne, ← Value.typeName_eq_dict_iff, same, Value.typeName_eq_dict_iff,
      between]
    exact Bool.false_ne_true

/-- Under one key, what the middle layer has there carries the claim to the whole. -/
theorem mergesUnder_assoc {first second third lower whole : Option Value}
    (each : ∀ one middle three low all, first = some one → second = some middle →
      third = some three → Merges one middle low → Merges low three all →
      ∃ upper, Merges middle three upper ∧ Merges one upper all)
    (onto : MergesUnder Merges first second lower)
    (further : MergesUnder Merges lower third whole) :
    ∃ upper, MergesUnder Merges second third upper ∧ MergesUnder Merges first upper whole := by
  cases onto with
  | kept =>
      cases further with
      | kept => exact ⟨none, .kept _, .kept _⟩
      | added override => exact ⟨_, .added _, .added _⟩
      | merged made => exact ⟨_, .added _, .merged made⟩
  | added override =>
      cases further with
      | kept => exact ⟨_, .kept _, .added _⟩
      | merged made => exact ⟨_, .merged made, .added _⟩
  | merged made =>
      cases further with
      | kept => exact ⟨_, .kept _, .merged made⟩
      | merged again =>
          obtain ⟨upper, merged, whole⟩ := each _ _ _ _ _ rfl rfl rfl made again
          exact ⟨_, .merged merged, .merged whole⟩

/-- What the upper layers have in common with the first one, one of them has in common with what is
below it. -/
theorem sharesWritable_of_mergedKeys {first second third lower upper : Entries Value}
    (onto : SharesWritable first second) (further : SharesWritable lower third)
    (present : ∀ key, lower.contains key = (first.contains key || second.contains key))
    (upperKeys : upper.map (·.1) = mergedKeys second third) : SharesWritable first upper := by
  intro key member shared
  rw [upperKeys] at member
  rcases List.mem_append.mp member with inSecond | fresh
  · exact onto key inSecond shared
  · exact further key (List.mem_filter.mp fresh).1 (by rw [present, shared, Bool.true_or])

theorem mergedKeys_assoc {first second third lower upper : Entries Value}
    (lowerKeys : lower.map (·.1) = mergedKeys first second)
    (upperKeys : upper.map (·.1) = mergedKeys second third)
    (present : ∀ key, lower.contains key = (first.contains key || second.contains key)) :
    mergedKeys lower third = mergedKeys first upper := by
  unfold mergedKeys at *
  rw [lowerKeys, upperKeys, List.append_assoc, List.filter_append, List.filter_filter]
  simp only [present, Bool.not_or]

private theorem merges_objects_assoc {first second third : Entries Value}
    (secondDistinct : (Value.object second).DistinctKeys)
    (thirdDistinct : (Value.object third).DistinctKeys)
    (each : ∀ key one middle three low all, first.lookup key = some one →
      second.lookup key = some middle → third.lookup key = some three →
      Merges one middle low → Merges low three all →
      ∃ upper, Merges middle three upper ∧ Merges one upper all)
    (onto : Merges (.object first) (.object second) lower)
    (further : Merges lower (.object third) whole) :
    ∃ upper, Merges (.object second) (.object third) upper ∧
      Merges (.object first) upper whole := by
  obtain ⟨lower, rfl, lowerShares, lowerKeys, lowerUnder⟩ := merges_objects_iff.mp onto
  obtain ⟨whole, rfl, wholeShares, wholeKeys, wholeUnder⟩ := merges_objects_iff.mp further
  have under (key : Scalar) := mergesUnder_assoc (each key) (lowerUnder key) (wholeUnder key)
  have upperShares : SharesWritable second third := fun key member shared =>
    wholeShares key member (by rw [onto.contains, shared, Bool.or_true])
  obtain ⟨upper, made⟩ := exists_merges_objects secondDistinct thirdDistinct upperShares (by
    intro key found override inSecond inThird
    obtain ⟨upper, merged, _⟩ := under key
    rw [inSecond, inThird] at merged
    cases merged with
    | merged made => exact ⟨_, made⟩)
  obtain ⟨_, same, _, upperKeys, upperUnder⟩ := merges_objects_iff.mp made
  cases same
  refine ⟨.object upper, made, .objects ?_ ?_ fun key => ?_⟩
  · exact sharesWritable_of_mergedKeys lowerShares wholeShares onto.contains upperKeys
  · rw [wholeKeys, mergedKeys_assoc lowerKeys upperKeys onto.contains]
  · obtain ⟨value, merged, result⟩ := under key
    have same : lookup key upper = value := by
      refine (upperUnder key).unique ?_ merged
      intro found override one another inSecond inThird made again
      exact made.unique (secondDistinct.lookup inSecond) (thirdDistinct.lookup inThird) again
    rw [same]
    exact result

theorem merges_assoc (firstDistinct : first.DistinctKeys) (secondDistinct : second.DistinctKeys)
    (thirdDistinct : third.DistinctKeys) (onto : Merges first second lower)
    (further : Merges lower third whole) :
    ∃ upper, Merges second third upper ∧ Merges first upper whole := by
  -- By induction on the middle layer, which is in both of the merges that are made in the end.
  induction second using Value.induction generalizing first third lower whole with
  | scalar scalar | array items =>
      obtain ⟨one, rfl⟩ := (merges_iff_of_not_objects (by simp [Value.isObject])).mp onto
      obtain ⟨two, rfl⟩ := (merges_iff_of_not_objects rfl).mp further
      exact ⟨whole, further, .replaced (not_objects_of_replaceable rfl one two)
        (replaceable_trans one two)⟩
  | object second ih =>
      cases first with
      | scalar scalar | array items =>
          obtain ⟨one, rfl⟩ := (merges_iff_of_not_objects rfl).mp onto
          refine ⟨whole, further, .replaced rfl ?_⟩
          rcases replaceable_iff.mp one with null | list | same
          · exact replaceable_iff.mpr (.inl null)
          · cases list
          · cases Value.typeName_eq_dict_iff.mp same
      | object first =>
          cases third with
          | scalar scalar | array items =>
              obtain ⟨_, rfl, _⟩ := merges_objects_iff.mp onto
              obtain ⟨two, rfl⟩ := (merges_iff_of_not_objects rfl).mp further
              exact ⟨_, .replaced rfl two, .replaced rfl two⟩
          | object third =>
              refine merges_objects_assoc secondDistinct thirdDistinct ?_ onto further
              intro key one middle three low all inFirst inSecond inThird
              obtain ⟨entry, member, rfl⟩ := exists_mem_of_lookup inSecond
              exact ih entry member (firstDistinct.lookup inFirst) (secondDistinct.lookup inSecond)
                (thirdDistinct.lookup inThird)

theorem mergedKeys_of_contained {base overrides : Entries Value}
    (contained : ∀ key, overrides.contains key = true → base.contains key = true) :
    mergedKeys base overrides = base.map (·.1) := by
  have none : (overrides.map (·.1)).filter (fun key => !base.contains key) = [] := by
    refine List.filter_eq_nil_iff.mpr fun key member => ?_
    obtain ⟨entry, inOverrides, rfl⟩ := List.mem_map.mp member
    have present : overrides.contains entry.1 = true :=
      List.any_eq_true.mpr ⟨entry, inOverrides, Scalar.sameKey_refl _⟩
    simp [contained _ present]
  rw [mergedKeys, none, List.append_nil]

/-- What is merged once more becomes what it became before. -/
theorem mergesUnder_again {first second lower again : Option Value}
    (each : ∀ base override value result, second = some override → lower = some value →
      Merges base override value → Merges value override result → result = value)
    (onto : MergesUnder Merges first second lower)
    (further : MergesUnder Merges lower second again) : again = lower := by
  cases onto with
  | kept => exact further.eq_of_absent
  | added override =>
      cases further with
      -- What was added before meets itself, as it would if it had replaced null.
      | merged made => rw [each .null override override _ rfl rfl (.replaced rfl rfl) made]
  | merged made =>
      cases further with
      | merged again => rw [each _ _ _ _ rfl rfl made again]

theorem merges_again {again : Value} (secondDistinct : second.DistinctKeys)
    (lowerDistinct : lower.DistinctKeys) (onto : Merges first second lower)
    (further : Merges lower second again) : again = lower := by
  induction second using Value.induction generalizing first lower again with
  | scalar scalar | array items =>
      obtain ⟨_, rfl⟩ := (merges_iff_of_not_objects (by simp [Value.isObject])).mp onto
      obtain ⟨_, rfl⟩ := (merges_iff_of_not_objects (by simp [Value.isObject])).mp further
      rfl
  | object second ih =>
      have below := (MergesUnder.merged onto).below rfl
      obtain ⟨_, same, opened⟩ := (MergesUnder.merged onto).exists_object rfl
      cases same
      cases lower with
      | scalar scalar | array items => cases opened
      | object lower =>
          simp only [Option.bind_some, Value.entries] at below
          have againDistinct := further.distinctKeys lowerDistinct secondDistinct
          obtain ⟨again, rfl, _, keys, under⟩ := merges_objects_iff.mp further
          have contained (key : Scalar) (present : contains key second = true) :
              contains key lower = true := by
            rw [contains_eq_isSome_lookup] at present ⊢
            rw [(below key).isSome, present, Bool.or_true]
          rw [mergedKeys_of_contained contained] at keys
          refine congrArg Value.object (againDistinct.keys.ext keys fun key => ?_)
          refine mergesUnder_again ?_ (below key) (under key)
          intro base override value result inSecond inLower made again
          obtain ⟨entry, member, rfl⟩ := exists_mem_of_lookup inSecond
          exact ih entry member (secondDistinct.lookup inSecond) (lowerDistinct.lookup inLower)
            made again

/-- What an override has at a path is of the type of what is merged there. -/
theorem MergesUnder.exists_typeName {base merged : Option Value} {given : Value}
    (under : MergesUnder Merges base (some given) merged) :
    ∃ value, merged = some value ∧ value.typeName = given.typeName := by
  cases opened : given.isObject with
  | true =>
      obtain ⟨value, same, object⟩ := under.exists_object opened
      rw [← Value.typeName_eq_dict_iff] at opened object
      exact ⟨value, same, object.trans opened.symm⟩
  | false => exact ⟨given, under.eq_of_not_object opened, rfl⟩

/-- Nothing but a key of too many digits is in the way of an override that has been merged. -/
theorem obstacle?_again (leading : String) (secondDistinct : second.DistinctKeys)
    (onto : Merges first second lower) {place : List Scalar × Value}
    (member : place ∈ second.places) :
    obstacle? leading lower place =
      if place.1.all Scalar.isWritable then none else some .overlongKey := by
  have reached := reach?_of_mem_places secondDistinct member
  obtain ⟨found, inLower, same⟩ := (onto.reach reached).exists_typeName
  have fits : clashes found place.2 = false :=
    clashes_eq_false_iff.mpr fun _ differ => absurd same differ
  rw [obstacle?, inLower]
  cases place.1.all Scalar.isWritable <;> simp [fits]

theorem findSome?_unless {α β : Type} (accepts : α → Bool) (error : β) (items : List α) :
    items.findSome? (fun item => if accepts item then none else some error) =
      if items.all accepts then none else some error := by
  induction items with
  | nil => rfl
  | cons item rest ih =>
      rw [List.findSome?_cons, ih, List.all_cons]
      cases accepts item <;> rfl

theorem merge_again {first second : Entries Value} {lower : Value}
    (firstDistinct : (Value.object first).DistinctKeys)
    (secondDistinct : (Value.object second).DistinctKeys)
    (merged : merge (.object first) (.object second) = .ok lower) :
    merge lower (.object second) =
      if (Value.object second).places.all (·.1.all Scalar.isWritable) then .ok lower
      else .error .overlongKey := by
  have onto := (merge_eq_ok_iff firstDistinct secondDistinct).mp merged
  have lowerDistinct := onto.distinctKeys firstDistinct secondDistinct
  obtain ⟨lower, rfl, _⟩ := merges_objects_iff.mp onto
  have error : Outcome.error? (merge (.object lower) (.object second)) =
      if (Value.object second).places.all (·.1.all Scalar.isWritable) then none
      else some .overlongKey := by
    rw [error?_merge secondDistinct, ← findSome?_unless]
    exact findSome?_congr_of_mem fun place member => obstacle?_again "" secondDistinct onto member
  split at error
  case isTrue writable =>
    obtain ⟨again, made⟩ := Outcome.exists_eq_ok_iff.mpr error
    have further := (merge_eq_ok_iff lowerDistinct secondDistinct).mp made
    rw [if_pos writable, made, merges_again secondDistinct lowerDistinct onto further]
  case isFalse overlong => rw [if_neg overlong, Outcome.eq_error_iff.mpr error]

theorem merges_empty (entries : Entries Value) :
    Merges (.object entries) (.object []) (.object entries) :=
  .objects nofun (by simp [mergedKeys]) fun _ => .kept _

theorem merges_onto_empty (entries : Entries Value) :
    Merges (.object []) (.object entries) (.object entries) := by
  refine .objects nofun (by simp [mergedKeys, Entries.contains]) fun key => ?_
  cases entries.lookup key with
  | none => exact .kept _
  | some value => exact .added value

/-- Configurations can be merged from above if they can be merged from below, and come to the
same. -/
theorem merge_layers {first second third : Entries Value}
    (firstDistinct : (Value.object first).DistinctKeys)
    (secondDistinct : (Value.object second).DistinctKeys)
    (thirdDistinct : (Value.object third).DistinctKeys) :
    (∀ lower whole, merge (.object first) (.object second) = .ok lower →
      merge lower (.object third) = .ok whole →
        ∃ upper, merge (.object second) (.object third) = .ok upper ∧
          merge (.object first) upper = .ok whole) ∧
      merge (.object first) (.object []) = .ok (.object first) ∧
      merge (.object []) (.object first) = .ok (.object first) ∧
      ∀ lower, merge (.object first) (.object second) = .ok lower →
        merge lower (.object second) =
          if (Value.object second).places.all (·.1.all Scalar.isWritable) then .ok lower
          else .error .overlongKey := by
  refine ⟨?_, ?_, ?_, ?_⟩
  · intro lower whole merged further
    have onto := (merge_eq_ok_iff firstDistinct secondDistinct).mp merged
    obtain ⟨lower, rfl, _⟩ := merges_objects_iff.mp onto
    have lowerDistinct := onto.distinctKeys firstDistinct secondDistinct
    have both := (merge_eq_ok_iff lowerDistinct thirdDistinct).mp further
    obtain ⟨upper, made, result⟩ :=
      merges_assoc firstDistinct secondDistinct thirdDistinct onto both
    obtain ⟨upper, rfl, _⟩ := merges_objects_iff.mp made
    have upperDistinct := made.distinctKeys secondDistinct thirdDistinct
    exact ⟨_, (merge_eq_ok_iff secondDistinct thirdDistinct).mpr made,
      (merge_eq_ok_iff firstDistinct upperDistinct).mpr result⟩
  · exact (merge_eq_ok_iff firstDistinct .empty).mpr (merges_empty first)
  · exact (merge_eq_ok_iff .empty firstDistinct).mpr (merges_onto_empty first)
  · exact fun lower merged => merge_again firstDistinct secondDistinct merged

def shippedLayer : Entries Value :=
  [(.text "engine", object [("limit", .null), ("stamp", .bool true)]), (.int 1, .text "one")]

def siteLayer : Entries Value :=
  [(.bool true, .text "yes"), (.text "engine", object [("limit", object [("low", .int 1)])]),
    (.text "families", .array [.text "chain"])]

def hostLayer : Entries Value :=
  [(.text "families", .array []), (.null, .int 0),
    (.text "engine", object [("stamp", .array []), ("limit", object [("high", .int 2)])])]

/-- A layer that can be put on top of others only once. -/
def overlongLayer : Entries Value :=
  [(.int (tenTo Fault.digitLimit), .int 1)]

theorem merge_layers_ofHost :
    (∃ upper, merge (.object siteLayer) (.object hostLayer) = .ok upper ∧
      merge (.object shippedLayer) upper = .ok (.object
        [(.text "engine", object [("limit", object [("low", .int 1), ("high", .int 2)]),
            ("stamp", .array [])]),
          (.int 1, .text "yes"), (.text "families", .array []), (.null, .int 0)])) ∧
      merge (.object []) (.object overlongLayer) = .ok (.object overlongLayer) ∧
      merge (.object overlongLayer) (.object overlongLayer) = .error .overlongKey := by
  have shipped : (Value.object shippedLayer).DistinctKeys := by
    simp [shippedLayer, object, Entries.DistinctKeys, Scalar.key]
  have site : (Value.object siteLayer).DistinctKeys := by
    simp [siteLayer, object, Entries.DistinctKeys, Scalar.key]
  have host : (Value.object hostLayer).DistinctKeys := by
    simp [hostLayer, object, Entries.DistinctKeys, Scalar.key]
  have lower : merge (.object shippedLayer) (.object siteLayer) = .ok (.object
      [(.text "engine", object [("limit", object [("low", .int 1)]), ("stamp", .bool true)]),
        (.int 1, .text "yes"), (.text "families", .array [.text "chain"])]) := by
    simp [merge, mergeEntries, mergeValue, placeOf, shippedLayer, siteLayer, object, lookup, put,
      contains, Scalar.isWritable, Scalar.sameKey, Scalar.key, replaceable, Value.typeName,
      Scalar.typeName, bind, Except.bind, Except.map]
  have overlong : (Value.object overlongLayer).DistinctKeys :=
    .object (List.pairwise_singleton _ _) (List.forall_mem_singleton.mpr (.scalar _))
  have once : merge (.object []) (.object overlongLayer) = .ok (.object overlongLayer) := rfl
  have unwritable :
      (Value.object overlongLayer).places.all (·.1.all Scalar.isWritable) = false := by
    decide +kernel
  obtain ⟨compose, _⟩ := merge_layers shipped site host
  obtain ⟨_, _, _, again⟩ := merge_layers .empty overlong overlong
  refine ⟨compose _ _ lower ?_, once, ?_⟩
  · simp [merge, mergeEntries, mergeValue, placeOf, hostLayer, object, lookup, put, contains,
      Scalar.isWritable, Scalar.sameKey, Scalar.key, replaceable, Value.isArray, bind, Except.bind,
      Except.map]
  · rw [again _ once, unwritable, if_neg Bool.false_ne_true]

end Config

end Uplift
