import Uplift.Config.Defaults
import Uplift.Proofs.Config.Precedence
import Uplift.Proofs.Scalar.Writable

/-!
# The first conflict ends a merge

Overrides are merged in depth-first order: an entry first, and then what its value places below. A
place is in the way of a merge if it cannot be named, or if the types on both sides clash there and
the override is no array. The first such place ends the merge with its conflict, and without one the
merge succeeds.
-/

set_option autoImplicit false

namespace Uplift

mutual

/-- What a value places below itself, with the keys that lead to it, in depth-first order. -/
def Value.places : Value → List (List Scalar × Value)
  | .object entries => Entries.places entries
  | _ => []

def Entries.places : List (Scalar × Value) → List (List Scalar × Value)
  | [] => []
  | (key, value) :: rest =>
      ([key], value) :: (value.places.map fun place => (key :: place.1, place.2)) ++
        Entries.places rest

end

namespace Config

open Entries

/-- The base has something else than null, the types differ, and the override is no array. -/
def clashes (base override : Value) : Bool :=
  match base with
  | .null => false
  | _ => base.typeName != override.typeName && !override.isArray

/-- The place that some keys lead to, as conflicts name it. -/
def dotted (keys : List Scalar) : String :=
  ".".intercalate (keys.map Scalar.shown)

/-- What is in the way of an override at its place. -/
def obstacle? (leading : String) (base : Value) (place : List Scalar × Value) :
    Option MergeConflict :=
  match base.reach? place.1 with
  | none => none
  | some found =>
      if !place.1.all Scalar.isWritable then some .overlongKey
      else if clashes found place.2 then
        some (.types (leading ++ dotted place.1) found.typeName place.2.typeName)
      else none

variable {base overrides : Entries Value} {found given : Value} {key : Scalar} {keys : List Scalar}
  {place : List Scalar × Value}

theorem places_eq_flatMap (entries : Entries Value) :
    Entries.places entries = entries.flatMap fun entry =>
      ([entry.1], entry.2) :: entry.2.places.map fun place => (entry.1 :: place.1, place.2) := by
  induction entries with
  | nil => rfl
  | cons entry rest ih =>
      rw [Entries.places, ih, List.flatMap_cons]

theorem exists_entry_of_mem_places {entries : Entries Value}
    (member : place ∈ Entries.places entries) : ∃ entry ∈ entries,
      place = ([entry.1], entry.2) ∨
        ∃ below ∈ entry.2.places, place = (entry.1 :: below.1, below.2) := by
  rw [places_eq_flatMap] at member
  obtain ⟨entry, inEntries, placed⟩ := List.mem_flatMap.mp member
  refine ⟨entry, inEntries, (List.mem_cons.mp placed).imp_right fun deeper => ?_⟩
  obtain ⟨below, inValue, same⟩ := List.mem_map.mp deeper
  exact ⟨below, inValue, same.symm⟩

theorem ne_nil_of_mem_places {value : Value} (member : place ∈ value.places) : place.1 ≠ [] := by
  cases value with
  | scalar scalar | array items => cases member
  | object entries =>
      obtain ⟨entry, _, rfl | ⟨below, _, rfl⟩⟩ := exists_entry_of_mem_places member
      · exact List.cons_ne_nil _ _
      · exact List.cons_ne_nil _ _

/-- Without duplicate keys, the keys in front of a place lead to what is placed there. -/
theorem reach?_of_mem_places {value : Value} (distinct : value.DistinctKeys)
    (member : place ∈ value.places) : value.reach? place.1 = some place.2 := by
  induction value using Value.induction generalizing place with
  | scalar scalar | array items => cases member
  | object entries ih =>
      obtain ⟨entry, inEntries, placed⟩ := exists_entry_of_mem_places member
      have found := distinct.keys.lookup_of_mem inEntries
      rcases placed with rfl | ⟨below, inValue, rfl⟩
      · rw [Value.reach?_cons_object, found, Option.bind_some, Value.reach?_nil]
      · rw [Value.reach?_cons_object, found, Option.bind_some]
        exact ih entry inEntries (distinct.lookup found) inValue

/-- What some keys lead to has a place, though the keys may be spelled in another way there. -/
theorem exists_mem_places {value : Value} (more : keys ≠ [])
    (reached : value.reach? keys = some given) :
    ∃ place ∈ value.places,
      List.Forall₂ (Scalar.sameKey · · = true) keys place.1 ∧ place.2 = given := by
  induction keys generalizing value with
  | nil => exact absurd rfl more
  | cons key rest ih =>
      cases value with
      | scalar scalar | array items => cases reached
      | object entries =>
          rw [Value.reach?_cons_object] at reached
          obtain ⟨inner, found, below⟩ := Option.bind_eq_some_iff.mp reached
          obtain ⟨entry, member, same, rfl⟩ := exists_sameKey_of_lookup found
          rw [Value.places, places_eq_flatMap]
          cases rest with
          | nil =>
              rw [Value.reach?_nil] at below
              exact ⟨_, List.mem_flatMap.mpr ⟨entry, member, .head _⟩, .cons same .nil,
                Option.some.inj below⟩
          | cons next rest =>
              obtain ⟨place, placed, spelled, leads⟩ := ih (List.cons_ne_nil _ _) below
              exact ⟨_, List.mem_flatMap.mpr ⟨entry, member, .tail _ (List.mem_map_of_mem placed)⟩,
                .cons same spelled, leads⟩

theorem reach?_congr {others : List Scalar}
    (same : List.Forall₂ (Scalar.sameKey · · = true) keys others) (value : Value) :
    value.reach? keys = value.reach? others := by
  induction same generalizing value with
  | nil => rfl
  | cons head _ ih =>
      rw [Value.reach?_cons, Value.reach?_cons, lookup_congr head]
      exact Option.bind_congr fun below _ => ih below

theorem clashes_eq_false_iff : clashes found given = false ↔
    (found ≠ .null → found.typeName ≠ given.typeName → given.isArray = true) := by
  cases found with
  | scalar scalar => cases scalar <;> simp [clashes]
  | array items => simp [clashes]
  | object entries => simp [clashes]

theorem replaceable_eq (found given : Value) : replaceable found given = !clashes found given := by
  rw [Bool.eq_iff_iff, replaceable_iff, Bool.not_eq_true', clashes_eq_false_iff]
  tauto

/-- What is in the way of an override that meets a value of the base at a place. -/
def conflict? (place : String) (found given : Value) : Option MergeConflict :=
  if clashes found given then some (.types place found.typeName given.typeName)
  else given.places.findSome? (obstacle? (place ++ ".") found)

theorem dotted_cons (more : keys ≠ []) (leading : String) (key : Scalar) :
    leading ++ dotted (key :: keys) = leading ++ key.shown ++ "." ++ dotted keys := by
  have shown : keys.map Scalar.shown ≠ [] := by simpa using more
  rw [dotted, List.map_cons, String.intercalate_cons_of_ne_nil shown, dotted]
  simp only [String.append_assoc]

theorem obstacle?_of_absent (absent : base.lookup key = none) (leading : String) :
    obstacle? leading (.object base) (key :: keys, given) = none := by
  simp [obstacle?, absent]

theorem obstacle?_at (inBase : base.lookup key = some found) (leading : String) (given : Value) :
    obstacle? leading (.object base) ([key], given) =
      if !key.isWritable then some .overlongKey
      else if clashes found given then
        some (.types (leading ++ key.shown) found.typeName given.typeName)
      else none := by
  simp [obstacle?, inBase, dotted]

theorem obstacle?_below (inBase : base.lookup key = some found) (writable : key.isWritable = true)
    (leading : String) (more : place.1 ≠ []) :
    obstacle? leading (.object base) (key :: place.1, place.2) =
      obstacle? (leading ++ key.shown ++ ".") found place := by
  simp only [obstacle?, Value.reach?_cons_object, inBase, Option.bind_some, List.all_cons, writable,
    Bool.true_and, dotted_cons more]

theorem findSome?_congr_of_mem {α β : Type} {items : List α} {find other : α → Option β}
    (same : ∀ item ∈ items, find item = other item) :
    items.findSome? find = items.findSome? other := by
  induction items with
  | nil => rfl
  | cons item rest ih =>
      obtain ⟨head, tail⟩ := List.forall_mem_cons.mp same
      rw [List.findSome?_cons, List.findSome?_cons, head, ih tail]

/-- The first obstacle of an entry is the conflict of what is merged under its key. -/
theorem findSome?_entry (leading : String) (base : Entries Value) (key : Scalar)
    (each : ∀ place found, Outcome.error? (mergeValue place found given) =
      conflict? place found given) :
    List.findSome? (obstacle? leading (.object base))
        (([key], given) :: given.places.map fun place => (key :: place.1, place.2)) =
      Outcome.error? (mergeUnder leading key (base.lookup key) given) := by
  rw [List.findSome?_cons, List.findSome?_map]
  cases inBase : base.lookup key with
  | none =>
      rw [obstacle?_of_absent inBase]
      exact List.findSome?_eq_none_iff.mpr fun place _ => obstacle?_of_absent inBase _
  | some found =>
      rw [obstacle?_at inBase, mergeUnder, placeOf]
      cases writable : key.isWritable with
      | false => rfl
      | true =>
          have deeper : given.places.findSome?
              (obstacle? leading (.object base) ∘ fun place => (key :: place.1, place.2)) =
                given.places.findSome? (obstacle? (leading ++ key.shown ++ ".") found) :=
            findSome?_congr_of_mem fun place member =>
              obstacle?_below inBase writable leading (ne_nil_of_mem_places member)
          rw [deeper]
          refine Eq.trans ?_ (each (leading ++ key.shown) found).symm
          rw [conflict?]
          cases clashes found given <;> rfl

/-- Once an entry is merged, what is in the way of those behind it is what was before. -/
theorem obstacle?_put {first : Value} {rest : Entries Value}
    (distinct : Entries.DistinctKeys ((key, first) :: rest)) (member : place ∈ Entries.places rest)
    (leading : String) (base : Entries Value) (value : Value) :
    obstacle? leading (.object (base.put key value)) place =
      obstacle? leading (.object base) place := by
  obtain ⟨entry, inRest, placed⟩ := exists_entry_of_mem_places member
  have different : key.sameKey entry.1 = false := by
    obtain ⟨_, restDistinct⟩ := List.nodup_cons.mp distinct
    rw [Bool.eq_false_iff]
    intro same
    have absent := distinct.lookup_tail same
    rw [Entries.DistinctKeys.lookup_of_mem restDistinct inRest] at absent
    cases absent
  have found := lookup_put_other value base different
  rcases placed with rfl | ⟨below, _, rfl⟩
  · simp only [obstacle?, Value.reach?_cons_object, found]
  · simp only [obstacle?, Value.reach?_cons_object, found]

theorem error?_mergeEntries (leading : String) (distinct : overrides.DistinctKeys)
    (each : ∀ entry ∈ overrides, ∀ place found,
      Outcome.error? (mergeValue place found entry.2) = conflict? place found entry.2) :
    Outcome.error? (mergeEntries leading base overrides) =
      (Entries.places overrides).findSome? (obstacle? leading (.object base)) := by
  induction overrides generalizing base with
  | nil => rfl
  | cons entry rest ih =>
      obtain ⟨key, first⟩ := entry
      obtain ⟨_, restDistinct⟩ := List.nodup_cons.mp distinct
      obtain ⟨ofFirst, ofRest⟩ := List.forall_mem_cons.mp each
      rw [mergeEntries_cons, Entries.places, List.findSome?_append,
        findSome?_entry leading base key ofFirst]
      cases mergeUnder leading key (base.lookup key) first with
      | error conflict => rfl
      | ok value =>
          refine (ih restDistinct ofRest).trans ?_
          exact findSome?_congr_of_mem fun place member => obstacle?_put distinct member ..

theorem obstacle?_of_leaf (leaf : found.isObject = false) (leading : String)
    (more : place.1 ≠ []) : obstacle? leading found place = none := by
  obtain ⟨key, rest, spelled⟩ := List.exists_cons_of_ne_nil more
  rw [obstacle?, spelled, Value.reach?_cons_of_not_object leaf]

theorem error?_mergeValue (distinct : given.DistinctKeys) (place : String) (found : Value) :
    Outcome.error? (mergeValue place found given) = conflict? place found given := by
  have apart {found override : Value} {place : String}
      (plain : (found.isObject && override.isObject) = false)
      (free : override.places.findSome? (obstacle? (place ++ ".") found) = none) :
      Outcome.error? (mergeValue place found override) = conflict? place found override := by
    rw [mergeValue_of_not_objects place plain, replaceable_eq, conflict?, free]
    cases clashes found override <;> rfl
  induction given using Value.induction generalizing place found with
  | scalar scalar | array items => exact apart (by simp [Value.isObject]) rfl
  | object overrides ih =>
      cases found with
      | object entries =>
          rw [mergeValue, Outcome.error?_map, error?_mergeEntries _ distinct.keys]
          · rfl
          · intro entry member
            exact ih entry member (distinct.lookup (distinct.keys.lookup_of_mem member))
      | scalar scalar | array items =>
          refine apart rfl (List.findSome?_eq_none_iff.mpr fun place member => ?_)
          exact obstacle?_of_leaf rfl _ (ne_nil_of_mem_places member)

/-- Where an object merge fails, it fails with the first conflict of its overrides. -/
theorem error?_merge (distinct : (Value.object overrides).DistinctKeys) :
    Outcome.error? (merge (.object base) (.object overrides)) =
      (Value.object overrides).places.findSome? (obstacle? "" (.object base)) := by
  rw [merge, Outcome.error?_map]
  refine error?_mergeEntries "" distinct.keys fun entry member => ?_
  exact error?_mergeValue (distinct.lookup (distinct.keys.lookup_of_mem member))

theorem obstacle?_eq_none_iff {leading : String} {root : Value} :
    obstacle? leading root place = none ↔ ∀ found, root.reach? place.1 = some found →
      (∀ key ∈ place.1, key.isWritable = true) ∧
        (found ≠ .null → found.typeName ≠ place.2.typeName → place.2.isArray = true) := by
  rw [obstacle?]
  cases root.reach? place.1 with
  | none => simp
  | some found =>
      simp only [Option.some.injEq, forall_eq']
      rw [← clashes_eq_false_iff, ← List.all_eq_true]
      cases place.1.all Scalar.isWritable <;> cases clashes found place.2 <;> simp

theorem isWritable_of_spelled {others : List Scalar}
    (same : List.Forall₂ (Scalar.sameKey · · = true) keys others)
    (writable : ∀ key ∈ others, key.isWritable = true) : ∀ key ∈ keys, key.isWritable = true := by
  induction same with
  | nil => exact nofun
  | cons head _ ih =>
      obtain ⟨first, rest⟩ := List.forall_mem_cons.mp writable
      exact List.forall_mem_cons.mpr ⟨Scalar.isWritable_of_sameKey head first, ih rest⟩

/-- What an override does at a path of the base: it keeps the type of what stands there, or it has
an array there or in front of it. -/
def Keeps (override merged : Value) (keys : List Scalar) (found : Value) : Prop :=
  (∃ kept, merged.reach? keys = some kept ∧ kept.typeName = found.typeName) ∨
    ∃ front rest array, keys = front ++ rest ∧ array.isArray = true ∧
      override.reach? front = some array ∧ merged.reach? front = some array

theorem Keeps.above {merged : Entries Value} {result : Value}
    (keeps : Keeps given result keys found) (inOverrides : overrides.lookup key = some given)
    (inMerged : merged.lookup key = some result) :
    Keeps (.object overrides) (.object merged) (key :: keys) found := by
  have opened (more : List Scalar) :
      Value.reach? (key :: more) (.object overrides) = given.reach? more ∧
        Value.reach? (key :: more) (.object merged) = result.reach? more := by
    rw [Value.reach?_cons_object, inOverrides, Value.reach?_cons_object, inMerged]
    exact ⟨rfl, rfl⟩
  rcases keeps with ⟨kept, stands, same⟩ | ⟨front, rest, array, rfl, list, ahead, stands⟩
  · exact .inl ⟨kept, (opened keys).2.trans stands, same⟩
  · exact .inr ⟨key :: front, rest, array, rfl, list, (opened front).1.trans ahead,
      (opened front).2.trans stands⟩

theorem Merges.keeps {merged base override : Value} (made : Merges base override merged)
    (reached : base.reach? keys = some found) (present : found ≠ .null) :
    Keeps override merged keys found := by
  -- Both sides are followed as far as they are merged key by key.
  induction keys generalizing base override merged with
  | nil =>
      rw [Value.reach?_nil] at reached
      cases reached
      cases made with
      | objects => exact .inl ⟨_, Value.reach?_nil _, rfl⟩
      | replaced plain fits =>
          rcases replaceable_iff.mp fits with null | list | same
          · exact absurd null present
          · exact .inr ⟨[], [], _, rfl, list, Value.reach?_nil _, Value.reach?_nil _⟩
          · exact .inl ⟨_, Value.reach?_nil _, same.symm⟩
  | cons key rest ih =>
      cases base with
      | scalar scalar | array items => cases reached
      | object entries =>
          rw [Value.reach?_cons_object] at reached
          obtain ⟨inner, inBase, below⟩ := Option.bind_eq_some_iff.mp reached
          cases made with
          | replaced plain fits =>
              rcases replaceable_iff.mp fits with null | list | same
              · cases null
              · exact .inr ⟨[], key :: rest, _, rfl, list, Value.reach?_nil _, Value.reach?_nil _⟩
              · cases plain.symm.trans (Value.typeName_eq_dict_iff.mp same.symm)
          | @objects _ overrides merged _ _ under =>
              have both := under key
              rw [inBase] at both
              generalize inOverrides : lookup key overrides = given at both
              generalize inMerged : lookup key merged = result at both
              cases both with
              | kept =>
                  refine .inl ⟨found, ?_, rfl⟩
                  rw [Value.reach?_cons_object, inMerged]
                  exact below
              | merged made => exact (ih made below).above inOverrides inMerged

/-- What a merge of two objects accepts, and how it rejects the rest. -/
structure Judges (base overrides : Entries Value) : Prop where
  accepts : (∃ merged, merge (.object base) (.object overrides) = .ok merged) ↔
    ∀ keys found given, (Value.object base).reach? keys = some found →
      (Value.object overrides).reach? keys = some given →
        (∀ key ∈ keys, key.isWritable = true) ∧
          (found ≠ .null → found.typeName ≠ given.typeName → given.isArray = true)
  rejects : ∀ conflict, merge (.object base) (.object overrides) = .error conflict ↔
    (Value.object overrides).places.findSome? (obstacle? "" (.object base)) = some conflict
  keeps : ∀ merged, merge (.object base) (.object overrides) = .ok merged →
    ∀ keys found, (Value.object base).reach? keys = some found → found ≠ .null →
      Keeps (.object overrides) merged keys found

theorem merge_judges (baseDistinct : (Value.object base).DistinctKeys)
    (distinct : (Value.object overrides).DistinctKeys) : Judges base overrides := by
  refine ⟨?_, fun conflict => ?_, fun merged done keys found reached present => ?_⟩
  · rw [Outcome.exists_eq_ok_iff, error?_merge distinct, List.findSome?_eq_none_iff]
    constructor
    · intro free keys found given inBase inOverrides
      cases keys with
      | nil =>
          rw [Value.reach?_nil] at inBase inOverrides
          cases inBase
          cases inOverrides
          exact ⟨nofun, fun _ differ => absurd rfl differ⟩
      | cons key rest =>
          obtain ⟨place, placed, spelled, rfl⟩ :=
            exists_mem_places (List.cons_ne_nil _ _) inOverrides
          rw [reach?_congr spelled] at inBase
          obtain ⟨writable, fits⟩ := obstacle?_eq_none_iff.mp (free place placed) found inBase
          exact ⟨isWritable_of_spelled spelled writable, fits⟩
    · intro fits place placed
      refine obstacle?_eq_none_iff.mpr fun found inBase => ?_
      exact fits _ _ _ inBase (reach?_of_mem_places distinct placed)
  · rw [Outcome.eq_error_iff, error?_merge distinct]
  · exact ((merge_eq_ok_iff baseDistinct distinct).mp done).keeps reached present

/-- A configuration as it is packaged, with a text, a flag and a section that says nothing yet. -/
def packagedTags : Entries Value :=
  [(.text "tags", .text "old"), (.text "engine", object [("stamp", .bool true), ("limit", .null)])]

/-- Overrides of it, the list of which is let in for the text. -/
def siteTags : Entries Value :=
  [(.text "engine", object [("limit", object [("low", .int 1)])]), (.text "tags", .array [])]

/-- Overrides of it that clash twice, first in the section. -/
def hostTags : Entries Value :=
  [(.text "engine", object [("limit", .int 1), ("stamp", .text "yes")]), (.text "tags", .int 1)]

theorem merge_judges_siteTags :
    (∃ merged, merge (.object packagedTags) (.object siteTags) = .ok merged ∧
      Keeps (.object siteTags) merged [.text "tags"] (.text "old")) ∧
    merge (.object packagedTags) (.object hostTags) =
      .error (.types "engine.stamp" "bool" "str") := by
  have packaged : (Value.object packagedTags).DistinctKeys := by
    simp [packagedTags, object, Entries.DistinctKeys, Scalar.key]
  have site : (Value.object siteTags).DistinctKeys := by
    simp [siteTags, object, Entries.DistinctKeys, Scalar.key]
  have host : (Value.object hostTags).DistinctKeys := by
    simp [hostTags, object, Entries.DistinctKeys, Scalar.key]
  refine ⟨⟨_, rfl, ?_⟩, ?_⟩
  · exact (merge_judges packaged site).keeps _ rfl [.text "tags"] _ rfl (by simp)
  · exact ((merge_judges packaged host).rejects _).mpr rfl

end Config

end Uplift
