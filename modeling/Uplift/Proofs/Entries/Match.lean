import Mathlib.Data.List.Forall2
import Uplift.Proofs.Entries.Distinct

/-!
# Entries that match up to their order

Two objects match if the same names stand in both, each of them once, and lead to related values.
That is so exactly if one of them can be arranged so that they match entry by entry. What is put
under a name in both, or taken away from both, leaves them matching.
-/

set_option autoImplicit false

namespace Uplift

theorem forall₂_imp_of_mem {α β : Type} {related image : α → β → Prop} {items : List α}
    {others : List β} (pairs : List.Forall₂ related items others)
    (implies : ∀ item ∈ items, ∀ other, related item other → image item other) :
    List.Forall₂ image items others :=
  ((List.forall₂_and_left (p := (· ∈ items)) _ _).mpr ⟨fun _ => id, pairs⟩).imp
    fun item other pair => implies item pair.1 other pair.2

theorem exists_of_forall₂ {α β : Type} {related : α → β → Prop} {items : List α}
    {others : List β} (pairs : List.Forall₂ related items others) {item : α}
    (member : item ∈ items) : ∃ other ∈ others, related item other := by
  induction pairs with
  | nil => cases member
  | cons pair _ ih =>
      rcases List.mem_cons.mp member with rfl | later
      · exact ⟨_, .head _, pair⟩
      · obtain ⟨other, otherMember, related⟩ := ih later
        exact ⟨other, .tail _ otherMember, related⟩

theorem flatMap_perm_of_forall₂ {α β γ : Type} {make : α → List γ} {otherMake : β → List γ}
    {items : List α} {others : List β}
    (pairs : List.Forall₂ (fun item other => (make item).Perm (otherMake other)) items others) :
    (items.flatMap make).Perm (others.flatMap otherMake) := by
  induction pairs with
  | nil => exact .nil
  | cons head _ ih =>
      rw [List.flatMap_cons, List.flatMap_cons]
      exact head.append ih

namespace Entries

variable {α β γ δ : Type} {related : α → β → Prop} {entries : Entries α} {others : Entries β}

/-- Two objects have the same names, in any order, and related values under each of them. -/
structure Match (related : α → β → Prop) (entries : Entries α) (others : Entries β) : Prop where
  distinct : entries.DistinctKeys
  othersDistinct : others.DistinctKeys
  texts : entries.TextKeys
  othersTexts : others.TextKeys
  found : ∀ name,
    Option.Rel related (entries.lookup (.text name)) (others.lookup (.text name))

/-- Two entries have the same key and related values. -/
abbrev MatchEntry (related : α → β → Prop) (entry : Scalar × α) (other : Scalar × β) : Prop :=
  entry.1 = other.1 ∧ related entry.2 other.2

theorem DistinctKeys.lookup_perm {arranged : Entries α} (distinct : entries.DistinctKeys)
    (perm : entries.Perm arranged) (name : String) :
    entries.lookup (.text name) = arranged.lookup (.text name) := by
  refine Option.ext fun value => ?_
  rw [← distinct.mem_text_iff, ← (distinct.perm perm).mem_text_iff, perm.mem_iff]

theorem DistinctKeys.of_keys (distinct : entries.DistinctKeys)
    (keys : entries.map (·.1) = others.map (·.1)) : others.DistinctKeys := by
  have mapped := congrArg (List.map Scalar.key) keys
  rw [List.map_map, List.map_map] at mapped
  unfold DistinctKeys at distinct ⊢
  change (others.map (Scalar.key ∘ (·.1))).Nodup
  rw [← mapped]
  exact distinct

theorem TextKeys.of_keys (texts : entries.TextKeys)
    (keys : entries.map (·.1) = others.map (·.1)) : others.TextKeys := by
  intro other member
  have present : other.1 ∈ entries.map (·.1) := by
    rw [keys]
    exact List.mem_map_of_mem member
  obtain ⟨entry, entryMember, sameKey⟩ := List.mem_map.mp present
  rw [← sameKey]
  exact texts entry entryMember

theorem forall₂_matchEntry_iff : List.Forall₂ (MatchEntry related) entries others ↔
    entries.map (·.1) = others.map (·.1) ∧
      List.Forall₂ related (entries.map (·.2)) (others.map (·.2)) := by
  constructor
  · intro pairs
    induction pairs with
    | nil => exact ⟨rfl, .nil⟩
    | cons head _ ih =>
        exact ⟨by rw [List.map_cons, List.map_cons, head.1, ih.1], .cons head.2 ih.2⟩
  · rintro ⟨keys, values⟩
    induction entries generalizing others with
    | nil =>
        cases others with
        | nil => exact .nil
        | cons other rest => cases keys
    | cons entry rest ih =>
        cases others with
        | nil => cases keys
        | cons other otherRest =>
            obtain ⟨head, tail⟩ := List.cons.inj keys
            cases values with
            | cons first later => exact .cons ⟨head, first⟩ (ih tail later)

theorem forall₂_values_mapValues {change : α → β}
    (each : ∀ entry ∈ entries, related entry.2 (change entry.2)) :
    List.Forall₂ related (entries.map (·.2)) ((entries.mapValues change).map (·.2)) := by
  rw [mapValues, List.map_map, List.forall₂_map_left_iff, List.forall₂_map_right_iff,
    List.forall₂_same]
  exact each

private theorem lookup_of_forall₂ (paired : List.Forall₂ (MatchEntry related) entries others)
    (name : String) :
    Option.Rel related (entries.lookup (.text name)) (others.lookup (.text name)) := by
  induction paired with
  | nil => exact .none
  | cons head _ ih =>
      rw [lookup_cons, lookup_cons, ← head.1]
      split
      · exact .some head.2
      · exact ih

namespace Match

theorem cases (same : Match related entries others) (name : String) :
    (entries.lookup (.text name) = none ∧ others.lookup (.text name) = none) ∨
      ∃ value other, entries.lookup (.text name) = some value ∧
        others.lookup (.text name) = some other ∧ related value other := by
  have both := same.found name
  generalize entries.lookup (.text name) = one at both
  generalize others.lookup (.text name) = two at both
  cases both with
  | none => exact .inl ⟨rfl, rfl⟩
  | some pair => exact .inr ⟨_, _, rfl, rfl, pair⟩

/-- What stands in one object stands in the other under the same key. -/
theorem exists_other (same : Match related entries others) {entry : Scalar × α}
    (member : entry ∈ entries) : ∃ other ∈ others, MatchEntry related entry other := by
  obtain ⟨key, value⟩ := entry
  obtain ⟨name, rfl⟩ := same.texts _ member
  rw [same.distinct.mem_text_iff] at member
  rcases same.cases name with ⟨absent, _⟩ | ⟨_, other, found, otherFound, pair⟩
  · rw [absent] at member
    cases member
  · rw [found] at member
    cases member
    exact ⟨_, mem_of_lookup_text otherFound, rfl, pair⟩

theorem symm (same : Match related entries others) :
    Match (fun other value => related value other) others entries where
  distinct := same.othersDistinct
  othersDistinct := same.distinct
  texts := same.othersTexts
  othersTexts := same.texts
  found name := by
    rcases same.cases name with ⟨absent, otherAbsent⟩ | ⟨_, _, found, otherFound, pair⟩
    · rw [absent, otherAbsent]
      exact .none
    · rw [found, otherFound]
      exact .some pair

private theorem exists_paired {part : Entries α}
    (each : ∀ entry ∈ part, ∃ other ∈ others, MatchEntry related entry other) :
    ∃ arranged : Entries β, arranged ⊆ others ∧
      List.Forall₂ (MatchEntry related) part arranged := by
  induction part with
  | nil => exact ⟨[], List.nil_subset _, .nil⟩
  | cons entry rest ih =>
      obtain ⟨⟨other, member, pair⟩, later⟩ := List.forall_mem_cons.mp each
      obtain ⟨arranged, known, pairs⟩ := ih later
      exact ⟨other :: arranged, List.cons_subset.mpr ⟨member, known⟩, .cons pair pairs⟩

/-- One of two matching objects can be arranged so that they match entry by entry. -/
theorem arranged (same : Match related entries others) :
    ∃ arranged, others.Perm arranged ∧ List.Forall₂ (MatchEntry related) entries arranged := by
  obtain ⟨arranged, known, pairs⟩ := exists_paired fun _ member => same.exists_other member
  refine ⟨arranged, ?_, pairs⟩
  have keys := (forall₂_matchEntry_iff.mp pairs).1
  have distinct : arranged.DistinctKeys := same.distinct.of_keys keys
  refine (same.othersDistinct.perm_iff distinct).mpr fun other => ⟨fun member => ?_, (known ·)⟩
  obtain ⟨entry, entryMember, sameKey, _⟩ := same.symm.exists_other member
  have present : other.1 ∈ arranged.map (·.1) := by
    rw [← keys, sameKey]
    exact List.mem_map_of_mem entryMember
  obtain ⟨placed, placedMember, placedKey⟩ := List.mem_map.mp present
  have value := same.othersDistinct.lookup_of_mem (known placedMember)
  rw [placedKey, same.othersDistinct.lookup_of_mem member] at value
  rwa [← Prod.ext placedKey (Option.some.inj value).symm]

end Match

/-- Objects match if one of them, of distinct names, can be paired with what the other is arranged
to. -/
theorem match_of_arranged {arranged : Entries β} (distinct : entries.DistinctKeys)
    (texts : entries.TextKeys) (pairs : List.Forall₂ (MatchEntry related) entries arranged)
    (perm : others.Perm arranged) : Match related entries others := by
  have keys := (forall₂_matchEntry_iff.mp pairs).1
  have arrangedDistinct : arranged.DistinctKeys := distinct.of_keys keys
  have arrangedTexts : arranged.TextKeys := texts.of_keys keys
  exact
    { distinct := distinct
      othersDistinct := arrangedDistinct.perm perm.symm
      texts := texts
      othersTexts := fun other member => arrangedTexts other (perm.mem_iff.mp member)
      found := fun name => by
        rw [← arrangedDistinct.lookup_perm perm.symm]
        exact lookup_of_forall₂ pairs name }

namespace Match

/-!
## What matching objects have in common
-/

theorem isEmpty_eq (same : Match related entries others) :
    List.isEmpty entries = List.isEmpty others := by
  obtain ⟨arranged, perm, pairs⟩ := same.arranged
  rw [perm.isEmpty_eq]
  cases pairs <;> rfl

/-- Objects that have the same value under each name are the same up to the order of entries. -/
theorem perm {others : Entries α} (same : Match Eq entries others) : entries.Perm others := by
  obtain ⟨arranged, rearranged, pairs⟩ := same.arranged
  have equal : List.Forall₂ Eq entries arranged :=
    pairs.imp fun _ _ pair => Prod.ext pair.1 pair.2
  rw [List.forall₂_eq_eq_eq] at equal
  rw [equal]
  exact rearranged.symm

/-!
## What keeps objects matching
-/

theorem nil : Match related ([] : Entries α) ([] : Entries β) where
  distinct := .nil
  othersDistinct := .nil
  texts := .nil
  othersTexts := .nil
  found _ := .none

theorem put (same : Match related entries others) (name : String) {value : α} {other : β}
    (pair : related value other) :
    Match related (entries.put (.text name) value) (others.put (.text name) other) where
  distinct := same.distinct.put _ _
  othersDistinct := same.othersDistinct.put _ _
  texts := same.texts.put _ _
  othersTexts := same.othersTexts.put _ _
  found sought := by
    rw [lookup_put_text, lookup_put_text]
    split
    · exact .some pair
    · exact same.found sought

theorem filter (same : Match related entries others) (keep : Scalar → Bool) :
    Match related (entries.filter fun entry => keep entry.1)
      (others.filter fun entry => keep entry.1) where
  distinct := same.distinct.filter _
  othersDistinct := same.othersDistinct.filter _
  texts := same.texts.filter _
  othersTexts := same.othersTexts.filter _
  found sought := by
    rw [lookup_filter_text, lookup_filter_text]
    split
    · exact same.found sought
    · exact .none

theorem rearrange {arranged : Entries β} (same : Match related entries others)
    (perm : others.Perm arranged) : Match related entries arranged where
  distinct := same.distinct
  othersDistinct := same.othersDistinct.perm perm
  texts := same.texts
  othersTexts other member := same.othersTexts other (perm.mem_iff.mpr member)
  found sought := by
    rw [← same.othersDistinct.lookup_perm perm]
    exact same.found sought

theorem erase (same : Match related entries others) (key : Scalar) :
    Match related (entries.erase key) (others.erase key) :=
  same.filter fun other => !key.sameKey other

theorem mapValues {image : γ → δ → Prop} {change : α → γ} {otherChange : β → δ}
    (same : Match related entries others)
    (changes : ∀ entry ∈ entries, ∀ other, related entry.2 other →
      image (change entry.2) (otherChange other)) :
    Match image (Entries.mapValues change entries) (Entries.mapValues otherChange others) := by
  obtain ⟨arranged, perm, pairs⟩ := same.arranged
  have mapped : List.Forall₂ (MatchEntry image) (Entries.mapValues change entries)
      (Entries.mapValues otherChange arranged) := by
    rw [Entries.mapValues, Entries.mapValues, List.forall₂_map_left_iff,
      List.forall₂_map_right_iff]
    exact forall₂_imp_of_mem pairs fun entry member other pair =>
      ⟨pair.1, changes entry member other.2 pair.2⟩
  refine match_of_arranged ?_ ?_ mapped (perm.map _)
  · exact same.distinct.of_keys (by simp [Entries.mapValues])
  · exact same.texts.of_keys (by simp [Entries.mapValues])

/-- Lists that are made of the entries of matching objects differ in their order alone, if those of
matching entries do. -/
theorem flatMap_perm {ε : Type} (same : Match related entries others)
    {make : Scalar × α → List ε} {otherMake : Scalar × β → List ε}
    (makes : ∀ entry ∈ entries, ∀ other, MatchEntry related entry other →
      (make entry).Perm (otherMake other)) :
    (entries.flatMap make).Perm (others.flatMap otherMake) := by
  obtain ⟨arranged, perm, pairs⟩ := same.arranged
  exact (flatMap_perm_of_forall₂ (forall₂_imp_of_mem pairs makes)).trans
    (perm.symm.flatMap_right otherMake)

end Match

end Entries

end Uplift
