import Mathlib.Data.List.Nodup
import Mathlib.Data.String.Basic
import Uplift.Digest
import Uplift.Proofs.Value.Alike

/-!
# Digests do not depend on the order of entries

Canonical text sorts the entries of every object, and entries of different keys can be put in their
places in any order. So alike documents have the same canonical text, and the same digest if they
have one.
-/

set_option autoImplicit false

namespace Uplift

open Value (Alike)

namespace Canonical

theorem insertEntry_comm {α : Type} {key other : String} (apart : key ≠ other) (value kept : α)
    (sorted : List (String × α)) :
    insertEntry key value (insertEntry other kept sorted) =
      insertEntry other kept (insertEntry key value sorted) := by
  induction sorted with
  | nil =>
      rcases lt_or_gt_of_ne apart with before | behind
      · simp [insertEntry, before, before.not_gt, apart.symm]
      · simp [insertEntry, behind, behind.not_gt, apart]
  | cons first rest ih =>
      obtain ⟨place, stored⟩ := first
      -- What remains is a comparison of the three keys, which are in linear order.
      simp only [insertEntry]
      grind [insertEntry]

theorem itemTexts_eq_map (items : List Value) : itemTexts items = items.map text := by
  induction items with
  | nil => rfl
  | cons item rest ih => rw [itemTexts, ih, List.map_cons]

/-- Sorts entries that are written already. -/
def sortWritten (written : Entries String) : List (String × String) :=
  written.foldr (fun entry sorted => insertEntry entry.1.shown entry.2 sorted) []

theorem sortedEntries_eq_sortWritten (entries : List (Scalar × Value)) :
    sortedEntries entries = sortWritten (Entries.mapValues text entries) := by
  induction entries with
  | nil => rfl
  | cons entry rest ih =>
      rw [sortedEntries, ih]
      rfl

/-- Keys that are texts are known by them. -/
theorem eq_of_shown_eq {α : Type} {entries : Entries α} (distinct : entries.DistinctKeys)
    (texts : entries.TextKeys) {entry other : Scalar × α} (member : entry ∈ entries)
    (otherMember : other ∈ entries) (shown : entry.1.shown = other.1.shown) : entry = other := by
  refine List.inj_on_of_nodup_map distinct member otherMember ?_
  obtain ⟨name, key⟩ := texts entry member
  obtain ⟨otherName, otherKey⟩ := texts other otherMember
  rw [key, otherKey] at shown ⊢
  exact congrArg Key.text shown

/-- Entries can be sorted in whatever order they are given if keys with one text lead to one
value. -/
theorem sortWritten_perm_of_agree {written others : Entries String}
    (agree : ∀ entry ∈ written, ∀ other ∈ written, entry.1.shown = other.1.shown →
      entry.2 = other.2) (perm : written.Perm others) :
    sortWritten written = sortWritten others := by
  refine perm.foldr_eq' (fun first firstMember second secondMember sorted => ?_) []
  by_cases same : first.1.shown = second.1.shown
  · rw [same, agree first firstMember second secondMember same]
  · exact insertEntry_comm (Ne.symm same) _ _ sorted

/-- Entries of different names are sorted alike in whatever order they are given. -/
theorem sortWritten_perm {written others : Entries String} (distinct : written.DistinctKeys)
    (texts : written.TextKeys) (perm : written.Perm others) :
    sortWritten written = sortWritten others := by
  refine sortWritten_perm_of_agree (fun entry member other otherMember shown => ?_) perm
  rw [eq_of_shown_eq distinct texts member otherMember shown]

/-- What an entry of a written object becomes when it is sorted: its key is a text from there on. -/
def shownEntry (entry : Scalar × String) : String × String := (entry.1.shown, entry.2)

private theorem insertEntry_perm {α : Type} (key : String) (value : α) {sorted : List (String × α)}
    (fresh : key ∉ sorted.map (·.1)) :
    (insertEntry key value sorted).Perm ((key, value) :: sorted) := by
  induction sorted with
  | nil => exact .refl _
  | cons first rest ih =>
      obtain ⟨place, stored⟩ := first
      rw [List.map_cons, List.mem_cons, not_or] at fresh
      rw [insertEntry]
      split
      · exact .refl _
      · rw [if_neg fresh.1]
        exact ((ih fresh.2).cons _).trans (.swap _ _ _)

/-- Sorting loses no entry and adds none. -/
theorem sortWritten_perm_map {written : Entries String} (distinct : written.DistinctKeys)
    (texts : written.TextKeys) : (sortWritten written).Perm (written.map shownEntry) := by
  induction written with
  | nil => exact .refl _
  | cons entry rest ih =>
      obtain ⟨fresh, restDistinct⟩ := List.nodup_cons.mp distinct
      have sorted := ih restDistinct fun other member => texts other (.tail _ member)
      have freshText : entry.1.shown ∉ (sortWritten rest).map (·.1) := by
        intro present
        rw [(sorted.map _).mem_iff, List.map_map] at present
        obtain ⟨other, member, shown⟩ := List.mem_map.mp present
        refine fresh (List.mem_map.mpr ⟨other, member, ?_⟩)
        obtain ⟨name, key⟩ := texts entry (.head _)
        obtain ⟨otherName, otherKey⟩ := texts other (.tail _ member)
        simp only [Function.comp_apply, shownEntry, key, otherKey, Scalar.shown] at shown
        simp only [key, otherKey, shown]
      exact (insertEntry_perm _ _ freshText).trans (sorted.cons _)

/-- Entries of different names that are sorted alike are the same up to their order. -/
theorem perm_of_sortWritten_eq {written others : Entries String}
    (distinct : written.DistinctKeys) (texts : written.TextKeys)
    (othersDistinct : others.DistinctKeys) (othersTexts : others.TextKeys)
    (same : sortWritten written = sortWritten others) : written.Perm others := by
  have restored {written : Entries String} (texts : written.TextKeys) :
      (written.map shownEntry).map (fun entry => (Scalar.text entry.1, entry.2)) = written := by
    rw [List.map_map]
    refine (List.map_congr_left fun entry member => ?_).trans (List.map_id _)
    obtain ⟨name, key⟩ := texts entry member
    refine Prod.ext ?_ rfl
    simp only [Function.comp_apply, shownEntry, key, Scalar.shown, id]
  have shown : (written.map shownEntry).Perm (others.map shownEntry) := by
    refine (sortWritten_perm_map distinct texts).symm.trans ?_
    rw [same]
    exact sortWritten_perm_map othersDistinct othersTexts
  rw [← restored texts, ← restored othersTexts]
  exact shown.map _

theorem text_alike {value other : Value} (alike : Alike value other) : text value = text other := by
  induction value using Value.induction generalizing other with
  | scalar scalar =>
      cases alike
      rfl
  | array items ih =>
      obtain ⟨others, rfl, pairs⟩ := alike.exists_array
      have texts : items.map text = others.map text := by
        rw [← List.forall₂_eq_eq_eq, List.forall₂_map_left_iff, List.forall₂_map_right_iff]
        exact forall₂_imp_of_mem pairs fun item member _ pair => ih item member pair
      rw [text, text, itemTexts_eq_map, itemTexts_eq_map, texts]
  | object entries ih =>
      obtain ⟨others, rfl, same⟩ := alike.exists_object
      have written : Entries.Match Eq (Entries.mapValues text entries)
          (Entries.mapValues text others) :=
        same.mapValues fun entry member _ pair => ih entry member pair
      rw [text, text, sortedEntries_eq_sortWritten, sortedEntries_eq_sortWritten,
        sortWritten_perm written.distinct written.texts written.perm]

end Canonical

namespace Value.Alike

variable {value other : Value}

/-- Alike documents have the same scalars, keys included. -/
theorem perm_scalars (alike : Alike value other) : value.scalars.Perm other.scalars := by
  induction value using Value.induction generalizing other with
  | scalar scalar =>
      cases alike
      exact .refl _
  | array items ih =>
      obtain ⟨others, rfl, pairs⟩ := alike.exists_array
      rw [scalars, scalars, scalarsOfItems_eq_flatMap, scalarsOfItems_eq_flatMap]
      exact flatMap_perm_of_forall₂
        (forall₂_imp_of_mem pairs fun item member _ pair => ih item member pair)
  | object entries ih =>
      obtain ⟨others, rfl, same⟩ := alike.exists_object
      rw [scalars, scalars, scalarsOfEntries_eq_flatMap, scalarsOfEntries_eq_flatMap]
      refine same.flatMap_perm fun entry member _ pair => ?_
      rw [pair.1]
      exact (ih entry member pair.2).cons _

theorem isWritable_eq (alike : Alike value other) : value.isWritable = other.isWritable :=
  alike.perm_scalars.all_eq

theorem ofObject_eq (subject : Digest.Subject) (alike : Alike value other) :
    Digest.ofObject subject value = Digest.ofObject subject other := by
  cases value with
  | scalar scalar =>
      cases alike
      rfl
  | array items =>
      obtain ⟨others, rfl, _⟩ := alike.exists_array
      rfl
  | object entries =>
      obtain ⟨others, rfl, _⟩ := alike.exists_object
      rw [Digest.ofObject, Digest.ofObject, alike.isWritable_eq, Digest.hex, Digest.hex,
        Canonical.text_alike alike]

end Value.Alike

end Uplift
