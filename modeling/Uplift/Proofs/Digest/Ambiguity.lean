import Uplift.Proofs.Digest.Identity

/-!
# Keys that have the same text

Keys of any kind are brought to their texts before the entries of an object are sorted, and of keys
with one text the one that is given last prevails. So the order of entries counts after all in a
document that gives two values to one text of a key, and in no other.
-/

set_option autoImplicit false

namespace Uplift

/-- Two trees are equal up to the order in which the entries of objects stand, whatever the keys
are. -/
inductive Value.Reordered : Value → Value → Prop where
  | scalar (value : Scalar) : Reordered (.scalar value) (.scalar value)
  | array {items others : List Value} : List.Forall₂ Reordered items others →
      Reordered (.array items) (.array others)
  | object {entries others arranged : Entries Value} : others.Perm arranged →
      entries.map (·.1) = arranged.map (·.1) →
      List.Forall₂ Reordered (entries.map (·.2)) (arranged.map (·.2)) →
      Reordered (.object entries) (.object others)

namespace Value.Reordered

variable {value other : Value} {entries others : Entries Value} {items : List Value}

theorem exists_array (reordered : Reordered (.array items) other) :
    ∃ others, other = .array others ∧ List.Forall₂ Reordered items others := by
  cases reordered with
  | array pairs => exact ⟨_, rfl, pairs⟩

theorem exists_object (reordered : Reordered (.object entries) other) :
    ∃ others arranged : Entries Value, other = .object others ∧ others.Perm arranged ∧
      List.Forall₂ (Entries.MatchEntry Reordered) entries arranged := by
  cases reordered with
  | object perm keys values =>
      exact ⟨_, _, rfl, perm, Entries.forall₂_matchEntry_iff.mpr ⟨keys, values⟩⟩

theorem of_arranged {arranged : Entries Value} (perm : others.Perm arranged)
    (pairs : List.Forall₂ (Entries.MatchEntry Reordered) entries arranged) :
    Reordered (.object entries) (.object others) := by
  obtain ⟨keys, values⟩ := Entries.forall₂_matchEntry_iff.mp pairs
  exact .object perm keys values

theorem refl (value : Value) : Reordered value value := by
  induction value using Value.induction with
  | scalar scalar => exact .scalar scalar
  | array items ih => exact .array (List.forall₂_same.mpr ih)
  | object entries ih =>
      exact of_arranged (.refl _) (List.forall₂_same.mpr fun entry member => ⟨rfl, ih entry member⟩)

theorem of_perm (perm : entries.Perm others) : Reordered (.object entries) (.object others) :=
  of_arranged perm.symm (List.forall₂_same.mpr fun entry _ => ⟨rfl, refl entry.2⟩)

/-- One item of an array can be reordered by itself. -/
theorem item (before after : List Value) (reordered : Reordered value other) :
    Reordered (.array (before ++ value :: after)) (.array (before ++ other :: after)) := by
  refine .array (List.rel_append ?_ (.cons reordered ?_)) <;>
    exact List.forall₂_same.mpr fun kept _ => refl kept

/-- One entry of an object can be put last, and its value reordered by itself. -/
theorem entry_last (before after : Entries Value) (key : Scalar)
    (reordered : Reordered value other) :
    Reordered (.object (before ++ (key, value) :: after))
      (.object (before ++ after ++ [(key, other)])) := by
  have perm : (before ++ after ++ [(key, other)]).Perm (before ++ (key, other) :: after) := by
    rw [List.append_assoc]
    exact (List.perm_append_singleton _ _).append_left before
  refine of_arranged perm (List.rel_append ?_ (.cons ⟨rfl, reordered⟩ ?_)) <;>
    exact List.forall₂_same.mpr fun kept _ => ⟨rfl, refl kept.2⟩

/-- Trees that are equal up to the order of entries have the same scalars. -/
theorem perm_scalars (reordered : Reordered value other) : value.scalars.Perm other.scalars := by
  induction value using Value.induction generalizing other with
  | scalar scalar =>
      cases reordered
      exact .refl _
  | array items ih =>
      obtain ⟨others, rfl, pairs⟩ := reordered.exists_array
      rw [scalars, scalars, scalarsOfItems_eq_flatMap, scalarsOfItems_eq_flatMap]
      exact flatMap_perm_of_forall₂
        (forall₂_imp_of_mem pairs fun item member _ pair => ih item member pair)
  | object entries ih =>
      obtain ⟨others, arranged, rfl, perm, pairs⟩ := reordered.exists_object
      rw [scalars, scalars, scalarsOfEntries_eq_flatMap, scalarsOfEntries_eq_flatMap]
      refine .trans (flatMap_perm_of_forall₂ (forall₂_imp_of_mem pairs ?_))
        (perm.symm.flatMap_right _)
      intro entry member other pair
      rw [pair.1]
      exact (ih entry member pair.2).cons _

end Value.Reordered

namespace Canonical

/-- No object of the tree gives two values to keys that have one text. -/
inductive Unambiguous : Value → Prop where
  | scalar (value : Scalar) : Unambiguous (.scalar value)
  | array {items : List Value} : (∀ item ∈ items, Unambiguous item) → Unambiguous (.array items)
  | object {entries : Entries Value} :
      (∀ entry ∈ entries, ∀ other ∈ entries, entry.1.shown = other.1.shown →
        text entry.2 = text other.2) →
      (∀ entry ∈ entries, Unambiguous entry.2) → Unambiguous (.object entries)

/-!
## Where the order does not count
-/

theorem text_reordered {value other : Value} (unambiguous : Unambiguous value)
    (reordered : value.Reordered other) : text other = text value := by
  induction value using Value.induction generalizing other with
  | scalar scalar =>
      cases reordered
      rfl
  | array items ih =>
      obtain ⟨others, rfl, pairs⟩ := reordered.exists_array
      cases unambiguous with
      | array below =>
          have texts : items.map text = others.map text := by
            rw [← List.forall₂_eq_eq_eq, List.forall₂_map_left_iff, List.forall₂_map_right_iff]
            exact forall₂_imp_of_mem pairs fun item member _ pair =>
              (ih item member (below item member) pair).symm
          rw [text, text, itemTexts_eq_map, itemTexts_eq_map, texts]
  | object entries ih =>
      obtain ⟨others, arranged, rfl, perm, pairs⟩ := reordered.exists_object
      cases unambiguous with
      | object own below =>
          have written : Entries.mapValues text entries = Entries.mapValues text arranged := by
            rw [Entries.mapValues, Entries.mapValues, ← List.forall₂_eq_eq_eq,
              List.forall₂_map_left_iff, List.forall₂_map_right_iff]
            exact forall₂_imp_of_mem pairs fun entry member _ pair =>
              Prod.ext pair.1 (ih entry member (below entry member) pair.2).symm
          have agree : ∀ entry ∈ Entries.mapValues text entries,
              ∀ other ∈ Entries.mapValues text entries,
                entry.1.shown = other.1.shown → entry.2 = other.2 := by
            rw [Entries.mapValues]
            exact List.forall_mem_map.mpr fun entry member => List.forall_mem_map.mpr
              fun other otherMember => own entry member other otherMember
          have rearranged :
              (Entries.mapValues text entries).Perm (Entries.mapValues text others) := by
            rw [written]
            exact perm.symm.map _
          rw [text, text, sortedEntries_eq_sortWritten, sortedEntries_eq_sortWritten,
            sortWritten_perm_of_agree agree rearranged]

/-!
## Where it does
-/

private theorem insertEntry_keeps_place (key : String) (value : String) (place : String)
    (before after : List (String × String)) :
    ∃ nextBefore nextAfter, ∀ stored, insertEntry key value (before ++ (place, stored) :: after) =
      nextBefore ++ (place, stored) :: nextAfter := by
  induction before with
  | nil =>
      simp only [List.nil_append, insertEntry]
      split
      · exact ⟨[(key, value)], after, fun _ => rfl⟩
      · split
        · exact ⟨[], after, fun _ => rfl⟩
        · exact ⟨[], insertEntry key value after, fun _ => rfl⟩
  | cons first before ih =>
      simp only [List.cons_append, insertEntry]
      split
      · exact ⟨(key, value) :: first :: before, after, fun _ => rfl⟩
      · split
        · exact ⟨first :: before, after, fun _ => rfl⟩
        · obtain ⟨nextBefore, nextAfter, same⟩ := ih
          exact ⟨first :: nextBefore, nextAfter, fun stored => by rw [same, List.cons_append]⟩

/-- What is given last is found behind and in front of the same entries, whatever its value. -/
private theorem sortWritten_concat (written : Entries String) (name : String) :
    ∃ before after, ∀ (key : Scalar) (stored : String), key.shown = name →
      sortWritten (written ++ [(key, stored)]) = before ++ (name, stored) :: after := by
  induction written with
  | nil => exact ⟨[], [], fun key stored shown => by rw [← shown]; rfl⟩
  | cons entry written ih =>
      obtain ⟨before, after, same⟩ := ih
      obtain ⟨nextBefore, nextAfter, kept⟩ :=
        insertEntry_keeps_place entry.1.shown entry.2 name before after
      refine ⟨nextBefore, nextAfter, fun key stored shown => ?_⟩
      rw [← kept, ← same key stored shown]
      rfl

/-- Of two entries whose keys have one text, only the later one is written. -/
private theorem sortWritten_concat_pair (written : Entries String) {key other : Scalar}
    (shown : key.shown = other.shown) (dropped stored : String) :
    sortWritten (written ++ [(key, dropped), (other, stored)]) =
      sortWritten (written ++ [(other, stored)]) := by
  rw [sortWritten, sortWritten, List.foldr_append, List.foldr_append]
  simp [insertEntry, shown]

private theorem joined_cancel (before after : List String) {first second : String}
    (same : ",".intercalate (before ++ first :: after) =
      ",".intercalate (before ++ second :: after)) : first = second := by
  induction before with
  | nil =>
      cases after with
      | nil => simpa using same
      | cons next after =>
          rw [List.nil_append, List.nil_append, String.intercalate_cons_cons,
            String.intercalate_cons_cons] at same
          exact (String.append_left_inj _).mp ((String.append_left_inj _).mp same)
  | cons next before ih =>
      rw [List.cons_append, List.cons_append, String.intercalate_cons_of_ne_nil (by simp),
        String.intercalate_cons_of_ne_nil (by simp)] at same
      exact ih ((String.append_right_inj _).mp same)

private theorem text_item_cancel (before after : List Value) {value other : Value}
    (same : text (.array (before ++ value :: after)) = text (.array (before ++ other :: after))) :
    text value = text other := by
  rw [text, text, itemTexts_eq_map, itemTexts_eq_map, List.map_append, List.map_append,
    List.map_cons, List.map_cons] at same
  exact joined_cancel _ _ ((String.append_right_inj _).mp ((String.append_left_inj _).mp same))

private theorem text_object (entries : Entries Value) :
    text (.object entries) = "\x7b" ++ ",".intercalate
      ((sortWritten (Entries.mapValues text entries)).map entryText) ++ "\x7d" := by
  rw [text, sortedEntries_eq_sortWritten]
  rfl

private theorem text_concat_cancel (entries : Entries Value) {key otherKey : Scalar}
    (shown : key.shown = otherKey.shown) {value other : Value}
    (same : text (.object (entries ++ [(key, value)])) =
      text (.object (entries ++ [(otherKey, other)]))) : text value = text other := by
  obtain ⟨before, after, sorted⟩ :=
    sortWritten_concat (Entries.mapValues text entries) otherKey.shown
  have written (key : Scalar) (value : Value) (shown : key.shown = otherKey.shown) :
      text (.object (entries ++ [(key, value)])) = "\x7b" ++ ",".intercalate (before.map entryText ++
        entryText (otherKey.shown, text value) :: after.map entryText) ++ "\x7d" := by
    rw [text_object, Entries.mapValues, List.map_append, List.map_singleton, ← Entries.mapValues,
      sorted key (text value) shown, List.map_append, List.map_cons]
  rw [written key value shown, written otherKey other rfl] at same
  have entry := joined_cancel _ _
    ((String.append_right_inj _).mp ((String.append_left_inj _).mp same))
  rw [entryText, entryText] at entry
  exact (String.append_right_inj _).mp entry

private theorem text_concat_pair (entries : Entries Value) {key otherKey : Scalar}
    (shown : key.shown = otherKey.shown) (value other : Value) :
    text (.object (entries ++ [(key, value), (otherKey, other)])) =
      text (.object (entries ++ [(otherKey, other)])) := by
  rw [text_object, text_object, Entries.mapValues, Entries.mapValues, List.map_append,
    List.map_append, List.map_cons, List.map_singleton, sortWritten_concat_pair _ shown]

private theorem exists_perm_concat_pair {entries : Entries Value} {entry other : Scalar × Value}
    (member : entry ∈ entries) (otherMember : other ∈ entries) (different : entry ≠ other) :
    ∃ rest, entries.Perm (rest ++ [entry, other]) := by
  obtain ⟨before, after, rfl⟩ := List.append_of_mem member
  have beside : other ∈ before ++ after := by
    rw [List.mem_append, List.mem_cons] at otherMember
    rw [List.mem_append]
    exact otherMember.imp_right fun either => either.resolve_left (Ne.symm different)
  obtain ⟨left, right, split⟩ := List.append_of_mem beside
  have toFront : (left ++ right ++ [entry, other]).Perm ([entry, other] ++ (left ++ right)) :=
    List.perm_append_comm
  refine ⟨left ++ right, .trans ?_ toFront.symm⟩
  refine List.perm_middle.trans (.cons entry ?_)
  rw [split]
  exact List.perm_middle

/-- A document whose canonical text is the same in every order of entries gives no text of a key two
values. -/
theorem unambiguous_of_text_eq {value : Value}
    (same : ∀ other, value.Reordered other → text other = text value) : Unambiguous value := by
  induction value using Value.induction with
  | scalar scalar => exact .scalar scalar
  | array items ih =>
      refine .array fun item member => ih item member fun other reordered => ?_
      obtain ⟨before, after, rfl⟩ := List.append_of_mem member
      exact text_item_cancel before after (same _ (.item before after reordered))
  | object entries ih =>
      refine .object (fun entry member other otherMember shown => ?_)
        fun entry member => ih entry member fun other reordered => ?_
      · by_cases one : entry = other
        · rw [one]
        -- Both entries are put behind the rest, in either order: the later one is written.
        · obtain ⟨rest, perm⟩ := exists_perm_concat_pair member otherMember one
          have swapped : entries.Perm (rest ++ [other, entry]) :=
            perm.trans (.append_left rest (.swap _ _ _))
          have written := same _ (.of_perm swapped)
          rw [← same _ (.of_perm perm), text_concat_pair rest shown.symm,
            text_concat_pair rest shown] at written
          exact text_concat_cancel rest shown written
      · obtain ⟨before, after, rfl⟩ := List.append_of_mem member
        refine text_concat_cancel (before ++ after) rfl
          (Eq.trans (same _ (.entry_last before after entry.1 reordered)) ?_)
        exact (same _ (.entry_last before after entry.1 (.refl _))).symm

/-- A document whose keys are texts, none of them twice in an object, is unambiguous. -/
theorem unambiguous_of_alike {value : Value} (alike : value.Alike value) : Unambiguous value := by
  induction value using Value.induction with
  | scalar scalar => exact .scalar scalar
  | array items ih =>
      have pairs := List.forall₂_same.mp (Value.Alike.array_iff.mp alike)
      exact .array fun item member => ih item member (pairs item member)
  | object entries ih =>
      have same := Value.Alike.object_iff.mp alike
      refine .object (fun entry member other otherMember shown => ?_) fun entry member => ?_
      · rw [eq_of_shown_eq same.distinct same.texts member otherMember shown]
      · obtain ⟨other, otherMember, key, pair⟩ := same.exists_other member
        have one : entry = other :=
          List.inj_on_of_nodup_map same.distinct member otherMember (congrArg Scalar.key key)
        rw [← one] at pair
        exact ih entry member pair

theorem unambiguous_iff {value : Value} :
    Unambiguous value ↔ ∀ other, value.Reordered other → text other = text value :=
  ⟨fun unambiguous _ reordered => text_reordered unambiguous reordered, unambiguous_of_text_eq⟩

end Canonical

namespace Digest

open Canonical (Unambiguous)

variable {subject : Subject} {document other : Value}

theorem isWritable_reordered (reordered : document.Reordered other) :
    other.isWritable = document.isWritable :=
  reordered.perm_scalars.symm.all_eq

theorem ofObject_reordered_of_error {fault : Fault}
    (failed : ofObject subject document = .error fault) (reordered : document.Reordered other) :
    ofObject subject other = .error fault := by
  have writable := isWritable_reordered reordered
  cases reordered with
  | scalar | array => exact failed
  | object =>
      rw [ofObject] at failed ⊢
      rw [writable]
      split at failed
      · cases failed
      · next unwritable => rw [if_neg unwritable, failed]

theorem ofObject_reordered_of_ok {hash : String} (done : ofObject subject document = .ok hash)
    (reordered : document.Reordered other) : ofObject subject other = .ok (hex other) := by
  have writable := isWritable_reordered reordered
  cases reordered with
  | scalar | array => cases done
  | object =>
      rw [ofObject] at done ⊢
      rw [writable]
      split at done
      · next holds => rw [if_pos holds]
      · cases done

/-- What the order of entries does to a document and to its digest. -/
structure OrderEffect (document : Value) : Prop where
  text : Unambiguous document ↔
    ∀ other, document.Reordered other → Canonical.text other = Canonical.text document
  keeps : Unambiguous document → ∀ subject other, document.Reordered other →
    ofObject subject other = ofObject subject document
  refuses : ∀ subject fault, ofObject subject document = .error fault →
    ∀ other, document.Reordered other → ofObject subject other = .error fault
  changes : ¬ Unambiguous document → ∀ subject hash, ofObject subject document = .ok hash →
    ∃ other otherHash, document.Reordered other ∧ ofObject subject other = .ok otherHash ∧
      (otherHash = hash → Sha256.Collide (message document) (message other))

/-- The order of entries does not count in a document in which keys of one text have values of one
text. In any other, some order of the same entries gives a message of its own. -/
theorem order_counts_iff (document : Value) : OrderEffect document where
  text := Canonical.unambiguous_iff
  keeps unambiguous subject other reordered := by
    cases outcome : ofObject subject document with
    | error fault => exact ofObject_reordered_of_error outcome reordered
    | ok hash =>
        rw [ofObject_reordered_of_ok outcome reordered, hex,
          Canonical.text_reordered unambiguous reordered]
        exact congrArg Except.ok (digest_message_of_ofObject outcome)
  refuses _ _ failed _ reordered := ofObject_reordered_of_error failed reordered
  changes ambiguous subject hash done := by
    rw [Canonical.unambiguous_iff] at ambiguous
    push Not at ambiguous
    obtain ⟨other, reordered, different⟩ := ambiguous
    have otherDone := ofObject_reordered_of_ok done reordered
    refine ⟨other, _, reordered, otherDone, fun same => ⟨?_, ?_⟩⟩
    · exact fun messages => different (message_eq_iff.mp messages).symm
    · refine Sha256.hexText_injective ?_
      rw [digest_message_of_ofObject done, digest_message_of_ofObject otherDone, same]

example : Canonical.text (.object [(.int 1, .text "a"), (.text "1", .text "b")]) ≠
    Canonical.text (.object [(.text "1", .text "b"), (.int 1, .text "a")]) := by
  decide

end Digest

end Uplift
