import Uplift.Proofs.Config.FieldNames
import Uplift.Proofs.Entries.Distinct
import Uplift.Proofs.Rewrite.Edits
import Uplift.Proofs.Value.Leaves
import Uplift.Rewrite.Tree

/-!
# What promotion conserves

Promotion puts each entry of a root in one of two places and adds nothing but the content. Nothing
is lost as long as the content has a name of its own: a root that has its identifier or its name
under the name of the content loses that entry, and no configuration is refused for it.
-/

set_option autoImplicit false

namespace Uplift.Promotion

variable {fields : FieldNames} {before after : Entries Value} {key : Scalar}

/-- Whether a key is that of the identifier or the name. -/
def stays (fields : FieldNames) (key : Scalar) : Bool :=
  key = .text fields.id || key = .text fields.name

/-- The entries of one root are all there in another, each of them once: those of the identifier and
the name in the root itself, and the others, in their order, in the content. There is nothing
else. -/
def Conserved (fields : FieldNames) (before after : Entries Value) : Prop :=
  after.Perm (before.filter (fun entry => stays fields entry.1) ++
    [(.text fields.content, .object (before.filter fun entry => !stays fields entry.1))])

/-- A root has its identifier or its name under the name of the content. -/
def Collides (fields : FieldNames) (before : Entries Value) : Prop :=
  stays fields (.text fields.content) = true ∧ before.contains (.text fields.content) = true

theorem stays_iff : stays fields key = true ↔ key = .text fields.id ∨ key = .text fields.name := by
  simp only [stays, Bool.or_eq_true, decide_eq_true_eq]

section Kept

variable {α β : Type}

theorem moved_eq_filter (fields : FieldNames) (before : Entries α) :
    moved fields before = before.filter fun entry => !stays fields entry.1 := by
  have same (key : Scalar) : stays fields key =
      (key.sameKey (.text fields.id) || key.sameKey (.text fields.name)) := by
    rw [Bool.eq_iff_iff, stays_iff, Bool.or_eq_true]
    simp only [Scalar.sameKey_text_iff]
  simp only [moved, same]

/-- Adds to the kept part of a root what the root has in a field. -/
def keep (before kept : Entries α) (field : String) : Entries α :=
  match before.lookup (.text field) with
  | none => kept
  | some value => kept.put (.text field) value

theorem kept_eq_keep (fields : FieldNames) (before : Entries α) :
    kept fields before = keep before (keep before [] fields.id) fields.name := rfl

theorem lookup_keep (before kept : Entries α) (field name : String) :
    (keep before kept field).lookup (.text name) =
      if name = field then (before.lookup (.text name)).or (kept.lookup (.text name))
      else kept.lookup (.text name) := by
  unfold keep
  by_cases same : name = field
  · rw [if_pos same, same]
    cases before.lookup (.text field) with
    | none => rw [Option.none_or]
    | some value => rw [Entries.lookup_put_same, Option.some_or]
  · rw [if_neg same]
    cases before.lookup (.text field) with
    | none => rfl
    | some value => rw [Entries.lookup_put_text, if_neg same]

/-- In the part of a root that is kept there is what the root has under the identifier and the
name. -/
theorem lookup_kept (fields : FieldNames) (before : Entries α) (name : String) :
    (kept fields before).lookup (.text name) =
      if stays fields (.text name) then before.lookup (.text name) else none := by
  simp only [kept_eq_keep, lookup_keep, stays_iff, Entries.lookup_nil, Option.or_none,
    Scalar.text.injEq]
  by_cases identifier : name = fields.id
  · simp only [identifier, if_true, true_or, Option.or_self, ite_self]
  · by_cases same : name = fields.name
    · rw [if_pos same, if_neg identifier, Option.or_none, if_pos (.inr same)]
    · rw [if_neg same, if_neg identifier, if_neg (not_or.mpr ⟨identifier, same⟩)]

theorem distinctKeys_keep {kept : Entries α} (distinct : kept.DistinctKeys)
    (before : Entries α) (field : String) : (keep before kept field).DistinctKeys := by
  unfold keep
  split
  · exact distinct
  · exact distinct.put _ _

theorem distinctKeys_kept (fields : FieldNames) (before : Entries α) :
    (kept fields before).DistinctKeys := by
  rw [kept_eq_keep]
  exact distinctKeys_keep (distinctKeys_keep .nil before fields.id) before fields.name

theorem textKeys_keep {kept : Entries α} (texts : kept.TextKeys)
    (before : Entries α) (field : String) : (keep before kept field).TextKeys := by
  unfold keep
  split
  · exact texts
  · exact texts.put _ _

theorem textKeys_kept (fields : FieldNames) (before : Entries α) :
    (kept fields before).TextKeys := by
  rw [kept_eq_keep]
  exact textKeys_keep (textKeys_keep .nil before fields.id) before fields.name

theorem textKeys_staying (fields : FieldNames) (before : Entries α) :
    Entries.TextKeys (before.filter fun entry => stays fields entry.1) := by
  intro entry member
  rcases stays_iff.mp (List.mem_filter.mp member).2 with identifier | name
  · exact ⟨fields.id, identifier⟩
  · exact ⟨fields.name, name⟩

/-- What is kept of a root is what stays, in the order of the names. -/
theorem kept_perm {before : Entries α} (distinct : before.DistinctKeys) (fields : FieldNames) :
    (kept fields before).Perm (before.filter fun entry => stays fields entry.1) := by
  refine (distinctKeys_kept fields before).perm_of_lookup (textKeys_kept fields before)
    (distinct.filter _) (textKeys_staying fields before) fun name => ?_
  have found := Entries.lookup_filter_text (stays fields) name before
  rw [lookup_kept, found]

/-- Each value of a root is moved or kept. -/
theorem values_moved_kept_perm {before : Entries α} (distinct : before.DistinctKeys)
    (fields : FieldNames) :
    ((moved fields before).values ++ (kept fields before).values).Perm before.values := by
  have parts := List.filter_append_perm (fun entry => stays fields entry.1) before
  rw [← moved_eq_filter] at parts
  rw [Entries.values, Entries.values, ← List.map_append]
  refine List.Perm.map _ (List.perm_append_comm.trans ?_)
  exact ((kept_perm distinct fields).append_right _).trans parts

theorem moved_mapValues (change : α → β) (fields : FieldNames) (before : Entries α) :
    moved fields (before.mapValues change) = (moved fields before).mapValues change := by
  rw [moved, Entries.mapValues, List.filter_map]
  rfl

theorem keep_mapValues (change : α → β) (before kept : Entries α) (field : String) :
    keep (before.mapValues change) (kept.mapValues change) field =
      (keep before kept field).mapValues change := by
  rw [keep, keep, Entries.lookup_mapValues]
  cases before.lookup (.text field) with
  | none => rfl
  | some value => exact (Entries.put_mapValues change _ value kept).symm

/-- Promotion does not look at the values of a root. -/
theorem root_mapValues (change : α → β) (fields : FieldNames) (content : α) (before : Entries α) :
    root fields (change content) (before.mapValues change) =
      (root fields content before).mapValues change := by
  have kept : kept fields (before.mapValues change) = (kept fields before).mapValues change := by
    rw [kept_eq_keep, kept_eq_keep, ← keep_mapValues, ← keep_mapValues]
    rfl
  rw [root, root, kept, Entries.put_mapValues]

end Kept

/-- A promoted root has nothing but the identifier, the name and the content. -/
theorem key_of_mem_root {before : Entries Value} {content : Value} {entry : Scalar × Value}
    (member : entry ∈ root fields content before) :
    stays fields entry.1 = true ∨ entry.1 = .text fields.content := by
  have key : entry.1 ∈ (root fields content before).map (·.1) := List.mem_map_of_mem member
  rw [root, Entries.keys_put, List.mem_append] at key
  rcases key with known | added
  · obtain ⟨⟨key, value⟩, keptMember, same⟩ := List.mem_map.mp known
    obtain ⟨name, rfl⟩ := textKeys_kept fields before _ keptMember
    have found := (distinctKeys_kept fields before).lookup_of_mem keptMember
    rw [lookup_kept] at found
    rw [← same]
    split at found
    · rename_i staying
      exact .inl staying
    · cases found
  · split at added
    · cases added
    · exact .inr (List.mem_singleton.mp added)

/-- The entries of a root that stay and do not stand under the name of the content. -/
def beside (fields : FieldNames) (before : Entries Value) : Entries Value :=
  (before.filter fun entry => stays fields entry.1).filter fun entry =>
    entry.1 ≠ .text fields.content

theorem lookup_beside (fields : FieldNames) (before : Entries Value) (name : String) :
    (beside fields before).lookup (.text name) =
      if name = fields.content then none else (kept fields before).lookup (.text name) := by
  have outer := Entries.lookup_filter_text (fun key => decide (key ≠ .text fields.content)) name
    (before.filter fun entry => stays fields entry.1)
  have inner := Entries.lookup_filter_text (stays fields) name before
  rw [beside, outer, inner, lookup_kept]
  by_cases same : name = fields.content <;> simp [same]

/-- A promoted root has the content and, of the entries that stay, all that do not stand under the
name of the content. -/
theorem root_perm (distinct : before.DistinctKeys) (content : Value) :
    (root fields content before).Perm
      (beside fields before ++ [(.text fields.content, content)]) := by
  have besideDistinct : (beside fields before).DistinctKeys := (distinct.filter _).filter _
  have besideTexts : (beside fields before).TextKeys := (textKeys_staying fields before).filter _
  have absent : (beside fields before).contains (.text fields.content) = false := by
    rw [← Entries.lookup_eq_none_iff, lookup_beside, if_pos rfl]
  rw [← Entries.put_of_not_contains absent]
  refine ((distinctKeys_kept fields before).put _ _).perm_of_lookup
    ((textKeys_kept fields before).put _ _) (besideDistinct.put _ _) (besideTexts.put _ _) ?_
  intro name
  rw [Entries.lookup_put_text, Entries.lookup_put_text, lookup_beside]
  split <;> rfl

/-- Of the entries that stay only one under the name of the content can be missing. -/
theorem beside_eq_iff : beside fields before = before.filter (fun entry => stays fields entry.1) ↔
    ¬ Collides fields before := by
  rw [beside, List.filter_eq_self]
  constructor
  · intro apart collides
    obtain ⟨staying, present⟩ := collides
    rw [Entries.contains_eq_isSome_lookup, Option.isSome_iff_exists] at present
    obtain ⟨value, found⟩ := present
    have member : (.text fields.content, value) ∈
        before.filter fun entry => stays fields entry.1 :=
      List.mem_filter.mpr ⟨Entries.mem_of_lookup_text found, staying⟩
    exact of_decide_eq_true (apart _ member) rfl
  · intro apart entry member
    obtain ⟨present, staying⟩ := List.mem_filter.mp member
    refine decide_eq_true fun same => apart ⟨same ▸ staying, ?_⟩
    rw [Entries.contains_iff, ← same]
    exact List.mem_map_of_mem present

theorem conserved_root_iff (distinct : before.DistinctKeys) :
    Conserved fields before (root fields (.object (moved fields before)) before) ↔
      ¬ Collides fields before := by
  have promoted : (root fields (.object (moved fields before)) before).Perm _ :=
    root_perm distinct (.object (moved fields before))
  rw [← beside_eq_iff, Conserved, ← moved_eq_filter]
  constructor
  · intro conserved
    have same := (List.perm_append_right_iff _).mp (promoted.symm.trans conserved)
    exact List.filter_sublist.eq_of_length same.length_eq
  · intro apart
    rwa [apart] at promoted

theorem lookup_moved {name : String} (moves : stays fields (.text name) = false)
    (before : Entries Value) :
    (moved fields before).lookup (.text name) = before.lookup (.text name) := by
  have kept := Entries.lookup_filter_text (fun key => !stays fields key) name before
  rw [moved_eq_filter, kept, moves]
  rfl

/-- What is made of the entries of a promoted root is what was made of them before, and what the
content adds of its own. -/
theorem flatMap_root_perm {α : Type} (distinct : before.DistinctKeys)
    (apart : ¬ Collides fields before) {make : Scalar × Value → List α} (own : List α)
    (opens : make (.text fields.content, .object (moved fields before)) =
      own ++ (moved fields before).flatMap make) :
    ((root fields (.object (moved fields before)) before).flatMap make).Perm
      (own ++ before.flatMap make) := by
  have conserved := ((conserved_root_iff distinct).mpr apart).flatMap_right make
  have parts := (List.filter_append_perm (fun entry => stays fields entry.1) before).flatMap_right
    make
  rw [← moved_eq_filter, List.flatMap_append, List.flatMap_singleton, opens] at conserved
  rw [List.flatMap_append, ← moved_eq_filter] at parts
  exact (conserved.trans (List.perm_append_comm_assoc ..)).trans (parts.append_left own)

theorem leavesUnder_root_perm (distinct : before.DistinctKeys) (apart : ¬ Collides fields before)
    (under : Option Scalar) :
    (Value.leavesUnder under
        (.object (root fields (.object (moved fields before)) before))).Perm
      (Value.leavesUnder under (.object before)) := by
  rw [Value.leavesUnder_object, Value.leavesUnder_object]
  exact flatMap_root_perm distinct apart [] (Value.leavesUnder_object _ _)

theorem objects_root_perm (distinct : before.DistinctKeys) (apart : ¬ Collides fields before) :
    (Value.objects (.object (root fields (.object (moved fields before)) before))).Perm
      (root fields (.object (moved fields before)) before :: moved fields before ::
        before.flatMap fun entry => entry.2.objects) := by
  rw [Value.objects_object]
  exact (flatMap_root_perm distinct apart [_] (Value.objects_object _)).cons _

theorem distinctKeys_root (distinct : (Value.object before).DistinctKeys)
    (apart : ¬ Collides fields before) :
    (Value.object (root fields (.object (moved fields before)) before)).DistinctKeys := by
  have all := Value.distinctKeys_iff_objects.mp distinct
  rw [Value.forall_objects_object] at all
  rw [Value.distinctKeys_iff_objects]
  intro object member
  rw [(objects_root_perm all.1 apart).mem_iff, List.mem_cons, List.mem_cons,
    List.mem_flatMap] at member
  rcases member with rfl | rfl | ⟨entry, entryMember, inside⟩
  · exact (distinctKeys_kept fields before).put _ _
  · exact all.1.filter _
  · exact all.2 entry entryMember object inside

/-- A configuration gives the fields any names that are not blank, and under any names promotion
succeeds. It conserves exactly those roots that do not have their identifier or their name under the
name of the content; of any other that one entry is missing. -/
theorem promote_conserves_iff (family : String) (fields : FieldNames) :
    (fields.Accepted family ↔ fields.Visible) ∧
      ∀ before : Entries Value, before.DistinctKeys →
        ∃ after : Entries Value, Rewrite.promote fields (.object before) = .ok (.object after) ∧
          after.DistinctKeys ∧ (Conserved fields before after ↔ ¬ Collides fields before) ∧
          after.Perm (beside fields before ++
            [(.text fields.content, .object (before.filter fun entry => !stays fields entry.1))])
    := by
  refine ⟨FieldNames.accepted_iff, fun before distinct => ⟨_, rfl, ?_, ?_, ?_⟩⟩
  · exact (distinctKeys_kept fields before).put _ _
  · exact conserved_root_iff distinct
  · rw [← moved_eq_filter]
    exact root_perm distinct _

/-- Names under which the identifier stands where the content goes. -/
def sharedName : FieldNames := { FieldNames.standard with id := "content" }

theorem promote_conserves_iff_sharedName :
    sharedName.Accepted "service" ∧
      Entries.DistinctKeys [(.text "content", Value.text "x")] ∧
      Rewrite.promote sharedName (.object [(.text "content", .text "x")]) =
        .ok (.object [(.text "content", .object [])]) ∧
      ¬ Conserved sharedName [(.text "content", .text "x")] [(.text "content", .object [])] := by
  have visible : sharedName.Visible := by
    unfold FieldNames.Visible
    decide
  have distinct : Entries.DistinctKeys [(.text "content", Value.text "x")] :=
    Entries.DistinctKeys.nil.put _ _
  obtain ⟨accepted, promotes⟩ := promote_conserves_iff "service" sharedName
  obtain ⟨after, promoted, _, conserved, _⟩ := promotes _ distinct
  refine ⟨accepted.mpr visible, distinct, rfl, ?_⟩
  cases promoted
  exact fun all => conserved.mp all ⟨rfl, rfl⟩

end Uplift.Promotion
