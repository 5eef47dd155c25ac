import Uplift.Proofs.Outcome
import Uplift.Proofs.Rewrite.EveryObject
import Uplift.Proofs.Scalar.Blank

/-!
# Filled fields

A field without words is filled in each object of a tree, unless the text of the field cannot be made
in one of them: then the tree is not filled at all. Where a field is filled all keys and all other
values stay in their places. So a tree that is filled throughout has the leaves it had, but for the
blank ones under the name of the field.
-/

set_option autoImplicit false

namespace Uplift

namespace Rule

/-- Gives a value to a field that has no words. -/
def fillWordless (field : String) (value : Value) : Rule := fun _ entries =>
  match entries.lookup (.text field) with
  | none => .none
  | some found => if found.isWordless then .ofEdits [.set field value] else .none

/-- What a field is filled with where it is blank, and what its value changes to where it is not. -/
def filledValue (field : String) (filling : Value) (change : Value → Value)
    (entry : Scalar × Value) : Value :=
  if entry.1 = .text field && entry.2.isWordless then filling else change entry.2

variable {field stepId : String} {filling : Value} {change : Value → Value}
  {entries : Entries Value} {entry : Scalar × Value}

theorem filledValue_of_blank (value : Value) (blank : value.isWordless = true) :
    filledValue field filling change (.text field, value) = filling := by
  simp [filledValue, blank]

theorem filledValue_of_not_blank (kept : entry.1 = .text field → entry.2.isWordless = false) :
    filledValue field filling change entry = change entry.2 := by
  rw [filledValue, if_neg]
  rw [Bool.and_eq_true, decide_eq_true_eq, not_and, Bool.not_eq_true]
  exact kept

theorem spares_fillWordless {other : String} (different : field ≠ other) (stepId : String)
    (entries : Entries Outline) : (fillWordless field filling stepId entries).Spares other := by
  unfold fillWordless
  split
  · exact nofun
  · split
    · intro edit member
      cases List.mem_singleton.mp member
      exact different
    · exact nofun

theorem notes_fillWordless (stepId : String) (entries : Entries Outline) :
    (fillWordless field filling stepId entries).notes = [] := by
  unfold fillWordless
  split
  · rfl
  · split <;> rfl

theorem edits_fillWordless (stepId : String)
    (visible : ∀ found, entries.lookup (.text field) = some found → found.isWordless = false) :
    (fillWordless field filling stepId (Rewrite.outlines entries)).edits = [] := by
  rw [fillWordless, Rewrite.lookup_outlines]
  cases located : entries.lookup (.text field) with
  | none => rfl
  | some found =>
      rw [Option.map_some]
      dsimp only
      rw [Value.isWordless_outline, visible found located]
      rfl

/-- Filling a field in an object goes over its entries one by one. -/
theorem apply_fillWordless (stepId : String) (distinct : entries.DistinctKeys) :
    (fillWordless field filling stepId (Rewrite.outlines entries)).apply (entries.mapValues change) =
      entries.map fun entry => (entry.1, filledValue field filling change entry) := by
  have unfilled (kept : ∀ value, entries.lookup (.text field) = some value →
      value.isWordless = false) : entries.mapValues change =
        entries.map fun entry => (entry.1, filledValue field filling change entry) := by
    refine List.map_congr_left fun entry member => Prod.ext rfl ?_
    refine (filledValue_of_not_blank fun key => kept _ ?_).symm
    rw [← key]
    exact distinct.lookup_of_mem member
  rw [fillWordless, Rewrite.lookup_outlines]
  cases found : entries.lookup (.text field) with
  | none => exact unfilled fun value present => by rw [found] at present; cases present
  | some value =>
      rw [Option.map_some]
      dsimp only
      rw [Value.isWordless_outline]
      split
      · rename_i blank
        have present : (entries.mapValues change).contains (.text field) = true := by
          rw [Entries.contains_mapValues, Entries.contains_of_lookup found]
        refine (Entries.put_of_contains present filling).trans ?_
        rw [Entries.mapValues, List.map_map]
        refine List.map_congr_left fun entry member => ?_
        obtain ⟨key, stored⟩ := entry
        rw [Function.comp_apply, Scalar.sameKey_comm]
        by_cases same : key = .text field
        · subst same
          rw [distinct.lookup_of_mem member, Option.some.injEq] at found
          rw [found, filledValue_of_blank _ blank, if_pos (Scalar.sameKey_refl _)]
        · rw [if_neg (mt Scalar.sameKey_text_iff.mp same),
            filledValue_of_not_blank fun key => absurd key same]
      · rename_i visible
        exact unfilled fun other present => by
          rw [found] at present
          cases present
          simpa using visible

end Rule

/-- What becomes of a leaf where a field is filled. -/
def Rule.filledLeaf (field : String) (filling : Scalar) (leaf : Option Scalar × Scalar) : Scalar :=
  if leaf.1 = some (.text field) && leaf.2.isWordless then filling else leaf.2

/-- To fill a field fails where its text cannot be made, and amends the object where it can. -/
theorem FallibleRule.fillBlank_eq (field stepId : String) (filling : Value)
    (entries : Entries Value) :
    fillBlank field filling stepId (Rewrite.outlines entries) =
      answerIf (entries.legibleAt field)
        (Rule.fillWordless field filling stepId (Rewrite.outlines entries)) := by
  rw [fillBlank, editIf, Rule.fillWordless, Rewrite.lookup_outlines, Entries.legibleAt]
  cases entries.lookup (.text field) with
  | none => rfl
  | some found =>
      rw [Option.map_some]
      dsimp only
      rw [Outline.isBlank_eq, map_answerIf]
      rfl

namespace Rewrite

open Rule (filledValue filledLeaf)

/-- A field is filled throughout a tree if its text can be made in every object of it. -/
theorem everyObject_fillBlank_of_legible {field stepId : String} {filling value : Value}
    (legible : ∀ object ∈ value.objects, object.legibleAt field = true) :
    everyObject (FallibleRule.fillBlank field filling stepId) value =
      ⟨amendObjectsNotes (Rule.fillWordless field filling stepId) value,
        .ok (amendObjects (Rule.fillWordless field filling stepId) value)⟩ :=
  everyObject_eq_of_ok fun object member => by
    rw [FallibleRule.fillBlank_eq, legible object member]
    rfl

theorem everyObject_fillBlank_eq_error_iff {field stepId : String} {filling value : Value} :
    (everyObject (FallibleRule.fillBlank field filling stepId) value).outcome =
        .error .integerTooLong ↔
      ∃ object ∈ value.objects, object.legibleAt field = false := by
  rw [everyObject_eq_error_iff]
  · simp only [FallibleRule.fillBlank_eq, answerIf_eq_error_iff, and_true]
  · intro entries other failed
    unfold FallibleRule.fillBlank FallibleRule.editIf at failed
    split at failed
    · cases failed
    · rw [Outcome.map_eq_error_iff, Outline.isBlank_eq, answerIf_eq_error_iff] at failed
      exact failed.2

variable {field stepId : String} {filling : Scalar} {entries : Entries Value} {value : Value}

theorem rewritten_fillWordless (distinct : entries.DistinctKeys) :
    rewritten (Rule.fillWordless field (.scalar filling) stepId) entries =
      entries.map fun entry => (entry.1, filledValue field (.scalar filling)
        (amendObjects (Rule.fillWordless field (.scalar filling) stepId)) entry) :=
  Rule.apply_fillWordless stepId distinct

theorem keys_rewritten_fillWordless (distinct : entries.DistinctKeys) :
    entries.map (·.1) =
      (rewritten (Rule.fillWordless field (.scalar filling) stepId) entries).map (·.1) := by
  rw [rewritten_fillWordless distinct, List.map_map]
  rfl

theorem isWordless_amendObjects (rule : Entries Outline → Amendment) (value : Value) :
    (amendObjects rule value).isWordless = value.isWordless := by
  cases value <;> rfl

/-- In a tree that was filled no object has the field blank. What is known of the objects by their
keys is known of them still. -/
theorem forall_objects_filled {holds : Entries Value → Prop}
    (byKeys : ∀ entries others : Entries Value, entries.map (·.1) = others.map (·.1) →
      holds entries → holds others)
    (visible : filling.isWordless = false)
    (all : ∀ object ∈ value.objects, object.DistinctKeys ∧ holds object) :
    ∀ object ∈ (amendObjects (Rule.fillWordless field (.scalar filling) stepId) value).objects,
      (object.DistinctKeys ∧ holds object) ∧
        ∀ found, object.lookup (.text field) = some found → found.isWordless = false := by
  refine forall_objects_amendObjects (fun entries known => ⟨⟨?_, ?_⟩, fun found located => ?_⟩)
    (fun entries known entry member => ?_) all
  · exact known.1.of_keys (keys_rewritten_fillWordless known.1)
  · exact byKeys _ _ (keys_rewritten_fillWordless known.1) known.2
  · rw [rewritten_fillWordless known.1] at located
    obtain ⟨⟨key, stored⟩, member, same⟩ := List.mem_map.mp (Entries.mem_of_lookup_text located)
    obtain ⟨rfl, rfl⟩ := Prod.mk.inj same
    cases blank : stored.isWordless with
    | true => rw [Rule.filledValue_of_blank stored blank]; exact visible
    | false =>
        rw [Rule.filledValue_of_not_blank fun _ => blank, isWordless_amendObjects]
        exact blank
  · rw [rewritten_fillWordless known.1] at member
    obtain ⟨source, sourceMember, rfl⟩ := List.mem_map.mp member
    unfold filledValue
    dsimp only
    split
    · exact .inl rfl
    · exact .inr ⟨source, sourceMember, rfl⟩

/-- The leaves of a tree that was filled, but for a tree that would be filled itself. -/
theorem leaves_filled (distinct : value.DistinctKeys) (key : Option Scalar)
    (kept : key = some (.text field) → value.isWordless = false) :
    (amendObjects (Rule.fillWordless field (.scalar filling) stepId) value).leaves =
      (value.leavesUnder key).map (filledLeaf field filling) := by
  -- The key is arbitrary: below an object each value comes with a key of its own.
  induction value using Value.induction generalizing key with
  | scalar leaf =>
      have same : filledLeaf field filling (key, leaf) = leaf := by
        rw [filledLeaf, if_neg]
        rw [Bool.and_eq_true, decide_eq_true_eq, not_and, Bool.not_eq_true]
        exact kept
      rw [Value.leavesUnder, List.map_singleton, same]
      rfl
  | array items ih =>
      rw [amendObjects_array, Value.leaves_array, Value.leavesUnder_array, List.map_flatMap,
        List.flatMap_map]
      exact List.flatMap_congr fun item member =>
        ih item member (Value.DistinctKeys.array_iff.mp distinct item member) none
          fun same => by cases same
  | object entries ih =>
      obtain ⟨own, below⟩ := Value.DistinctKeys.object_iff.mp distinct
      rw [amendObjects_object, Value.leaves_object, Value.leavesUnder_object, List.map_flatMap,
        rewritten_fillWordless own, List.flatMap_map]
      refine List.flatMap_congr fun entry member => ?_
      obtain ⟨key, stored⟩ := entry
      by_cases filled : key = .text field ∧ stored.isWordless = true
      · obtain ⟨rfl, blank⟩ := filled
        rw [Rule.filledValue_of_blank _ blank]
        cases stored with
        | scalar leaf =>
            have blankLeaf : leaf.isWordless = true := blank
            simp [Value.leaves, Value.leavesUnder, filledLeaf, blankLeaf]
        | array items => cases blank
        | object entries => cases blank
      · have visible : key = .text field → stored.isWordless = false := by simpa using filled
        rw [Rule.filledValue_of_not_blank visible]
        exact ih (key, stored) member (below _ member) _ fun same => visible (Option.some.inj same)

/-- Directly below a tree that was filled there is what becomes of what was there, scalars apart. -/
theorem children_filled {α : Type} {make : Value → List α}
    (plain : ∀ scalar, make (.scalar scalar) = []) (distinct : value.DistinctKeys) :
    (amendObjects (Rule.fillWordless field (.scalar filling) stepId) value).children.flatMap make =
      value.children.flatMap fun child =>
        make (amendObjects (Rule.fillWordless field (.scalar filling) stepId) child) := by
  cases value with
  | scalar scalar => rfl
  | array items => rw [amendObjects_array, Value.children, Value.children, List.flatMap_map]
  | object entries =>
      rw [amendObjects_object, Value.children, Value.children,
        rewritten_fillWordless distinct.keys, List.map_map, List.flatMap_map, List.flatMap_map]
      refine List.flatMap_congr fun entry _ => ?_
      obtain ⟨key, stored⟩ := entry
      rw [Function.comp_apply]
      unfold filledValue
      split
      · rename_i filled
        cases stored with
        | scalar leaf =>
            rw [plain]
            exact (plain leaf).symm
        | array items => simp [Value.isWordless] at filled
        | object entries => simp [Value.isWordless] at filled
      · rfl

end Rewrite

end Uplift
