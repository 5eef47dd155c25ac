import Uplift.Proofs.Rewrite.Filling

/-!
# What filling makes of a tree

Where a field is null or white space, it is filled in its place. All else in the tree stays where it
is, also what lies below the field where it is not blank, and no field is added. So no object has
the field blank afterwards, and to fill once more changes nothing.
-/

set_option autoImplicit false

namespace Uplift

namespace Value

/-- There is something to be seen: all values but null and texts of white space. -/
def Visible (value : Value) : Prop :=
  value ≠ .null ∧ ∀ written, value = .text written → Text.isBlank written = false

theorem isWordless_eq_false_iff {value : Value} : value.isWordless = false ↔ value.Visible := by
  rw [Bool.eq_false_iff, ne_eq, isWordless_iff, Visible]
  simp

mutual

/-- A tree becomes another one by filling a field wherever it is blank. -/
inductive Filled (field : String) (filling : Scalar) : Value → Value → Prop where
  | scalar (value : Scalar) : Filled field filling (.scalar value) (.scalar value)
  | array {items others : List Value} : List.Forall₂ (Filled field filling) items others →
      Filled field filling (.array items) (.array others)
  | object {entries others : Entries Value} :
      List.Forall₂ (FilledEntry field filling) entries others →
      Filled field filling (.object entries) (.object others)

/-- What becomes of an entry in its place. -/
inductive FilledEntry (field : String) (filling : Scalar) :
    Scalar × Value → Scalar × Value → Prop where
  | null : FilledEntry field filling (.text field, .null) (.text field, .scalar filling)
  | whiteSpace {written : String} : Text.isBlank written = true →
      FilledEntry field filling (.text field, .text written) (.text field, .scalar filling)
  | kept {key : Scalar} {value other : Value} : (key = .text field → value.Visible) →
      Filled field filling value other → FilledEntry field filling (key, value) (key, other)

end

end Value

namespace Rewrite

open Rule (filledValue)

variable {field stepId : String} {filling : Scalar} {value : Value}

theorem filled_amendObjects (field stepId : String) (filling : Scalar) (value : Value)
    (distinct : value.DistinctKeys) :
    value.Filled field filling
      (amendObjects (Rule.fillWordless field (.scalar filling) stepId) value) := by
  induction value using Value.induction with
  | scalar scalar => exact .scalar scalar
  | array items ih =>
      rw [Value.DistinctKeys.array_iff] at distinct
      rw [amendObjects_array]
      refine .array ?_
      rw [List.forall₂_map_right_iff, List.forall₂_same]
      exact fun item member => ih item member (distinct item member)
  | object entries ih =>
      obtain ⟨own, below⟩ := Value.DistinctKeys.object_iff.mp distinct
      rw [amendObjects_object, rewritten_fillWordless own]
      refine .object ?_
      rw [List.forall₂_map_right_iff, List.forall₂_same]
      intro entry member
      have inside := ih entry member (below entry member)
      obtain ⟨key, stored⟩ := entry
      by_cases filled : key = .text field ∧ stored.isWordless = true
      · obtain ⟨rfl, blank⟩ := filled
        rw [Rule.filledValue_of_blank _ blank]
        rcases Value.isWordless_iff.mp blank with rfl | ⟨written, rfl, white⟩
        · exact .null
        · exact .whiteSpace white
      · have visible : key = .text field → stored.isWordless = false := by simpa using filled
        rw [Rule.filledValue_of_not_blank visible]
        exact .kept (fun same => Value.isWordless_eq_false_iff.mp (visible same)) inside

/-- The objects of a tree keep their keys, and no object is added. -/
theorem objects_keys_filled (distinct : value.DistinctKeys) :
    (amendObjects (Rule.fillWordless field (.scalar filling) stepId) value).objects.map
        (List.map (·.1)) =
      value.objects.map (List.map (·.1)) := by
  induction value using Value.induction with
  | scalar scalar => rfl
  | array items ih =>
      rw [Value.DistinctKeys.array_iff] at distinct
      rw [amendObjects_array, Value.objects_array, Value.objects_array, List.flatMap_map,
        List.map_flatMap, List.map_flatMap]
      exact List.flatMap_congr fun item member => ih item member (distinct item member)
  | object entries ih =>
      obtain ⟨own, below⟩ := Value.DistinctKeys.object_iff.mp distinct
      rw [amendObjects_object, Value.objects_object, Value.objects_object, List.map_cons,
        List.map_cons, ← keys_rewritten_fillWordless own, rewritten_fillWordless own, List.flatMap_map,
        List.map_flatMap, List.map_flatMap]
      refine congrArg (List.cons _) (List.flatMap_congr fun entry member => ?_)
      unfold filledValue
      dsimp only
      split
      · rename_i filled
        obtain ⟨_, blank⟩ := Bool.and_eq_true_iff.mp filled
        rcases Value.isWordless_iff.mp blank with same | ⟨written, same, _⟩
        · rw [same]
          rfl
        · rw [same]
          rfl
      · exact ih entry member (below entry member)

/-- What a tree becomes when a field is filled throughout it. -/
structure FillsThroughout (field : String) (filling : Scalar) (value filled : Value) : Prop where
  shape : value.Filled field filling filled
  distinct : filled.DistinctKeys
  visible : ∀ object ∈ filled.objects, ∀ found,
    object.lookup (.text field) = some found → found.Visible
  /-- No object has gained a field, or lost one. -/
  names : filled.objects.map (List.map (·.1)) = value.objects.map (List.map (·.1))
  again : filling.isWritable = true → fillBlank field (.scalar filling) filled = .ok filled

/-- A field that can be read in every object, and what it is filled with, can be read in every object
afterwards. -/
theorem forall_legibleAt_filled (distinct : value.DistinctKeys)
    (writable : filling.isWritable = true)
    (legible : ∀ object ∈ value.objects, object.legibleAt field = true) :
    ∀ object ∈ (amendObjects (Rule.fillWordless field (.scalar filling) stepId) value).objects,
      object.legibleAt field = true := by
  have known : ∀ object ∈ value.objects,
      object.DistinctKeys ∧ object.legibleAt field = true := fun object member =>
    ⟨Value.distinctKeys_iff_objects.mp distinct object member, legible object member⟩
  refine forall_objects_amendObjects (fun entries known => ?_)
    (fun entries known entry member => ?_) known
  · refine Entries.legibleAt_iff.mpr fun found located => ?_
    rw [rewritten_fillWordless known.1] at located
    obtain ⟨⟨key, stored⟩, member, same⟩ := List.mem_map.mp (Entries.mem_of_lookup_text located)
    obtain ⟨rfl, rfl⟩ := Prod.mk.inj same
    unfold filledValue
    split
    · exact writable
    · rw [isLegible_amendObjects]
      exact Entries.legibleAt_iff.mp known.2 stored (known.1.lookup_of_mem member)
  · rw [rewritten_fillWordless known.1] at member
    obtain ⟨source, sourceMember, rfl⟩ := List.mem_map.mp member
    unfold filledValue
    dsimp only
    split
    · exact .inl rfl
    · exact .inr ⟨source, sourceMember, rfl⟩

/-- To fill a field throughout a tree fails exactly if the text of the field cannot be made in some
object, where it holds an integer of too many digits. Else the field is filled wherever it is
blank, and nothing else happens. -/
theorem fillsThroughout_fillBlank (field : String) (visible : (Value.scalar filling).Visible)
    (distinct : value.DistinctKeys) :
    (fillBlank field (.scalar filling) value = .error .integerTooLong ↔
        ∃ object ∈ value.objects, object.legibleAt field = false) ∧
      ((∀ object ∈ value.objects, object.legibleAt field = true) →
        ∃ filled, fillBlank field (.scalar filling) value = .ok filled ∧
          FillsThroughout field filling value filled) := by
  refine ⟨everyObject_fillBlank_eq_error_iff, fun legible => ?_⟩
  have seen : filling.isWordless = false := Value.isWordless_eq_false_iff.mpr visible
  have own := Value.distinctKeys_iff_objects.mp distinct
  have objects : ∀ object ∈
      (amendObjects (Rule.fillWordless field (.scalar filling) "") value).objects,
        (object.DistinctKeys ∧ True) ∧
          ∀ found, object.lookup (.text field) = some found → found.isWordless = false :=
    forall_objects_filled (fun _ _ _ _ => trivial) seen fun object member =>
      ⟨own object member, trivial⟩
  refine ⟨_, congrArg Logged.outcome (everyObject_fillBlank_of_legible legible),
    filled_amendObjects field "" filling value distinct, ?_, ?_, objects_keys_filled distinct,
    fun writable => ?_⟩
  · exact Value.distinctKeys_iff_objects.mpr fun object member => (objects object member).1.1
  · exact fun object member found located =>
      Value.isWordless_eq_false_iff.mp ((objects object member).2 found located)
  · have settled : ∀ object ∈
        (amendObjects (Rule.fillWordless field (.scalar filling) "") value).objects,
          object.legibleAt field = true := forall_legibleAt_filled distinct writable legible
    refine (congrArg Logged.outcome (everyObject_fillBlank_of_legible settled)).trans ?_
    exact congrArg Except.ok (amendObjects_eq_self fun object member =>
      Rule.edits_fillWordless "" (objects object member).2)

/-- A tree with a field that is blank, and that is not, above and below itself. -/
def partlyBlank : Value :=
  .object [(.text "key", .text " "), (.null, .text " "),
    (.text "items", .array [.object [(.text "key", .null)], .object [(.text "key", .array [])],
      .object [(.text "key", .object [(.text "size", .int 0), (.text "key", .text "")])]])]

def partlyBlankFilled : Value :=
  .object [(.text "key", .text "set"), (.null, .text " "),
    (.text "items", .array [.object [(.text "key", .text "set")], .object [(.text "key", .array [])],
      .object [(.text "key", .object [(.text "size", .int 0), (.text "key", .text "set")])]])]

theorem fillsThroughout_fillBlank_partlyBlank :
    (Value.text "set").Visible ∧ partlyBlank.DistinctKeys ∧
      (∀ object ∈ partlyBlank.objects, object.legibleAt "key" = true) ∧
        fillBlank "key" (.text "set") partlyBlank = .ok partlyBlankFilled ∧
          FillsThroughout "key" (.text "set") partlyBlank partlyBlankFilled := by
  have visible : (Value.text "set").Visible := Value.isWordless_eq_false_iff.mp (by decide)
  have distinct : partlyBlank.DistinctKeys := by
    simp [partlyBlank, Entries.DistinctKeys, Scalar.key]
  have legible : ∀ object ∈ partlyBlank.objects, object.legibleAt "key" = true := by
    decide
  have done : fillBlank "key" (.text "set") partlyBlank = .ok partlyBlankFilled := rfl
  obtain ⟨filled, same, fills⟩ := (fillsThroughout_fillBlank "key" visible distinct).2 legible
  cases done.symm.trans same
  exact ⟨visible, distinct, legible, done, fills⟩

end Rewrite

end Uplift
