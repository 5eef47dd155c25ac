import Uplift.Proofs.Rewrite.Edits
import Uplift.Proofs.Rewrite.Filling
import Uplift.Proofs.Rewrite.Renaming

/-!
# From the root down

A rule can be applied to every object of a tree from the root down, so that what lies below an object
is visited as the object has left it. Renaming a field and filling one with a scalar do the same in
this order as when each object is amended after what lies below it.
-/

set_option autoImplicit false

namespace Uplift

/-- No way down a tree passes more containers than the bound. -/
inductive Value.Within : Nat → Value → Prop where
  | scalar (bound : Nat) (value : Scalar) : Within bound (.scalar value)
  | array {bound : Nat} {items : List Value} : (∀ item ∈ items, Within bound item) →
      Within (bound + 1) (.array items)
  | object {bound : Nat} {entries : Entries Value} : (∀ entry ∈ entries, Within bound entry.2) →
      Within (bound + 1) (.object entries)

namespace Value.Within

variable {bound wider : Nat} {value : Value}

theorem mono (within : value.Within bound) (le : bound ≤ wider) : value.Within wider := by
  induction value using Value.induction generalizing bound wider with
  | scalar scalar => exact .scalar wider scalar
  | array items ih =>
      cases within with
      | @array less _ below =>
          obtain ⟨wider, rfl⟩ : ∃ less, wider = less + 1 := ⟨wider - 1, by omega⟩
          exact .array fun item member => ih item member (below item member) (by omega)
  | object entries ih =>
      cases within with
      | @object less _ below =>
          obtain ⟨wider, rfl⟩ : ∃ less, wider = less + 1 := ⟨wider - 1, by omega⟩
          exact .object fun entry member => ih entry member (below entry member) (by omega)

theorem children (within : value.Within (bound + 1)) :
    ∀ child ∈ value.children, child.Within bound := by
  cases within with
  | scalar => exact nofun
  | array below => exact below
  | object below => exact List.forall_mem_map.mpr below

theorem of_mem_children {child : Value} (within : value.Within bound)
    (member : child ∈ value.children) : child.Within bound :=
  (within.mono (Nat.le_succ bound)).children child member

end Value.Within

namespace Rewrite

/-- Applies a rule to every object of a tree, to each before what lies below it. The walk goes as
deep as its first argument. -/
def topDown (rule : Entries Outline → Except Fault Amendment) : Nat → Value → Logged Fault Value
  | 0, value => pure value
  | fuel + 1, value => thisObject rule value >>= changeChildren (topDown rule fuel)

variable {rule : Entries Outline → Except Fault Amendment} {total : Entries Outline → Amendment}
  {change : Value → Value} {entries : Entries Value} {amendment : Amendment} {fuel : Nat}
  {value : Value}

/-- An amendment that brings along nothing but scalars. -/
def bringsScalars (amendment : Amendment) : Prop :=
  ∀ field value, Edit.set field value ∈ amendment.edits → ∃ scalar, value = .scalar scalar

/-- Such an amendment does not meet a change of all values that leaves scalars as they are. -/
theorem mapValues_apply (brings : bringsScalars amendment)
    (leaves : ∀ scalar, change (.scalar scalar) = .scalar scalar) (entries : Entries Value) :
    (amendment.apply entries).mapValues change = amendment.apply (entries.mapValues change) := by
  unfold bringsScalars at brings
  unfold Amendment.apply
  generalize amendment.edits = edits at brings
  induction edits generalizing entries with
  | nil => rfl
  | cons edit rest ih =>
      have same : edit.map change = edit := by
        cases edit with
        | drop field => rfl
        | rename old new => rfl
        | set field value =>
            obtain ⟨scalar, rfl⟩ := brings field value (.head _)
            rw [Edit.map, leaves]
      rw [List.foldl_cons, List.foldl_cons, ih _ fun field value member =>
        brings field value (.tail _ member), Edit.mapValues_apply, same]

theorem mapChildren_amendObject (brings : ∀ seen, bringsScalars (total seen)) (value : Value) :
    mapChildren (amendObjects total) (amendObject total value) = amendObjects total value := by
  cases value with
  | scalar scalar => rfl
  | array items => exact (amendObjects_array items).symm
  | object entries =>
      rw [amendObjects_object, rewritten, ← mapValues_apply (brings _) fun _ => rfl]
      rfl

/-!
## Children one after the other
-/

/-- A node with other children in the places of its own. -/
def withChildren : Value → List Value → Value
  | .scalar value, _ => .scalar value
  | .array _, items => .array items
  | .object entries, values => .object ((entries.map (·.1)).zip values)

theorem withChildren_map (change : Value → Value) (value : Value) :
    withChildren value (value.children.map change) = mapChildren change value := by
  cases value with
  | scalar scalar => rfl
  | array items => rfl
  | object entries =>
      rw [withChildren, Value.children, List.map_map, List.zip_map', mapChildren, Entries.mapValues]
      rfl

private theorem walkValues_eq (visit : Value → Logged Fault Value) (entries : Entries Value) :
    walkValues (fun _ => visit) entries =
      walkItems visit entries.values >>= fun values => pure ((entries.map (·.1)).zip values) := by
  induction entries with
  | nil => rfl
  | cons entry rest ih =>
      change _ = walkItems visit (entry.2 :: Entries.values rest) >>= _
      rw [walkValues, walkItems, ih]
      simp only [Logged.bind_bind, Logged.pure_bind]
      rfl

/-- The children of a node are visited one after the other, and the keys of an object stay. -/
theorem changeChildren_eq (visit : Value → Logged Fault Value) (value : Value) :
    changeChildren visit value =
      walkItems visit value.children >>= fun children => pure (withChildren value children) := by
  cases value with
  | scalar scalar => rfl
  | array items => rfl
  | object entries =>
      rw [changeChildren, walkValues_eq, Logged.bind_bind]
      rfl

/-- Visits that make no notes, and of which some fail, make a walk that fails if one of them does. -/
theorem walkItems_eq_answer {visit : Value → Logged Fault Value} {legible : Value → Bool}
    {items : List Value}
    (visits : ∀ item ∈ items, visit item = .ofExcept (answerIf (legible item) (change item))) :
    walkItems visit items = .ofExcept (answerIf (items.all legible) (items.map change)) := by
  induction items with
  | nil => rfl
  | cons item rest ih =>
      obtain ⟨first, others⟩ := List.forall_mem_cons.mp visits
      rw [walkItems, first, ih others, List.all_cons]
      cases legible item with
      | false => rfl
      | true => cases rest.all legible <;> rfl

theorem changeChildren_eq_answer {visit : Value → Logged Fault Value} {legible : Value → Bool}
    (visits : ∀ child ∈ value.children,
      visit child = .ofExcept (answerIf (legible child) (change child))) :
    changeChildren visit value =
      .ofExcept (answerIf (value.children.all legible) (mapChildren change value)) := by
  rw [changeChildren_eq, walkItems_eq_answer visits, ← withChildren_map]
  cases value.children.all legible <;> rfl

/-!
## Renaming
-/

section Renaming

variable {old new stepId : String}

theorem bringsScalars_renameField (old new stepId : String) (seen : Entries Outline) :
    bringsScalars (Rule.renameField old new stepId seen) := by
  unfold Rule.renameField
  split
  · exact nofun
  · split
    · exact nofun
    · intro field value member
      cases List.mem_singleton.mp member

private theorem renames_self (old new stepId : String) (distinct : entries.DistinctKeys) :
    Rule.Renames old new id entries
      ((Rule.renameField old new stepId (outlines entries)).apply entries) := by
  have renames := Rule.renames old new stepId id distinct
  rwa [show entries.mapValues id = entries from List.map_id entries] at renames

private theorem mem_children_renamed (distinct : value.DistinctKeys) {child : Value}
    (member : child ∈ (amendObject (Rule.renameField old new stepId) value).children) :
    child ∈ value.children := by
  cases value with
  | scalar scalar => exact member
  | array items => exact member
  | object entries =>
      obtain ⟨entry, entryMember, rfl⟩ := List.mem_map.mp member
      obtain ⟨source, sourceMember, same⟩ :=
        (renames_self old new stepId distinct.keys).exists_source entryMember
      rw [same]
      exact List.mem_map_of_mem sourceMember

/-- The warnings below an object come to the same after a field of it was renamed. -/
theorem notes_renamed (old new stepId : String) (distinct : value.DistinctKeys) :
    amendObjectNotes (Rule.renameField old new stepId) value ++
        (amendObject (Rule.renameField old new stepId) value).children.flatMap
          (amendObjectsNotes (Rule.renameField old new stepId)) =
      amendObjectsNotes (Rule.renameField old new stepId) value := by
  cases value with
  | scalar scalar => rfl
  | array items =>
      rw [amendObjectsNotes, Value.objects_array, List.flatMap_assoc]
      rfl
  | object entries =>
      -- They are all one warning, so that their order does not show.
      have all (entries : Entries Value) :
          (entries.values.flatMap (amendObjectsNotes (Rule.renameField old new stepId))) =
            List.replicate
              ((entries.flatMap fun entry => entry.2.objects).countP (Rule.clashes old new))
              (.warning stepId ("Object already has field " ++ new)) := by
        rw [← Rule.flatMap_notes_renameField, List.flatMap_assoc]
        exact List.flatMap_map ..
      have objects : (((Rule.renameField old new stepId (outlines entries)).apply entries).flatMap
          fun entry => entry.2.objects).Perm (entries.flatMap fun entry => entry.2.objects) :=
        (renames_self old new stepId distinct.keys).flatMap_perm (fun _ _ => .refl _) fun _ => rfl
      rw [amendObjectsNotes, Value.objects_object, List.flatMap_cons,
        Rule.flatMap_notes_renameField old new stepId (entries.flatMap _), ← objects.countP_eq, ← all]
      rfl

theorem topDown_renameField (old new stepId : String) (distinct : value.DistinctKeys)
    (within : value.Within fuel) :
    topDown ((Rule.renameField old new).fallible stepId) fuel value =
      everyObject ((Rule.renameField old new).fallible stepId) value := by
  have every (value : Value) : everyObject ((Rule.renameField old new).fallible stepId) value =
      ⟨amendObjectsNotes (Rule.renameField old new stepId) value,
        .ok (amendObjects (Rule.renameField old new stepId) value)⟩ :=
    everyObject_eq_of_ok fun _ _ => rfl
  induction fuel generalizing value with
  | zero =>
      cases within
      rfl
  | succ fuel ih =>
      have below : changeChildren (topDown ((Rule.renameField old new).fallible stepId) fuel)
          (amendObject (Rule.renameField old new stepId) value) =
            ⟨(amendObject (Rule.renameField old new stepId) value).children.flatMap
                (amendObjectsNotes (Rule.renameField old new stepId)),
              .ok (mapChildren (amendObjects (Rule.renameField old new stepId))
                (amendObject (Rule.renameField old new stepId) value))⟩ :=
        changeChildren_eq_of_ok fun child member => by
          have inside := mem_children_renamed distinct member
          rw [ih (distinct.of_mem_children inside) (within.children child inside), every]
      rw [topDown, thisObject_eq_of_ok fun _ _ => rfl, Logged.bind_eq_of_ok _ rfl, below, every,
        mapChildren_amendObject (bringsScalars_renameField old new stepId)]
      exact congrArg (Logged.mk · _) (notes_renamed old new stepId distinct)

end Renaming

/-!
## Filling
-/

section Filling

variable {field stepId : String} {filling : Scalar}

theorem bringsScalars_fillWordless (field stepId : String) (filling : Scalar)
    (seen : Entries Outline) :
    bringsScalars (Rule.fillWordless field (.scalar filling) stepId seen) := by
  unfold Rule.fillWordless
  split
  · exact nofun
  · split
    · intro other value member
      cases List.mem_singleton.mp member
      exact ⟨filling, rfl⟩
    · exact nofun

/-- Whether the text of the field can be made in every object of a tree. -/
def legibleThroughout (field : String) (value : Value) : Bool :=
  value.objects.all (Entries.legibleAt field)

theorem legibleThroughout_object (field : String) (entries : Entries Value) :
    legibleThroughout field (.object entries) =
      (entries.legibleAt field && entries.values.all (legibleThroughout field)) := by
  rw [legibleThroughout, Value.objects_object, List.all_cons, List.all_flatMap, Entries.values,
    List.all_map]
  rfl

theorem legibleThroughout_array (field : String) (items : List Value) :
    legibleThroughout field (.array items) = items.all (legibleThroughout field) := by
  rw [legibleThroughout, Value.objects_array, List.all_flatMap]
  rfl

private theorem apply_fillWordless_self (distinct : entries.DistinctKeys) :
    (Rule.fillWordless field (.scalar filling) stepId (outlines entries)).apply entries =
      entries.map fun entry => (entry.1, Rule.filledValue field (.scalar filling) id entry) := by
  have filled : (Rule.fillWordless field (.scalar filling) stepId (outlines entries)).apply
      (entries.mapValues id) = _ := Rule.apply_fillWordless stepId distinct
  rwa [show entries.mapValues id = entries from List.map_id entries] at filled

/-- What is filled was a scalar, and is one. -/
private theorem filledValue_cases (entry : Scalar × Value) :
    Rule.filledValue field (.scalar filling) id entry = entry.2 ∨
      ∃ scalar, entry.2 = .scalar scalar ∧
        Rule.filledValue field (.scalar filling) id entry = .scalar filling := by
  obtain ⟨key, value⟩ := entry
  unfold Rule.filledValue
  split
  · rename_i filled
    cases value with
    | scalar scalar => exact .inr ⟨scalar, rfl, rfl⟩
    | array items => simp [Value.isWordless] at filled
    | object entries => simp [Value.isWordless] at filled
  · exact .inl rfl

private theorem mem_children_filled (distinct : value.DistinctKeys) {child : Value}
    (member : child ∈
      (amendObject (Rule.fillWordless field (.scalar filling) stepId) value).children) :
    child ∈ value.children ∨ child = .scalar filling := by
  cases value with
  | scalar scalar => exact .inl member
  | array items => exact .inl member
  | object entries =>
      rw [amendObject, apply_fillWordless_self distinct.keys, Value.children, List.map_map] at member
      obtain ⟨entry, entryMember, rfl⟩ := List.mem_map.mp member
      rw [Function.comp_apply]
      rcases filledValue_cases entry with same | ⟨_, _, filled⟩
      · rw [same]
        exact .inl (List.mem_map_of_mem entryMember)
      · exact .inr filled

/-- What lies below an object is legible after the filling as it was before. -/
theorem legibleThroughout_filled (distinct : value.DistinctKeys) :
    (amendObject (Rule.fillWordless field (.scalar filling) stepId) value).children.all
        (legibleThroughout field) = value.children.all (legibleThroughout field) := by
  cases value with
  | scalar scalar => rfl
  | array items => rfl
  | object entries =>
      rw [amendObject, apply_fillWordless_self distinct.keys, Value.children, Value.children,
        List.map_map, List.all_map, List.all_map]
      refine congrArg entries.all (funext fun entry => ?_)
      simp only [Function.comp_apply]
      rcases filledValue_cases entry with same | ⟨scalar, was, filled⟩
      · rw [same]
      · rw [filled, was]
        rfl

private theorem ask_fillBlank (entries : Entries Value) :
    ask (FallibleRule.fillBlank field (.scalar filling) stepId) entries =
      .ofExcept (answerIf (entries.legibleAt field)
        (Rule.fillWordless field (.scalar filling) stepId (outlines entries))) := by
  cases legible : entries.legibleAt field with
  | false =>
      rw [ask, FallibleRule.fillBlank_eq, legible]
      rfl
  | true =>
      have asked : FallibleRule.fillBlank field (.scalar filling) stepId (outlines entries) =
          .ok (Rule.fillWordless field (.scalar filling) stepId (outlines entries)) := by
        rw [FallibleRule.fillBlank_eq, legible]
        rfl
      rw [ask_eq_of_ok asked, Rule.notes_fillWordless]
      rfl

theorem everyObject_fillBlank (field stepId : String) (filling : Scalar) (value : Value) :
    everyObject (FallibleRule.fillBlank field (.scalar filling) stepId) value =
      .ofExcept (answerIf (legibleThroughout field value)
        (amendObjects (Rule.fillWordless field (.scalar filling) stepId) value)) := by
  induction value using Value.induction with
  | scalar scalar => rfl
  | array items ih =>
      rw [everyObject, everyObjectItems_eq, walkItems_eq_answer ih, legibleThroughout_array,
        amendObjects_array]
      cases items.all (legibleThroughout field) <;> rfl
  | object entries ih =>
      have values : ∀ part ∈ Entries.values entries, everyObject
          (FallibleRule.fillBlank field (.scalar filling) stepId) part =
            .ofExcept (answerIf (legibleThroughout field part)
              (amendObjects (Rule.fillWordless field (.scalar filling) stepId) part)) :=
        List.forall_mem_map.mpr ih
      rw [everyObject, everyObjectEntries_eq, walkValues_eq, walkItems_eq_answer values,
        legibleThroughout_object, amendObjects_object, rewritten, ask_fillBlank, Entries.values,
        List.map_map, Entries.mapValues]
      cases Entries.legibleAt field entries with
      | false => rfl
      | true =>
          cases List.all (List.map (·.2) entries) (legibleThroughout field) with
          | false => rfl
          | true =>
              rw [← List.zip_map']
              rfl

private theorem thisObject_fillBlank (field stepId : String) (filling : Scalar) (value : Value) :
    ∃ legible, thisObject (FallibleRule.fillBlank field (.scalar filling) stepId) value =
        .ofExcept (answerIf legible
          (amendObject (Rule.fillWordless field (.scalar filling) stepId) value)) ∧
      legibleThroughout field value =
        (legible && value.children.all (legibleThroughout field)) := by
  cases value with
  | scalar scalar => exact ⟨true, rfl, rfl⟩
  | array items => exact ⟨true, rfl, legibleThroughout_array field items⟩
  | object entries =>
      refine ⟨Entries.legibleAt field entries, ?_, legibleThroughout_object field entries⟩
      rw [thisObject, ask_fillBlank]
      cases Entries.legibleAt field entries <;> rfl

theorem topDown_fillBlank (field stepId : String) (filling : Scalar) (distinct : value.DistinctKeys)
    (within : value.Within fuel) :
    topDown (FallibleRule.fillBlank field (.scalar filling) stepId) fuel value =
      everyObject (FallibleRule.fillBlank field (.scalar filling) stepId) value := by
  induction fuel generalizing value with
  | zero =>
      cases within
      rfl
  | succ fuel ih =>
      have below : changeChildren
          (topDown (FallibleRule.fillBlank field (.scalar filling) stepId) fuel)
          (amendObject (Rule.fillWordless field (.scalar filling) stepId) value) =
            .ofExcept (answerIf (value.children.all (legibleThroughout field))
              (amendObjects (Rule.fillWordless field (.scalar filling) stepId) value)) := by
        rw [← legibleThroughout_filled distinct,
          ← mapChildren_amendObject (bringsScalars_fillWordless field stepId filling)]
        refine changeChildren_eq_answer fun child member => ?_
        rw [← everyObject_fillBlank]
        rcases mem_children_filled distinct member with inside | rfl
        · exact ih (distinct.of_mem_children inside) (within.children child inside)
        · exact ih (.scalar filling) (.scalar fuel filling)
      obtain ⟨legible, own, throughout⟩ := thisObject_fillBlank field stepId filling value
      rw [topDown, own, everyObject_fillBlank, throughout]
      cases legible with
      | false => rfl
      | true =>
          rw [Bool.true_and, ← below]
          rfl

end Filling

end Rewrite

end Uplift
