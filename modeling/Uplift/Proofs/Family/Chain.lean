import Uplift.Family.Chain
import Uplift.Proofs.Rewrite.Filling
import Uplift.Proofs.Rewrite.Promotion
import Uplift.Proofs.Rewrite.Renaming

/-!
# What version 101 makes of a chain

The four treatments of version 101 follow one another: promotion, a name in every object, a value in
every object, and a name in the elements. Each keeps what the ones before it have settled. No leaf is
lost and none is added, and a name that is taken leaves both fields where they are and makes one
warning.
-/

set_option autoImplicit false

namespace Uplift.Chain

open Rewrite

/-- What becomes of a leaf under its key: a serializer that is null or white space becomes the
standard one, and everything else stays. -/
def settledLeaf : Option Scalar × Scalar → Scalar
  | (some (.text "keySerializer"), .null) => .text standardKeySerializer
  | (some (.text "keySerializer"), .text written) =>
      if Text.isBlank written then .text standardKeySerializer else .text written
  | (_, leaf) => leaf

/-- The objects directly among the elements of a flat document. -/
def flatElements (document : Entries Value) : List (Entries Value) :=
  ((document.lookup (.text "elements")).map Value.childObjects).getD []

/-- A document in the form of version 101, with the notes that were made on the way. -/
structure Restructured (document : Entries Value) (migrated : Value) (notes : Journal) :
    Prop where
  root : ∃ entries : Entries Value, migrated = .object entries ∧
    ∀ entry ∈ entries, entry.1 ∈ [Scalar.text "id", .text "name", .text "content"]
  distinct : migrated.DistinctKeys
  filename : ∀ object ∈ migrated.objects,
    object.contains (.text "properties-filename") = true →
      object.contains (.text "propertiesFilename") = true
  serializer : ∀ object ∈ migrated.objects, ∀ value,
    object.lookup (.text "keySerializer") = some value →
      value ≠ .null ∧ ∀ written, value = .text written → Text.isBlank written = false
  type : ∀ elements, contentField? .standard "elements" migrated = some elements →
    ∀ element ∈ elements.childObjects,
      element.contains (.text "element-type") = true → element.contains (.text "type") = true
  leaves : migrated.leaves.Perm (((Value.object document).leavesUnder none).map settledLeaf)
  notes : notes =
    List.replicate
        ((Value.object document).objects.countP
          (Rule.clashes "properties-filename" "propertiesFilename"))
        (.warning "chain.v101" "Object already has field propertiesFilename") ++
      List.replicate ((flatElements document).countP (Rule.clashes "element-type" "type"))
        (.warning "chain.v101" "Object already has field type")

/-!
## The treatments one by one
-/

variable {document : Entries Value}

abbrev filenameRule : Rule := Rule.renameField "properties-filename" "propertiesFilename"

abbrev serializerRule : Rule := Rule.fillWordless "keySerializer" (.text standardKeySerializer)

abbrev typeRule : Rule := Rule.renameField "element-type" "type"

/-- The entries of the root after promotion. -/
def promotedRoot (document : Entries Value) : Entries Value :=
  Promotion.root .standard (.object (Promotion.moved .standard document)) document

/-- A document after the treatments of all its objects. -/
def treated (document : Entries Value) : Value :=
  amendObjects (serializerRule v101.stepId)
    (amendObjects (filenameRule v101.stepId) (.object (promotedRoot document)))

/-- A document after the treatment of its elements, which is the last one. -/
def retyped (treated : Value) : Value :=
  match contentField? .standard "elements" treated with
  | none => treated
  | some found =>
      putContentField .standard "elements" (mapChildren (amendObject (typeRule v101.stepId)) found)
        treated

def typeNotes (treated : Value) : List Note :=
  match contentField? .standard "elements" treated with
  | none => []
  | some found => found.children.flatMap (amendObjectNotes (typeRule v101.stepId))

/-- In every object the text of the serializer can be made, if there is one. -/
def Readable (value : Value) : Prop :=
  ∀ object ∈ value.objects, object.legibleAt "keySerializer" = true

theorem amendObjectsNotes_serializerRule (stepId : String) (value : Value) :
    amendObjectsNotes (serializerRule stepId) value = [] := by
  rw [amendObjectsNotes, List.flatMap_eq_nil_iff]
  exact fun entries _ => Rule.notes_fillWordless stepId _

theorem everyObject_filenameRule (stepId : String) (value : Value) :
    everyObject (filenameRule.fallible stepId) value =
      ⟨amendObjectsNotes (filenameRule stepId) value,
        .ok (amendObjects (filenameRule stepId) value)⟩ :=
  everyObject_eq_of_ok fun _ _ => rfl

theorem onTree_typeRule (document : Value) :
    onTree .standard v101.stepId (.eachElement typeRule.fallible) document =
      ⟨typeNotes document, .ok (retyped document)⟩ := by
  rw [onTree, overElements_eq, typeNotes, retyped]
  dsimp only [Treatment.elementsField]
  cases contentField? .standard "elements" document with
  | none => rfl
  | some found =>
      have changed : changeChildren (thisObject (typeRule.fallible v101.stepId)) found =
          ⟨found.children.flatMap (amendObjectNotes (typeRule v101.stepId)),
            .ok (mapChildren (amendObject (typeRule v101.stepId)) found)⟩ :=
        changeChildren_eq_of_ok fun child _ => thisObject_eq_of_ok fun _ _ => rfl
      dsimp only
      rw [changed, Logged.bind_eq_of_ok _ rfl, Logged.pure_notes, List.append_nil]
      rfl

/-- The treatments before that of the serializer, and the one after it, do not fail. -/
theorem apply_v101_eq (context : Context) (document : Entries Value) :
    (v101.toStep (onTree .standard)).apply context (.object document) =
      ⟨amendObjectsNotes (filenameRule v101.stepId) (.object (promotedRoot document)),
          .ok (amendObjects (filenameRule v101.stepId) (.object (promotedRoot document)))⟩ >>=
        fun renamed => everyObject (FallibleRule.fillBlank "keySerializer"
            (.text standardKeySerializer) v101.stepId) renamed >>=
          fun filled => ⟨typeNotes filled, .ok (retyped filled)⟩ := by
  change (onTree .standard v101.stepId .promote (.object document) >>= fun promoted =>
    everyObject (filenameRule.fallible v101.stepId) promoted >>= fun renamed =>
      everyObject (FallibleRule.fillBlank "keySerializer" (.text standardKeySerializer)
        v101.stepId) renamed >>= fun filled =>
          onTree .standard v101.stepId (.eachElement typeRule.fallible) filled >>= pure) = _
  have promoting : onTree .standard v101.stepId .promote (.object document) =
      pure (.object (promotedRoot document)) := rfl
  rw [promoting, Logged.bind_eq_of_ok _ rfl, everyObject_filenameRule]
  simp only [onTree_typeRule, Logged.bind_pure]
  rfl

theorem apply_v101 (context : Context) {document : Entries Value}
    (readable : Readable
      (amendObjects (filenameRule v101.stepId) (.object (promotedRoot document)))) :
    (v101.toStep (onTree .standard)).apply context (.object document) =
      ⟨amendObjectsNotes (filenameRule v101.stepId) (.object (promotedRoot document)) ++
          typeNotes (treated document),
        .ok (retyped (treated document))⟩ := by
  rw [apply_v101_eq, Logged.bind_eq_of_ok _ rfl, everyObject_fillBlank_of_legible readable,
    amendObjectsNotes_serializerRule, Logged.bind_eq_of_ok _ rfl]
  rfl

theorem apply_v101_eq_error_iff (context : Context) {document : Entries Value} :
    ((v101.toStep (onTree .standard)).apply context (.object document)).outcome =
        .error .integerTooLong ↔
      ¬ Readable (amendObjects (filenameRule v101.stepId) (.object (promotedRoot document))) := by
  rw [apply_v101_eq, Logged.bind_outcome_of_ok _ rfl, Logged.bind_outcome_error,
    everyObject_fillBlank_eq_error_iff, Readable]
  simp

/-!
## After all objects were treated
-/

theorem not_collides (document : Entries Value) : ¬ Promotion.Collides .standard document :=
  fun collides => absurd collides.1 (by decide)

/-- What is known of an object when the name and the serializer are settled in every object. -/
structure Settled (object : Entries Value) : Prop where
  distinct : object.DistinctKeys
  filename : object.contains (.text "properties-filename") = true →
    object.contains (.text "propertiesFilename") = true
  serializer : ∀ value, object.lookup (.text "keySerializer") = some value →
    value.isWordless = false

theorem key_of_mem_promotedRoot {entry : Scalar × Value} (member : entry ∈ promotedRoot document) :
    entry.1 ∈ [Scalar.text "id", .text "name", .text "content"] := by
  rcases Promotion.key_of_mem_root member with staying | content
  · rcases Promotion.stays_iff.mp staying with identifier | name
    · rw [identifier]
      exact .head _
    · rw [name]
      exact .tail _ (.head _)
  · rw [content]
    exact .tail _ (.tail _ (.head _))

theorem contains_promotedRoot {key : Scalar}
    (other : key.key ∉ [Key.text "id", .text "name", .text "content"]) :
    (promotedRoot document).contains key = false := by
  rw [Bool.eq_false_iff, ne_eq, Entries.contains_iff]
  intro present
  obtain ⟨entry, member, same⟩ := List.mem_map.mp present
  rw [← same] at other
  exact other (List.mem_map_of_mem (f := Scalar.key) (key_of_mem_promotedRoot member))

theorem distinctKeys_promoted (distinct : (Value.object document).DistinctKeys) :
    (Value.object (promotedRoot document)).DistinctKeys :=
  Promotion.distinctKeys_root distinct (not_collides document)

theorem distinctKeys_renamed {value : Value} (distinct : value.DistinctKeys) :
    (amendObjects (filenameRule v101.stepId) value).DistinctKeys :=
  Value.distinctKeys_iff_objects.mpr fun object member =>
    (forall_objects_renamed distinct object member).1

theorem settled_treated (distinct : (Value.object document).DistinctKeys) :
    ∀ object ∈ (treated document).objects, Settled object := by
  intro object member
  have known := forall_objects_filled (fun entries others keys settled => ?_) (by decide)
    (forall_objects_renamed (distinctKeys_promoted distinct)) object member
  · exact ⟨known.1.1, known.1.2, known.2⟩
  · rwa [← Entries.contains_eq_of_keys keys, ← Entries.contains_eq_of_keys keys]

theorem settledLeaf_eq : settledLeaf =
    Rule.filledLeaf "keySerializer" (.text standardKeySerializer) := by
  funext leaf
  unfold settledLeaf
  split
  · rfl
  · rename_i written
    rfl
  · rename_i key leaf noNull noText
    rw [Rule.filledLeaf, if_neg]
    rw [Bool.and_eq_true, decide_eq_true_eq]
    rintro ⟨rfl, blank⟩
    rcases Scalar.isWordless_iff.mp blank with rfl | ⟨written, rfl, _⟩
    · exact noNull rfl rfl
    · exact noText written rfl rfl

theorem leaves_treated_perm (distinct : (Value.object document).DistinctKeys) :
    (treated document).leaves.Perm
      (((Value.object document).leavesUnder none).map settledLeaf) := by
  have promoted := distinctKeys_promoted distinct
  rw [treated, leaves_filled (distinctKeys_renamed promoted) none nofun, ← settledLeaf_eq]
  have moves (leaf : Scalar) : settledLeaf (some (.text "propertiesFilename"), leaf) =
      settledLeaf (some (.text "properties-filename"), leaf) := by
    simp [settledLeaf]
  refine (leavesUnder_renamed_perm moves promoted none).trans ?_
  exact (Promotion.leavesUnder_root_perm distinct.keys (not_collides document) none).map _

theorem elements_treated (document : Entries Value) :
    contentField? .standard "elements" (treated document) =
      (document.lookup (.text "elements")).map fun elements =>
        amendObjects (serializerRule v101.stepId)
          (amendObjects (filenameRule v101.stepId) elements) := by
  have promoted : contentField? .standard "elements" (.object (promotedRoot document)) =
      document.lookup (.text "elements") := by
    have content : (promotedRoot document).lookup (.text FieldNames.standard.content) =
        some (.object (Promotion.moved .standard document)) := Entries.lookup_put_same ..
    rw [contentField?, content]
    exact Promotion.lookup_moved (by decide) document
  rw [treated, contentField?_amendObjects, contentField?_amendObjects, promoted, Option.map_map]
  · rfl
  · exact fun entries => Rule.spares_renameField (by decide) (by decide) _ _
  · exact fun entries => Rule.spares_renameField (by decide) (by decide) _ _
  · exact fun entries => Rule.spares_fillWordless (by decide) _ _
  · exact fun entries => Rule.spares_fillWordless (by decide) _ _

/-- As many objects are of some kind after promotion as were before, if the root is not and the
content is as the root was. -/
theorem countP_promotedRoot {kind : Entries Value → Bool}
    (distinct : (Value.object document).DistinctKeys) (root : kind (promotedRoot document) = false)
    (content : kind (Promotion.moved .standard document) = kind document) :
    (Value.object (promotedRoot document)).objects.countP kind =
      (Value.object document).objects.countP kind := by
  have perm := Promotion.objects_root_perm distinct.keys (not_collides document)
  rw [promotedRoot, perm.countP_eq, Value.objects_object, List.countP_cons, List.countP_cons,
    List.countP_cons, ← promotedRoot, root, content]
  rfl

/-- An object that has a serializer whose text cannot be made. -/
def isGarbled (object : Entries Value) : Bool :=
  !object.legibleAt "keySerializer"

theorem isGarbled_eq {object other : Entries Value}
    (same : (other.lookup (.text "keySerializer")).map Value.isLegible =
      (object.lookup (.text "keySerializer")).map Value.isLegible) :
    isGarbled other = isGarbled object := by
  have all (entries : Entries Value) : entries.legibleAt "keySerializer" =
      ((entries.lookup (.text "keySerializer")).map Value.isLegible).all id := by
    rw [Option.all_map]
    rfl
  rw [isGarbled, isGarbled, all, all, same]

theorem isGarbled_renamed (object : Entries Value) :
    isGarbled (rewritten (filenameRule v101.stepId) object) = isGarbled object := by
  apply isGarbled_eq
  rw [lookup_rewritten (Rule.spares_renameField (by decide) (by decide) _ _), Option.map_map]
  exact congrArg (Option.map · _) (funext fun value => isLegible_amendObjects _ value)

/-- Where the serializer can be read it can be read after promotion and renaming. -/
theorem readable_renamed_iff (distinct : (Value.object document).DistinctKeys) :
    Readable (amendObjects (filenameRule v101.stepId) (.object (promotedRoot document))) ↔
      Readable (.object document) := by
  have root : isGarbled (promotedRoot document) = false := by
    have absent : (promotedRoot document).lookup (.text "keySerializer") = none :=
      Entries.lookup_eq_none_iff.mpr (contains_promotedRoot (by decide))
    rw [isGarbled, Entries.legibleAt, absent]
    rfl
  have content : isGarbled (Promotion.moved .standard document) = isGarbled document :=
    isGarbled_eq (by rw [Promotion.lookup_moved (by decide)])
  have same := (countP_objects_renamed isGarbled_renamed (distinctKeys_promoted distinct)).trans
    (countP_promotedRoot distinct root content)
  have readable_iff (value : Value) : Readable value ↔ value.objects.countP isGarbled = 0 := by
    simp [Readable, isGarbled, List.countP_eq_zero]
  rw [readable_iff, readable_iff, same]

/-!
## The warnings
-/

theorem notes_promotedRoot (distinct : (Value.object document).DistinctKeys) :
    amendObjectsNotes (filenameRule v101.stepId) (.object (promotedRoot document)) =
      List.replicate
        ((Value.object document).objects.countP
          (Rule.clashes "properties-filename" "propertiesFilename"))
        (.warning "chain.v101" "Object already has field propertiesFilename") := by
  have root : Rule.clashes "properties-filename" "propertiesFilename" (promotedRoot document) =
      false := by
    rw [Rule.clashes, contains_promotedRoot (by decide), Bool.false_and]
  have content : Rule.clashes "properties-filename" "propertiesFilename"
      (Promotion.moved .standard document) =
        Rule.clashes "properties-filename" "propertiesFilename" document := by
    simp only [Rule.clashes, Entries.contains_eq_isSome_lookup]
    rw [Promotion.lookup_moved (by decide), Promotion.lookup_moved (by decide)]
  rw [amendObjectsNotes, Rule.flatMap_notes_renameField, countP_promotedRoot distinct root content]
  rfl

/-- Treatments of other fields do not change how often the type of an element clashes. -/
theorem typeNotes_amendObjects {rule : Entries Outline → Amendment}
    (old : ∀ entries, (rule entries).Spares "element-type")
    (new : ∀ entries, (rule entries).Spares "type") (value : Value) :
    amendObjectNotes (typeRule v101.stepId) (amendObjects rule value) =
      amendObjectNotes (typeRule v101.stepId) value := by
  cases value with
  | scalar scalar => rfl
  | array items => rfl
  | object entries =>
      rw [amendObjects_object, amendObjectNotes, amendObjectNotes, Rule.notes_renameField,
        Rule.notes_renameField, Rule.clashes, Rule.clashes, contains_rewritten (old _),
        contains_rewritten (new _)]

theorem typeNotes_filename (value : Value) :
    amendObjectNotes (typeRule v101.stepId) (amendObjects (filenameRule v101.stepId) value) =
      amendObjectNotes (typeRule v101.stepId) value :=
  typeNotes_amendObjects (fun _ => Rule.spares_renameField (by decide) (by decide) _ _)
    (fun _ => Rule.spares_renameField (by decide) (by decide) _ _) value

theorem typeNotes_serializer (value : Value) :
    amendObjectNotes (typeRule v101.stepId) (amendObjects (serializerRule v101.stepId) value) =
      amendObjectNotes (typeRule v101.stepId) value :=
  typeNotes_amendObjects (fun _ => Rule.spares_fillWordless (by decide) _ _)
    (fun _ => Rule.spares_fillWordless (by decide) _ _) value

theorem typeNotes_treated (distinct : (Value.object document).DistinctKeys) :
    typeNotes (treated document) =
      List.replicate ((flatElements document).countP (Rule.clashes "element-type" "type"))
        (.warning "chain.v101" "Object already has field type") := by
  rw [typeNotes, elements_treated, flatElements]
  cases found : document.lookup (.text "elements") with
  | none => rfl
  | some elements =>
      have own := distinct.lookup found
      rw [Option.map_some, Option.map_some, Option.getD_some]
      dsimp only
      rw [children_filled (fun _ => rfl) (distinctKeys_renamed own), ← List.perm_replicate]
      simp only [typeNotes_serializer]
      refine (children_renamed_perm _ own).trans ?_
      simp only [typeNotes_filename]
      rw [flatMap_amendObjectNotes, Rule.flatMap_notes_renameField]
      exact .refl _

/-!
## After the elements were treated
-/

namespace Settled

variable {object other : Entries Value}

/-- What is settled of an object depends on three of its fields alone. -/
theorem of_lookups (settled : Settled object) (distinct : other.DistinctKeys)
    (same : ∀ name ∈ ["properties-filename", "propertiesFilename", "keySerializer"],
      (other.lookup (.text name)).map Value.isWordless =
        (object.lookup (.text name)).map Value.isWordless) : Settled other := by
  have contains (name : String)
      (one : name ∈ ["properties-filename", "propertiesFilename", "keySerializer"]) :
      other.contains (.text name) = object.contains (.text name) := by
    have both := congrArg Option.isSome (same name one)
    rw [Option.isSome_map, Option.isSome_map] at both
    rw [Entries.contains_eq_isSome_lookup, Entries.contains_eq_isSome_lookup, both]
  refine ⟨distinct, ?_, fun value found => ?_⟩
  · rw [contains _ (.head _), contains _ (.tail _ (.head _))]
    exact settled.filename
  · have both := same "keySerializer" (by decide)
    rw [found, Option.map_some] at both
    obtain ⟨stored, storedFound, blank⟩ := Option.map_eq_some_iff.mp both.symm
    rw [← blank]
    exact settled.serializer stored storedFound

theorem put (settled : Settled object) {name : String}
    (apart : name ∉ ["properties-filename", "propertiesFilename", "keySerializer"])
    (value : Value) : Settled (Entries.put (.text name) value object) := by
  refine settled.of_lookups (settled.distinct.put _ _) fun other one => ?_
  have different : name ≠ other := fun same => apart (same ▸ one)
  rw [Entries.lookup_put_other _ _ (by simpa using different)]

end Settled

theorem settled_amendObject {value : Value} (all : ∀ object ∈ value.objects, Settled object) :
    ∀ object ∈ (amendObject (typeRule v101.stepId) value).objects, Settled object := by
  cases value with
  | scalar scalar => exact nofun
  | array items => exact all
  | object entries =>
      rw [Value.forall_objects_object] at all
      obtain ⟨renamed, same, renames, kept⟩ :=
        exists_amendObject "element-type" "type" v101.stepId all.1.distinct
      rw [same, Value.forall_objects_object]
      refine ⟨all.1.of_lookups (renames.distinctKeys all.1.distinct) fun name one => ?_,
        fun entry member => ?_⟩
      · have apart : ∀ name ∈ ["properties-filename", "propertiesFilename", "keySerializer"],
            "element-type" ≠ name ∧ "type" ≠ name := by
          decide
        rw [kept name (apart name one).1 (apart name one).2]
      · obtain ⟨source, sourceMember, value⟩ := renames.exists_source member
        rw [value]
        exact all.2 source sourceMember

theorem isWordless_amendObject (rule : Entries Outline → Amendment) (value : Value) :
    (amendObject rule value).isWordless = value.isWordless := by
  cases value <;> rfl

theorem settled_elements {elements : Value} (all : ∀ object ∈ elements.objects, Settled object) :
    ∀ object ∈ (mapChildren (amendObject (typeRule v101.stepId)) elements).objects,
      Settled object := by
  cases elements with
  | scalar scalar => exact nofun
  | array items =>
      rw [Value.forall_objects_array] at all
      rw [mapChildren, Value.forall_objects_array]
      exact List.forall_mem_map.mpr fun item member => settled_amendObject (all item member)
  | object entries =>
      rw [Value.forall_objects_object] at all
      rw [mapChildren, Value.forall_objects_object]
      refine ⟨all.1.of_lookups (all.1.distinct.of_keys (by simp [Entries.mapValues]))
        fun name _ => ?_, List.forall_mem_map.mpr fun entry member =>
          settled_amendObject (all.2 entry member)⟩
      rw [Entries.lookup_mapValues, Option.map_map]
      exact congrArg (Option.map · _) (funext fun value => isWordless_amendObject _ value)

variable {value : Value}

theorem settled_retyped (all : ∀ object ∈ value.objects, Settled object) :
    ∀ object ∈ (retyped value).objects, Settled object := by
  unfold retyped
  split
  · exact all
  · rename_i elements located
    obtain ⟨root, content, rfl, contentFound, elementsFound⟩ :=
      contentField?_eq_some_iff.mp located
    have inContent := Value.forall_objects_of_lookup all contentFound
    have inElements := Value.forall_objects_of_lookup inContent elementsFound
    rw [putContentField_object contentFound]
    refine Value.forall_objects_put all ?_ (Value.forall_objects_put inContent ?_ ?_)
    · exact (Value.forall_objects_object.mp all).1.put (by decide) _
    · exact (Value.forall_objects_object.mp inContent).1.put (by decide) _
    · exact settled_elements inElements

theorem leaves_amendObject_perm (all : ∀ object ∈ value.objects, Settled object) :
    (amendObject (typeRule v101.stepId) value).leaves.Perm value.leaves := by
  cases value with
  | scalar scalar => exact .refl _
  | array items => exact .refl _
  | object entries =>
      obtain ⟨renamed, same, renames, _⟩ := exists_amendObject "element-type" "type" v101.stepId
        (Value.forall_objects_object.mp all).1.distinct
      rw [same, Value.leaves_object, Value.leaves_object]
      exact renames.flatMap_perm (fun _ _ => .refl _) fun _ => rfl

theorem leaves_elements_perm {elements : Value}
    (all : ∀ object ∈ elements.objects, Settled object) :
    (mapChildren (amendObject (typeRule v101.stepId)) elements).leaves.Perm elements.leaves := by
  cases elements with
  | scalar scalar => exact .refl _
  | array items =>
      rw [Value.forall_objects_array] at all
      rw [mapChildren, Value.leaves_array, Value.leaves_array, List.flatMap_map]
      exact List.Perm.flatMap_left items fun item member => leaves_amendObject_perm (all item member)
  | object entries =>
      rw [Value.forall_objects_object] at all
      rw [mapChildren, Value.leaves_object, Value.leaves_object, Entries.mapValues,
        List.flatMap_map]
      exact List.Perm.flatMap_left entries fun entry member =>
        leaves_amendObject_perm (all.2 entry member)

theorem leaves_retyped_perm (all : ∀ object ∈ value.objects, Settled object) :
    (retyped value).leaves.Perm value.leaves := by
  unfold retyped
  split
  · exact .refl _
  · rename_i elements located
    obtain ⟨root, content, rfl, contentFound, elementsFound⟩ :=
      contentField?_eq_some_iff.mp located
    have inContent := Value.forall_objects_of_lookup all contentFound
    have inElements := Value.forall_objects_of_lookup inContent elementsFound
    have own := (Value.forall_objects_object.mp all).1
    have contentOwn := (Value.forall_objects_object.mp inContent).1
    rw [putContentField_object contentFound]
    exact Value.leaves_put_perm own.distinct contentFound
      (Value.leaves_put_perm contentOwn.distinct elementsFound (leaves_elements_perm inElements))

theorem children_mapChildren (change : Value → Value) (value : Value) :
    (mapChildren change value).children = value.children.map change := by
  cases value with
  | scalar scalar => rfl
  | array items => rfl
  | object entries => simp [mapChildren, Value.children, Entries.mapValues]

/-- No element has the old name of the type without the new one. -/
theorem type_retyped (all : ∀ object ∈ value.objects, Settled object) {elements : Value}
    (located : contentField? .standard "elements" (retyped value) = some elements) :
    ∀ element ∈ elements.childObjects,
      element.contains (.text "element-type") = true → element.contains (.text "type") = true := by
  unfold retyped at located
  split at located
  · rename_i absent
    rw [absent] at located
    cases located
  · rename_i before beforeLocated
    rw [contentField?_putContentField _ beforeLocated, Option.some.injEq] at located
    obtain ⟨root, content, rfl, contentFound, elementsFound⟩ :=
      contentField?_eq_some_iff.mp beforeLocated
    have inElements := Value.forall_objects_of_lookup
      (Value.forall_objects_of_lookup all contentFound) elementsFound
    intro element member
    rw [← located, Value.mem_childObjects, children_mapChildren] at member
    obtain ⟨child, childMember, same⟩ := List.mem_map.mp member
    cases child with
    | scalar scalar => cases same
    | array items => cases same
    | object entries =>
        have own := inElements entries
          (Value.mem_objects_of_mem_childObjects (Value.mem_childObjects.mpr childMember))
        obtain ⟨renamed, becomes, renames, _⟩ :=
          exists_amendObject "element-type" "type" v101.stepId own.distinct
        rw [becomes] at same
        cases same
        exact renames.contains

/-- The last treatment leaves the keys of the root as they are. -/
theorem exists_root_retyped (root : Entries Value) :
    ∃ entries : Entries Value, retyped (.object root) = .object entries ∧
      entries.map (·.1) = root.map (·.1) := by
  unfold retyped
  split
  · exact ⟨root, rfl, rfl⟩
  · rename_i elements located
    obtain ⟨_, content, same, contentFound, _⟩ := contentField?_eq_some_iff.mp located
    cases same
    have present := Entries.contains_of_lookup contentFound
    refine ⟨_, putContentField_object contentFound _, ?_⟩
    rw [Entries.keys_put, if_pos present, List.append_nil]

theorem exists_root_treated (distinct : (Value.object document).DistinctKeys) :
    ∃ root : Entries Value, treated document = .object root ∧
      root.map (·.1) = (promotedRoot document).map (·.1) := by
  have own := (distinctKeys_promoted distinct).keys
  have renames := renames_rewritten "properties-filename" "propertiesFilename" v101.stepId own
  refine ⟨_, by rw [treated, amendObjects_object, amendObjects_object], ?_⟩
  rw [← keys_rewritten_fillWordless (renames.distinctKeys own),
    renames.keys_of_absent (contains_promotedRoot (by decide))]

/-- Version 101 fails exactly if the text of a serializer cannot be made, which is an integer of too
many digits then. Any other document it gives the form that the next version expects. -/
theorem v101_restructures (context : Context) {document : Entries Value}
    (distinct : (Value.object document).DistinctKeys) :
    (((v101.toStep (onTree .standard)).apply context (.object document)).outcome =
        .error .integerTooLong ↔
      ∃ object ∈ (Value.object document).objects, object.legibleAt "keySerializer" = false) ∧
    ((∀ object ∈ (Value.object document).objects, object.legibleAt "keySerializer" = true) →
      ∃ migrated,
        ((v101.toStep (onTree .standard)).apply context (.object document)).outcome =
          .ok migrated ∧
        Restructured document migrated
          ((v101.toStep (onTree .standard)).apply context (.object document)).notes) := by
  refine ⟨?_, fun readable => ?_⟩
  · rw [apply_v101_eq_error_iff, readable_renamed_iff distinct, Readable]
    simp
  rw [apply_v101 context ((readable_renamed_iff distinct).mpr readable)]
  have settled := settled_treated distinct
  have settledAfter := settled_retyped settled
  refine ⟨_, rfl, ?_, ?_, ?_, ?_, ?_, ?_, ?_⟩
  · obtain ⟨root, same, keys⟩ := exists_root_treated distinct
    obtain ⟨entries, migrated, unchanged⟩ := exists_root_retyped root
    refine ⟨entries, by rw [same, migrated], fun entry member => ?_⟩
    have key : entry.1 ∈ (promotedRoot document).map (·.1) := by
      rw [← keys, ← unchanged]
      exact List.mem_map_of_mem member
    obtain ⟨promoted, promotedMember, sameKey⟩ := List.mem_map.mp key
    rw [← sameKey]
    exact key_of_mem_promotedRoot promotedMember
  · exact Value.distinctKeys_iff_objects.mpr fun object member =>
      (settledAfter object member).distinct
  · exact fun object member => (settledAfter object member).filename
  · intro object member value found
    have visible := (settledAfter object member).serializer value found
    constructor
    · rintro rfl
      cases visible
    · rintro written rfl
      exact visible
  · exact fun elements located => type_retyped settled located
  · exact (leaves_retyped_perm settled).trans (leaves_treated_perm distinct)
  · rw [notes_promotedRoot distinct, typeNotes_treated distinct]

/-- A flat chain whose first element has the type under both names, and its second a serializer that
is null. -/
def taken : Entries Value :=
  [(.text "elements",
    .array
      [.object [(.text "element-type", .text "x"), (.text "type", .text "y")],
        .object [(.text "keySerializer", .null)]])]

theorem v101_restructures_taken :
    (Value.object taken).DistinctKeys ∧ ∃ migrated,
      ((v101.toStep (onTree .standard)).apply (.ofFamily "chain") (.object taken)).outcome =
        .ok migrated ∧
      migrated.leaves.Perm [.text "x", .text "y", .text standardKeySerializer] ∧
      ((v101.toStep (onTree .standard)).apply (.ofFamily "chain") (.object taken)).notes =
        [.warning "chain.v101" "Object already has field type"] := by
  have distinct : (Value.object taken).DistinctKeys := by
    simp [taken, Entries.DistinctKeys, Scalar.key]
  have readable : ∀ object ∈ (Value.object taken).objects,
      object.legibleAt "keySerializer" = true := by
    decide
  obtain ⟨migrated, done, restructured⟩ :=
    (v101_restructures (.ofFamily "chain") distinct).2 readable
  refine ⟨distinct, migrated, done, restructured.leaves, restructured.notes⟩

end Uplift.Chain
