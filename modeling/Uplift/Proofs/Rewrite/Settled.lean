import Uplift.Proofs.Rewrite.ContentField
import Uplift.Proofs.Rewrite.Properties
import Uplift.Proofs.Rewrite.Walk
import Uplift.Proofs.Value

/-!
# Settled documents

A walk by rules is settled on a document if it succeeds and changes nothing. Rules that have nothing
more to amend in what they amended leave every document settled; and rules of other types do not
unsettle it.
-/

set_option autoImplicit false

namespace Uplift.Rewrite

variable {ruleOf first second : String → Option FallibleRule} {stepId firstId secondId : String}

/-- The rule of a type succeeds on properties and changes nothing. -/
def Quiet (ruleOf : String → Option FallibleRule) (stepId elementType : String)
    (properties : Entries Value) : Prop :=
  ∃ amendment, amendmentFor ruleOf stepId elementType properties = .ok amendment ∧
    amendment.apply properties = properties

theorem elementType_of_walksEntry {entries walked : Entries Value}
    (below : List.Forall₂ (WalksEntry ruleOf stepId) entries walked) :
    elementType walked = elementType entries :=
  elementType_eq (lookup_of_walksEntry below (by decide))

theorem isVisitable_of_walksEntry {entries walked : Entries Value}
    (below : List.Forall₂ (WalksEntry ruleOf stepId) entries walked) :
    isVisitable walked = isVisitable entries :=
  isVisitable_eq (lookup_of_walksEntry below (by decide)) (lookup_of_walksEntry below (by decide))

theorem properties?_of_walksEntry {entries walked : Entries Value}
    (below : List.Forall₂ (WalksEntry ruleOf stepId) entries walked) :
    properties? walked = properties? entries := by
  unfold properties?
  rw [lookup_of_walksEntry below (by decide)]

/-!
## Settled elements
-/

theorem forall₂_image {α β : Type} {relation : α → β → Prop} {image : β → β → Prop}
    {before : List α} {after : List β} (related : List.Forall₂ relation before after)
    (reflects : ∀ old ∈ before, ∀ new, relation old new → image new new) :
    List.Forall₂ image after after := by
  induction related with
  | nil => exact .nil
  | cons head _ ih =>
      obtain ⟨first, others⟩ := List.forall_mem_cons.mp reflects
      exact .cons (first _ head) (ih others)

/-- The walk below an element is settled on all of its entries. -/
abbrev SettledBelow (ruleOf : String → Option FallibleRule) (stepId : String)
    (element : Entries Value) : Prop :=
  List.Forall₂ (WalksEntry ruleOf stepId) element element

theorem settledBelow_iff {element : Entries Value} :
    SettledBelow ruleOf stepId element ↔
      ∀ entry ∈ element, entry.1.sameKey (.text Treatment.childrenField) = true →
        Walks ruleOf stepId entry.2 entry.2 := by
  rw [SettledBelow, List.forall₂_same]
  refine forall_congr' fun entry => imp_congr_right fun _ => ?_
  rw [walksEntry_iff]
  exact ⟨fun walks => walks.2.1, fun walks => ⟨rfl, walks, fun _ => rfl⟩⟩

private theorem sameKey_properties_of_children {key : Scalar}
    (children : key.sameKey (.text Treatment.childrenField) = true) :
    (Scalar.text Treatment.propertiesField).sameKey key = false := by
  rw [Scalar.sameKey_text_iff.mp children]
  rfl

/-- What is below an element is settled no matter what becomes of the properties. -/
theorem settledBelow_amendProperties {element : Entries Value} {amendment : Amendment} :
    SettledBelow ruleOf stepId (amendProperties amendment element) ↔
      SettledBelow ruleOf stepId element := by
  obtain ⟨change, changes, mapped⟩ := amendProperties_eq_map amendment element
  rw [settledBelow_iff, settledBelow_iff, mapped, List.forall_mem_map]
  refine forall_congr' fun entry => imp_congr_right fun _ => ?_
  obtain ⟨sameKey, elsewhere⟩ := changes entry
  rw [sameKey]
  refine imp_congr_right fun children => ?_
  rw [elsewhere (sameKey_properties_of_children children)]

/-- A visit of an element whose properties were amended is settled if the rule has nothing more to
amend, and the walk below the element is settled. -/
theorem visits_self {element : Entries Value} {amendment : Amendment}
    (visitable : isVisitable element = true)
    (quiet : ∀ properties, properties? element = some properties →
      Quiet ruleOf stepId (elementType element) (amendment.apply properties))
    (below : SettledBelow ruleOf stepId element) :
    Visits ruleOf stepId (.object (amendProperties amendment element))
      (.object (amendProperties amendment element)) := by
  have walked : SettledBelow ruleOf stepId (amendProperties amendment element) :=
    settledBelow_amendProperties.mpr below
  have amended := properties?_amendProperties amendment element
  rw [visits_object_iff, isVisitable_amendProperties]
  refine ⟨visitable, ?_⟩
  cases found : properties? element with
  | none =>
      rw [found, Option.map_none] at amended
      exact ⟨_, _, propertiesAmendment_of_none amended, walked,
        by rw [amendProperties_of_none amended]⟩
  | some properties =>
      rw [found, Option.map_some] at amended
      obtain ⟨again, asked, unchanged⟩ := quiet properties found
      refine ⟨again, _, ?_, walked, ?_⟩
      · rw [propertiesAmendment_of_properties amended, elementType_amendProperties, asked]
      · rw [amendProperties_of_properties amended, unchanged, amendProperties_of_properties found,
          Entries.put_put_same]

/-- In an element that a visit leaves as it is the rule has nothing to amend, and the walk below it
is settled. -/
theorem quiet_of_visits_self {element : Entries Value}
    (settled : Visits ruleOf stepId (.object element) (.object element)) :
    (∀ properties, properties? element = some properties →
      Quiet ruleOf stepId (elementType element) properties) ∧
        SettledBelow ruleOf stepId element := by
  obtain ⟨_, amendment, walked, asked, below, same⟩ := visits_object_iff.mp settled
  have element_eq : element = amendProperties amendment walked := Value.object.inj same
  constructor
  · intro properties found
    have before : properties? walked = some properties :=
      (properties?_of_walksEntry below).trans found
    have after := properties?_amendProperties amendment walked
    rw [← element_eq, before, found, Option.map_some, Option.some.injEq] at after
    rw [propertiesAmendment_of_properties found] at asked
    exact ⟨amendment, asked, after.symm⟩
  · obtain ⟨change, changes, mapped⟩ := amendProperties_eq_map amendment walked
    rw [element_eq, settledBelow_amendProperties, settledBelow_iff]
    rw [element_eq, mapped, List.forall₂_map_left_iff, List.forall₂_same] at below
    intro entry member children
    have walks := below entry member
    rw [(changes entry).2 (sameKey_properties_of_children children)] at walks
    exact (walksEntry_iff.mp walks).2.1 children

/-!
## What a walk settles
-/

/-- What rules of a walk amend leaves nothing to amend for the rules of a first walk, also if that
is known only of properties that were settled before. -/
def Leaves (premise : Prop) (first : String → Option FallibleRule) (firstId : String)
    (second : String → Option FallibleRule) (secondId : String) : Prop :=
  ∀ elementType properties amendment,
    amendmentFor second secondId elementType properties = .ok amendment →
      (premise → Quiet first firstId elementType properties) →
        Quiet first firstId elementType (amendment.apply properties)

/-- A walk leaves documents settled if its rules leave properties quiet. -/
theorem settled_of_walks {premise : Prop} (leaves : Leaves premise first firstId second secondId)
    (value : Value) :
    (∀ visited, (premise → Visits first firstId value value) →
      Visits second secondId value visited → Visits first firstId visited visited) ∧
      ∀ walked, (premise → Walks first firstId value value) →
        Walks second secondId value walked → Walks first firstId walked walked := by
  induction value using Value.induction with
  | scalar scalar =>
      constructor
      · intro visited _ visits
        cases visits
        rfl
      · intro walked _ walks
        cases walks
        rfl
  | array items ih =>
      constructor
      · intro visited _ visits
        cases visits
        rfl
      · intro walked known walks
        obtain ⟨visited, visits, rfl⟩ := walks_array_iff.mp walks
        refine walks_array_iff.mpr ⟨_, forall₂_image visits fun item member other visit => ?_, rfl⟩
        refine (ih item member).1 other (fun premised => ?_) visit
        obtain ⟨_, same, unchanged⟩ := walks_array_iff.mp (known premised)
        cases unchanged
        exact List.forall₂_same.mp same item member
  | object entries ih =>
      constructor
      · intro visited known visits
        obtain ⟨visitable, amendment, walked, asked, below, rfl⟩ := visits_object_iff.mp visits
        refine visits_self (by rw [isVisitable_of_walksEntry below, visitable])
          (fun properties found => ?_) ?_
        · have before : properties? entries = some properties :=
            (properties?_of_walksEntry below).symm.trans found
          rw [propertiesAmendment_of_properties before] at asked
          rw [elementType_of_walksEntry below]
          exact leaves _ _ _ asked fun premised =>
            (quiet_of_visits_self (known premised)).1 properties before
        · refine forall₂_image below fun entry member other walks => walksEntry_iff.mpr ?_
          obtain ⟨sameKey, walksBelow, _⟩ := walksEntry_iff.mp walks
          refine ⟨rfl, fun children => ?_, fun _ => rfl⟩
          rw [← sameKey] at children
          refine (ih entry member).2 other.2 (fun premised => ?_) (walksBelow children)
          exact settledBelow_iff.mp (quiet_of_visits_self (known premised)).2 entry member children
      · intro walked known walks
        obtain ⟨visited, visits, rfl⟩ := walks_object_iff.mp walks
        refine walks_object_iff.mpr ⟨_, forall₂_image visits fun entry member other visit => ?_,
          rfl⟩
        refine ⟨rfl, (ih entry member).1 other.2 (fun premised => ?_) visit.2⟩
        obtain ⟨_, same, unchanged⟩ := walks_object_iff.mp (known premised)
        cases unchanged
        exact (List.forall₂_same.mp same entry member).2

/-!
## Settled treatments
-/

variable {fields : FieldNames} {document walked : Value}

/-- What keeps elements settled keeps the document settled that they stand in. -/
theorem overElements_settled {premise : Prop}
    {firstChange secondChange : Value → Logged Fault Value}
    (kept : ∀ found changed, (premise → (firstChange found).outcome = .ok found) →
      (secondChange found).outcome = .ok changed → (firstChange changed).outcome = .ok changed)
    (known : premise → (overElements fields firstChange document).outcome = .ok document)
    (treated : (overElements fields secondChange document).outcome = .ok walked) :
    (overElements fields firstChange walked).outcome = .ok walked := by
  rw [overElements_eq_ok_iff]
  rcases overElements_eq_ok_iff.mp treated with
    ⟨absent, rfl⟩ | ⟨found, changed, located, changing, rfl⟩
  · exact .inl ⟨absent, rfl⟩
  · refine .inr ⟨changed, changed, contentField?_putContentField changed located, ?_,
      (putContentField_putContentField _ _).symm⟩
    refine kept found changed (fun premised => ?_) changing
    rcases overElements_eq_ok_iff.mp (known premised) with
      ⟨absent, _⟩ | ⟨again, unchanged, locatedAgain, changingAgain, same⟩
    · rw [absent] at located
      cases located
    · have after := contentField?_putContentField unchanged locatedAgain
      rw [← same, located] at after
      rw [located] at locatedAgain
      cases locatedAgain
      cases after
      exact changingAgain

theorem overOperations_settled {change : List Value → Logged Fault (List Value)}
    (again : ∀ items changed, (change items).outcome = .ok changed →
      (change changed).outcome = .ok changed)
    (treated : (overOperations fields change document).outcome = .ok walked) :
    (overOperations fields change walked).outcome = .ok walked := by
  rw [overOperations_eq_ok_iff]
  rcases overOperations_eq_ok_iff.mp treated with
    ⟨lacks, rfl⟩ | ⟨items, changed, located, changing, rfl⟩
  · exact .inl ⟨lacks, rfl⟩
  · exact .inr ⟨changed, changed, contentField?_putContentField _ located,
      again items changed changing, (putContentField_putContentField _ _).symm⟩

end Uplift.Rewrite
