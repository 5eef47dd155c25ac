import Uplift.Proofs.Entries.Match
import Uplift.Proofs.Family.Settled
import Uplift.Proofs.Journal.Parallel

/-!
# Walks side by side

Where no type has a rule of two walks, the first of them runs on what the second has made just as it
runs on what that was made from: it makes the same notes and meets the same fault, if there is one,
and else the second walk leads from the one result to the other. So the order in which such walks are
made does not show in the document.
-/

set_option autoImplicit false

namespace Uplift.Rewrite

open Logged (Parallel)

variable {ruleOf first second : String → Option FallibleRule}
  {stepId firstId secondId type : String} {element entries walked : Entries Value}
  {amendment other : Amendment}

/-!
## Amendments by two walks
-/

/-- What is noted of an element is the same after a walk, and so is whether it can be noted. -/
theorem read_amendProperties (amendment : Amendment)
    (below : List.Forall₂ (WalksEntry ruleOf stepId) entries walked) :
    Treatment.Visit.read (outlines (amendProperties amendment walked)) =
      Treatment.Visit.read (outlines entries) := by
  have kept (field : String) (notProperties : field ≠ Treatment.propertiesField)
      (notChildren : field ≠ Treatment.childrenField) :
      Outline.textAt field (outlines (amendProperties amendment walked)) =
        Outline.textAt field (outlines entries) := by
    rw [Outline.textAt, Outline.textAt, lookup_outlines, lookup_outlines,
      lookup_amendProperties notProperties, lookup_of_walksEntry below notChildren]
  rw [Treatment.Visit.read, Treatment.Visit.read, kept "id" (by decide) (by decide),
    kept "type" (by decide) (by decide)]

/-- What a walk asks for on an element is the same after a walk by rules of other types. -/
theorem propertiesAmendment_amendProperties (disjoint : PropertyRules.Disjoint first second)
    (below : List.Forall₂ (WalksEntry second secondId) entries walked)
    (asked : propertiesAmendment second type secondId entries = .ok amendment) :
    propertiesAmendment first type firstId (amendProperties amendment walked) =
      propertiesAmendment first type firstId entries := by
  rcases disjoint type with absent | absent
  · rw [propertiesAmendment_of_no_rule absent, propertiesAmendment_of_no_rule absent]
  · rw [propertiesAmendment_of_no_rule absent] at asked
    cases asked
    refine propertiesAmendment_congr ?_
    rw [properties?_amendProperties, properties?_of_walksEntry below]
    cases properties? entries <;> rfl

theorem amendProperties_amendProperties (amendment other : Amendment) (element : Entries Value) :
    amendProperties other (amendProperties amendment element) =
      match properties? element with
      | none => element
      | some properties => element.put (.text Treatment.propertiesField)
          (.object (other.apply (amendment.apply properties))) := by
  have after := properties?_amendProperties amendment element
  cases found : properties? element with
  | none =>
      rw [found, Option.map_none] at after
      rw [amendProperties_of_none after, amendProperties_of_none found]
  | some properties =>
      rw [found, Option.map_some] at after
      rw [amendProperties_of_properties after, amendProperties_of_properties found,
        Entries.put_put_same]

/-- Amendments that two walks ask for on one element can be made in any order. -/
theorem amendProperties_comm (disjoint : PropertyRules.Disjoint first second)
    (asked : propertiesAmendment first type firstId element = .ok amendment)
    (askedToo : propertiesAmendment second type secondId element = .ok other)
    (walked : Entries Value) :
    amendProperties amendment (amendProperties other walked) =
      amendProperties other (amendProperties amendment walked) := by
  rw [amendProperties_amendProperties, amendProperties_amendProperties]
  rcases disjoint type with absent | absent
  · rw [propertiesAmendment_of_no_rule absent] at asked
    cases asked
    rfl
  · rw [propertiesAmendment_of_no_rule absent] at askedToo
    cases askedToo
    rfl

/-- An entry among the children is not that of the properties. -/
theorem not_children_of_properties {key : Scalar}
    (named : (Scalar.text Treatment.propertiesField).sameKey key = true) :
    key.sameKey (.text Treatment.childrenField) = false := by
  rw [Scalar.sameKey_comm, Scalar.sameKey_text_iff] at named
  rw [named]
  rfl

/-- An amendment of the properties has no part in the walk below an element. -/
theorem walksEntry_amendProperties
    (below : List.Forall₂ (WalksEntry ruleOf stepId) entries walked) (amendment : Amendment) :
    List.Forall₂ (WalksEntry ruleOf stepId) (amendProperties amendment entries)
      (amendProperties amendment walked) := by
  have same := properties?_of_walksEntry below
  cases found : properties? entries with
  | none =>
      rw [amendProperties_of_none found, amendProperties_of_none (same.trans found)]
      exact below
  | some properties =>
      have present := Entries.contains_of_lookup (properties?_eq_some_iff.mp found)
      have presentToo := Entries.contains_of_lookup (properties?_eq_some_iff.mp (same.trans found))
      rw [amendProperties_of_properties found, amendProperties_of_properties (same.trans found),
        Entries.put_of_contains present, Entries.put_of_contains presentToo,
        List.forall₂_map_left_iff, List.forall₂_map_right_iff]
      refine below.imp fun entry walkedEntry walks => ?_
      rw [← walks.1]
      split
      · rename_i named
        refine walksEntry_iff.mpr ⟨rfl, fun children => ?_, fun _ => rfl⟩
        rw [not_children_of_properties named] at children
        cases children
      · exact walks

/-!
## Walks in parallel
-/

theorem parallel_walkValues (related : Scalar → Value → Value → Prop)
    {visit : Scalar → Value → Logged Fault Value} {entries others : List (Scalar × Value)}
    (pairs : List.Forall₂ (fun entry other => entry.1 = other.1 ∧
      Parallel (related entry.1) (visit entry.1 entry.2) (visit other.1 other.2)) entries others) :
    Parallel (List.Forall₂ fun entry other => entry.1 = other.1 ∧ related entry.1 entry.2 other.2)
      (walkValues visit entries) (walkValues visit others) := by
  induction pairs with
  | nil => exact .pure .nil
  | @cons entry other rest others first _ ih =>
      obtain ⟨key, value⟩ := entry
      obtain ⟨otherKey, otherValue⟩ := other
      obtain ⟨rfl, parallel⟩ := first
      exact parallel.bind fun visited otherVisited _ pair =>
        ih.bind fun walked otherWalked _ pairs => .pure (.cons ⟨rfl, pair⟩ pairs)

theorem parallel_walkItems {visit : Value → Logged Fault Value} {related : Value → Value → Prop}
    {items others : List Value}
    (pairs : List.Forall₂ (fun item other => Parallel related (visit item) (visit other))
      items others) :
    Parallel (List.Forall₂ related) (walkItems visit items) (walkItems visit others) := by
  induction pairs with
  | nil => exact .pure .nil
  | cons parallel _ ih =>
      exact parallel.bind fun visited otherVisited _ pair =>
        ih.bind fun walked otherWalked _ pairs => .pure (.cons pair pairs)

/-- A walk below an element whose properties were amended is the walk below the element, and the
properties of what it gives are amended. -/
theorem parallel_amendProperties (amendment : Amendment) (entries : Entries Value) :
    Parallel (fun walked others => others = amendProperties amendment walked)
      (elementEntries ruleOf stepId entries)
      (elementEntries ruleOf stepId (amendProperties amendment entries)) := by
  cases found : properties? entries with
  | none =>
      rw [amendProperties_of_none found]
      refine (Parallel.refl _).imp fun walked others outcome same => ?_
      have below := elementEntries_eq_ok_iff.mp outcome
      rw [amendProperties_of_none ((properties?_of_walksEntry below).trans found), same.1]
  | some properties =>
      have present := Entries.contains_of_lookup (properties?_eq_some_iff.mp found)
      rw [amendProperties_of_properties found, Entries.put_of_contains present, elementEntries_eq,
        elementEntries_eq]
      refine (parallel_walkValues (fun key value other => other =
        if (Scalar.text Treatment.propertiesField).sameKey key then
          .object (amendment.apply properties) else value) ?_).imp
            fun walked others outcome pairs => ?_
      · rw [List.forall₂_map_right_iff, List.forall₂_same]
        intro entry _
        split
        · rename_i named
          refine ⟨rfl, ?_⟩
          unfold walkEntry
          rw [not_children_of_properties named]
          exact .pure rfl
        · exact ⟨rfl, (Parallel.refl _).imp fun _ _ _ same => same.1.symm⟩
      -- Entry by entry the results differ in the properties alone; that is what amending does.
      · rw [← elementEntries_eq] at outcome
        have below := elementEntries_eq_ok_iff.mp outcome
        have foundToo := (properties?_of_walksEntry below).trans found
        rw [amendProperties_of_properties foundToo, Entries.put_of_contains
          (Entries.contains_of_lookup (properties?_eq_some_iff.mp foundToo))]
        refine Eq.symm (List.forall₂_eq_eq_eq ▸ List.forall₂_map_left_iff.mpr ?_)
        refine pairs.imp fun entry other pair => ?_
        obtain ⟨key, value⟩ := entry
        obtain ⟨otherKey, otherValue⟩ := other
        obtain ⟨rfl, rfl⟩ := pair
        dsimp only
        split <;> rfl

/-- The first walk visits what the second made as it visits what that was made from. -/
abbrev VisitsAlike (first second : String → Option FallibleRule) (firstId secondId : String)
    (value : Value) : Prop :=
  ∀ visited, Visits second secondId value visited →
    Parallel (Visits second secondId) (Rewrite.element first firstId value)
      (Rewrite.element first firstId visited)

/-- The first walk goes over what the second made as it goes over what that was made from. -/
abbrev WalksAlike (first second : String → Option FallibleRule) (firstId secondId : String)
    (value : Value) : Prop :=
  ∀ walked, Walks second secondId value walked →
    Parallel (Walks second secondId) (elements first firstId value) (elements first firstId walked)

private theorem parallel_elementEntries
    (each : ∀ entry ∈ entries, WalksAlike first second firstId secondId entry.2)
    (below : List.Forall₂ (WalksEntry second secondId) entries walked) :
    Parallel (List.Forall₂ (WalksEntry second secondId)) (elementEntries first firstId entries)
      (elementEntries first firstId walked) := by
  rw [elementEntries_eq, elementEntries_eq]
  refine parallel_walkValues
    (fun key value visited => (walkEntry second secondId key value).outcome = .ok visited)
    (forall₂_imp_of_mem below fun entry member other walks => ?_)
  obtain ⟨sameKey, walks⟩ := walks
  refine ⟨sameKey, ?_⟩
  rw [← sameKey]
  unfold walkEntry at walks ⊢
  by_cases children : entry.1.sameKey (.text Treatment.childrenField) = true
  · simp only [if_pos children] at walks ⊢
    exact each entry member _ walks
  · simp only [if_neg children] at walks ⊢
    rw [Except.ok.inj walks]
    exact .pure rfl

/-- A visit asks for the same on an element that the second walk has visited, and what it makes of
the element is what the second walk goes on from. -/
private theorem parallel_element (disjoint : PropertyRules.Disjoint first second)
    (each : ∀ entry ∈ entries, WalksAlike first second firstId secondId entry.2) :
    VisitsAlike first second firstId secondId (.object entries) := by
  intro visited visits
  obtain ⟨visitable, amendment, walked, asked, below, rfl⟩ := visits_object_iff.mp visits
  rw [Rewrite.element, Rewrite.element, read_amendProperties amendment below]
  refine .bind_same _ fun visit read => .bind_same _ fun _ _ => ?_
  rw [Logged.ofExcept_outcome, read_outlines, answerIf_eq_ok_iff] at read
  obtain ⟨_, rfl⟩ := read
  rw [visitOf, propertiesAmendment_amendProperties disjoint below asked]
  refine .bind_same _ fun own ownAsked => .bind_same _ fun _ _ => ?_
  -- Below the element the first walk meets what the second made there; then the properties change.
  have along := (parallel_elementEntries each below).trans (parallel_amendProperties amendment walked)
  refine along.bind fun left right outcome related => .pure ?_
  obtain ⟨between, belowLeft, rfl⟩ := related
  have ownBelow := elementEntries_eq_ok_iff.mp outcome
  rw [visits_object_iff, isVisitable_amendProperties, isVisitable_of_walksEntry ownBelow,
    elementType_amendProperties, elementType_of_walksEntry ownBelow]
  refine ⟨visitable, amendment, _, ?_, walksEntry_amendProperties belowLeft own, ?_⟩
  · rw [propertiesAmendment_amendProperties disjoint.symm ownBelow ownAsked, asked]
  · rw [amendProperties_comm disjoint ownAsked asked]

/-- Where no type has a rule of both, a walk takes the same course before and after another. -/
theorem parallel_walks (disjoint : PropertyRules.Disjoint first second) (value : Value) :
    VisitsAlike first second firstId secondId value ∧
      WalksAlike first second firstId secondId value := by
  induction value using Value.induction with
  | scalar scalar =>
      constructor
      · rintro visited ⟨⟩
        exact .pure rfl
      · rintro walked ⟨⟩
        exact .pure rfl
  | array items ih =>
      constructor
      · rintro visited ⟨⟩
        exact .pure rfl
      · intro walked walks
        obtain ⟨visited, visits, rfl⟩ := walks_array_iff.mp walks
        rw [elements, elements, elementItems_eq, elementItems_eq]
        refine (parallel_walkItems (forall₂_imp_of_mem visits fun item member =>
          (ih item member).1)).bind fun left right _ pairs => .pure ?_
        exact walks_array_iff.mpr ⟨right, pairs, rfl⟩
  | object entries ih =>
      refine ⟨parallel_element disjoint fun entry member => (ih entry member).2, ?_⟩
      intro walked walks
      obtain ⟨visited, visits, rfl⟩ := walks_object_iff.mp walks
      rw [elements, elements, elementValues_eq, elementValues_eq]
      refine (parallel_walkValues (fun _ => Visits second secondId)
        (forall₂_imp_of_mem visits fun entry member other visit =>
          ⟨visit.1, (ih entry member).1 _ visit.2⟩)).bind fun left right _ pairs => .pure ?_
      exact walks_object_iff.mpr ⟨right, pairs, rfl⟩

/-!
## Walks over what can be written
-/

/-- The rules of a walk over properties do not fail on properties that can be written. -/
def Unfailing (ruleOf : String → Option FallibleRule) : Prop :=
  ∀ elementType rule, ruleOf elementType = some rule → ∀ stepId (properties : Entries Value),
    properties.Writable → ∃ amendment, rule stepId (outlines properties) = .ok amendment

theorem exists_propertiesAmendment (unfailing : Unfailing ruleOf) (type stepId : String)
    (writable : element.Writable) :
    ∃ amendment, propertiesAmendment ruleOf type stepId element = .ok amendment := by
  unfold propertiesAmendment
  split
  · rename_i rule properties chosen found
    exact unfailing _ rule chosen stepId _ (Value.isWritable_object_iff.mp (writable.lookup found))
  · exact ⟨_, rfl⟩

private theorem exists_forall₂ {α β : Type} {related : α → β → Prop} {items : List α}
    (each : ∀ item ∈ items, ∃ other, related item other) :
    ∃ others, List.Forall₂ related items others := by
  induction items with
  | nil => exact ⟨[], .nil⟩
  | cons item rest ih =>
      obtain ⟨first, later⟩ := List.forall_mem_cons.mp each
      obtain ⟨other, pair⟩ := first
      obtain ⟨others, pairs⟩ := ih later
      exact ⟨other :: others, .cons pair pairs⟩

/-- A walk by rules that do not fail there succeeds on what can be written. -/
theorem exists_walked (unfailing : Unfailing ruleOf) (stepId : String) (value : Value)
    (writable : value.isWritable = true) :
    (∃ visited, Visits ruleOf stepId value visited) ∧
      ∃ walked, Walks ruleOf stepId value walked := by
  induction value using Value.induction with
  | scalar scalar => exact ⟨⟨_, rfl⟩, _, rfl⟩
  | array items ih =>
      rw [Value.isWritable_array_iff] at writable
      refine ⟨⟨_, rfl⟩, ?_⟩
      obtain ⟨visited, visits⟩ := exists_forall₂ fun item member =>
        (ih item member (writable item member)).1
      exact ⟨_, walks_array_iff.mpr ⟨visited, visits, rfl⟩⟩
  | object entries ih =>
      rw [Value.isWritable_object_iff] at writable
      constructor
      · obtain ⟨amendment, asked⟩ :=
          exists_propertiesAmendment unfailing (elementType entries) stepId writable
        have each : ∀ entry ∈ entries, ∃ walked, WalksEntry ruleOf stepId entry walked := by
          intro entry member
          obtain ⟨walked, walks⟩ := (ih entry member (writable entry member).2).2
          unfold WalksEntry walkEntry
          split
          · exact ⟨(entry.1, walked), rfl, walks⟩
          · exact ⟨entry, rfl, rfl⟩
        obtain ⟨walked, below⟩ := exists_forall₂ each
        exact ⟨_, visits_object_iff.mpr
          ⟨isVisitable_of_writable writable, amendment, walked, asked, below, rfl⟩⟩
      · have each : ∀ entry ∈ entries, ∃ visited : Scalar × Value,
            entry.1 = visited.1 ∧ Visits ruleOf stepId entry.2 visited.2 := by
          intro entry member
          obtain ⟨visited, visits⟩ := (ih entry member (writable entry member).2).1
          exact ⟨(entry.1, visited), rfl, visits⟩
        obtain ⟨visited, visits⟩ := exists_forall₂ each
        exact ⟨_, walks_object_iff.mpr ⟨visited, visits, rfl⟩⟩

/-!
## Elements of a document
-/

variable {fields : FieldNames} {document treated : Value}

theorem exists_overElements {change : Value → Logged Fault Value}
    (succeeds : ∀ found, contentField? fields Treatment.elementsField document = some found →
      ∃ changed, (change found).outcome = .ok changed) :
    ∃ treated, (overElements fields change document).outcome = .ok treated := by
  cases located : contentField? fields Treatment.elementsField document with
  | none => exact ⟨_, overElements_eq_ok_iff.mpr (.inl ⟨located, rfl⟩)⟩
  | some found =>
      obtain ⟨changed, changing⟩ := succeeds found located
      exact ⟨_, overElements_eq_ok_iff.mpr (.inr ⟨found, changed, located, changing, rfl⟩)⟩

theorem isWritable_of_contentField? {field : String} {found : Value}
    (located : contentField? fields field document = some found)
    (writable : document.isWritable = true) : found.isWritable = true := by
  obtain ⟨root, content, rfl, hasContent, held⟩ := contentField?_eq_some_iff.mp located
  have contentWritable := (Value.isWritable_object_iff.mp writable).lookup hasContent
  exact (Value.isWritable_object_iff.mp contentWritable).lookup held

/-- What is done to the elements alone is done alike after what is done alike to them. -/
theorem parallel_overElements {firstChange secondChange : Value → Logged Fault Value}
    (alike : ∀ found changed, (secondChange found).outcome = .ok changed →
      Parallel (fun left right => (secondChange left).outcome = .ok right) (firstChange found)
        (firstChange changed))
    (done : (overElements fields secondChange document).outcome = .ok treated) :
    Parallel (fun left right => (overElements fields secondChange left).outcome = .ok right)
      (overElements fields firstChange document) (overElements fields firstChange treated) := by
  rcases overElements_eq_ok_iff.mp done with
    ⟨absent, rfl⟩ | ⟨found, changed, located, changing, rfl⟩
  · rw [overElements_eq firstChange, absent]
    exact .pure done
  · have locatedAfter := contentField?_putContentField changed located
    rw [overElements_eq firstChange, overElements_eq firstChange, located, locatedAfter]
    refine (alike found changed changing).bind fun left right _ later => .pure ?_
    rw [putContentField_putContentField]
    refine overElements_eq_ok_iff.mpr (.inr ⟨left, right, ?_, later, ?_⟩)
    · exact contentField?_putContentField left located
    · rw [putContentField_putContentField]

end Uplift.Rewrite
