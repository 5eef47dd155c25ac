import Uplift.Proofs.Rewrite.Properties
import Uplift.Proofs.Rewrite.Visits

/-!
# What a walk over elements changes

A walk amends the properties of each element that it visits, if they are an object. All else of the
document it leaves as it is: what stands at the end of any other way stands there still.
-/

set_option autoImplicit false

namespace Uplift.Rewrite

variable {ruleOf : String → Option FallibleRule} {stepId : String}

/-- What a visit makes of an entry of the element: it walks over the children, amends properties that
are an object, and leaves any other entry as it is. -/
inductive VisitsEntry (ruleOf : String → Option FallibleRule) (stepId : String)
    (amendment : Amendment) : Scalar × Value → Scalar × Value → Prop where
  | children {value walked : Value} : Walks ruleOf stepId value walked →
      VisitsEntry ruleOf stepId amendment (.text Treatment.childrenField, value)
        (.text Treatment.childrenField, walked)
  | properties (properties : Entries Value) :
      VisitsEntry ruleOf stepId amendment (.text Treatment.propertiesField, .object properties)
        (.text Treatment.propertiesField, .object (amendment.apply properties))
  | kept {entry : Scalar × Value} : entry.1 ≠ .text Treatment.childrenField →
      (entry.1 = .text Treatment.propertiesField → entry.2.isObject = false) →
      VisitsEntry ruleOf stepId amendment entry entry

theorem keys_of_visitsEntry {amendment : Amendment} {entries left : Entries Value}
    (pairs : List.Forall₂ (VisitsEntry ruleOf stepId amendment) entries left) :
    entries.map (·.1) = left.map (·.1) := by
  induction pairs with
  | nil => rfl
  | cons visits _ ih =>
      rw [List.map_cons, List.map_cons, ih]
      cases visits <;> rfl

/-- What becomes of a value that stands where properties stand: an object is amended. -/
def amended (amendment : Amendment) : Value → Value
  | .object properties => .object (amendment.apply properties)
  | other => other

theorem amendProperties_eq_changeField {element : Entries Value} (distinct : element.DistinctKeys)
    (amendment : Amendment) :
    amendProperties amendment element =
      element.changeField Treatment.propertiesField (amended amendment) := by
  cases found : properties? element with
  | none =>
      rw [amendProperties_of_none found, distinct.changeField_eq_self]
      intro value located
      cases value with
      | scalar scalar => rfl
      | array items => rfl
      | object properties => exact absurd ⟨properties, located⟩ (properties?_eq_none_iff.mp found)
  | some properties =>
      rw [amendProperties_of_properties found]
      exact distinct.put_eq_changeField (properties?_eq_some_iff.mp found) (amended amendment)

theorem visitsEntry_of_walksEntry {amendment : Amendment} {entry walked : Scalar × Value}
    (walks : WalksEntry ruleOf stepId entry walked) :
    VisitsEntry ruleOf stepId amendment entry
      (if walked.1 = .text Treatment.propertiesField then (walked.1, amended amendment walked.2)
      else walked) := by
  obtain ⟨key, value⟩ := entry
  obtain ⟨walkedKey, walkedValue⟩ := walked
  obtain ⟨rfl, below, kept⟩ := walksEntry_iff.mp walks
  by_cases children : key = .text Treatment.childrenField
  · subst children
    exact .children (below (Scalar.sameKey_refl _))
  · obtain rfl : value = walkedValue :=
      kept (Bool.eq_false_iff.mpr (mt Scalar.sameKey_text_iff.mp children))
    split
    · rename_i properties
      cases value with
      | scalar scalar => exact .kept children fun _ => rfl
      | array items => exact .kept children fun _ => rfl
      | object inner =>
          obtain rfl : key = .text Treatment.propertiesField := properties
          exact .properties inner
    · rename_i other
      exact .kept children fun same => absurd same other

/-- A visit goes over the entries of an element one by one. -/
theorem exists_visitsEntry {entries : Entries Value} {visited : Value}
    (distinct : entries.DistinctKeys) (visits : Visits ruleOf stepId (.object entries) visited) :
    ∃ amendment left,
      propertiesAmendment ruleOf (elementType entries) stepId entries = .ok amendment ∧
      visited = .object left ∧
        List.Forall₂ (VisitsEntry ruleOf stepId amendment) entries left := by
  obtain ⟨_, amendment, walked, asked, below, rfl⟩ := visits_object_iff.mp visits
  have pairs : List.Forall₂ (Entries.MatchEntry fun _ _ => True) entries walked :=
    below.imp fun _ _ walks => ⟨walks.1, trivial⟩
  have keys := (Entries.forall₂_matchEntry_iff.mp pairs).1
  refine ⟨amendment, _, asked, rfl, ?_⟩
  rw [amendProperties_eq_changeField (distinct.of_keys keys), Entries.changeField,
    List.forall₂_map_right_iff]
  exact below.imp fun _ _ => visitsEntry_of_walksEntry

/-- Properties that are an object stand in an element that is reached, at the end of a way. -/
def PropertiesAt (reached : List Nat → Entries Value → Prop) (way : List Nat)
    (element properties : Entries Value) : Prop :=
  ∃ before index, way = before ++ [index] ∧ reached before element ∧
    element[index]? = some (.text Treatment.propertiesField, .object properties)

/-- What a walk that reaches some elements makes of a tree. The properties of these elements are
amended by the rules of their types, and a way that does not lead there leads to what it led to. -/
structure Changes (ruleOf : String → Option FallibleRule) (stepId : String)
    (reached : List Nat → Entries Value → Prop) (before after : Value) : Prop where
  properties : ∀ way element properties, PropertiesAt reached way element properties →
    ∃ amendment, amendmentFor ruleOf stepId (elementType element) properties = .ok amendment ∧
      after.at? way = some (.object (amendment.apply properties))
  elsewhere : ∀ way,
    (∀ start element properties, PropertiesAt reached start element properties →
      ¬ start <+: way) →
    (after.at? way).map Value.label = (before.at? way).map Value.label

namespace Changes

variable {reached : List Nat → Entries Value → Prop} {before after : Value}

/-- What is reached through one child. -/
abbrev Through (reached : List Nat → Entries Value → Prop) (place : Nat) (way : List Nat)
    (element : Entries Value) : Prop :=
  reached (place :: way) element

theorem congr {others : List Nat → Entries Value → Prop}
    (changes : Changes ruleOf stepId reached before after)
    (same : ∀ way element, others way element ↔ reached way element) :
    Changes ruleOf stepId others before after := by
  have equal : others = reached := funext fun way => funext fun element => propext (same way element)
  rwa [equal]

theorem refl (none : ∀ way element, ¬ reached way element) (value : Value) :
    Changes ruleOf stepId reached value value where
  properties _ _ _ | ⟨_, _, _, found, _⟩ => absurd found (none _ _)
  elsewhere _ _ := rfl

/-- What becomes of a child: it is changed by itself, or it is the properties of the node, if that
is an element. -/
inductive Child (ruleOf : String → Option FallibleRule) (stepId : String)
    (reached : List Nat → Entries Value → Prop) (place : Nat) : Option Value → Option Value → Prop
    where
  | absent : (∀ way element, ¬ reached (place :: way) element) →
      (∀ element properties, ¬ PropertiesAt reached [place] element properties) →
      Child ruleOf stepId reached place none none
  | amended {child : Value} {element properties : Entries Value} {amendment : Amendment} :
      PropertiesAt reached [place] element properties →
      (∀ way element, ¬ reached (place :: way) element) →
      amendmentFor ruleOf stepId (elementType element) properties = .ok amendment →
      Child ruleOf stepId reached place (some child) (some (.object (amendment.apply properties)))
  | changed {child childAfter : Value} :
      (∀ element properties, ¬ PropertiesAt reached [place] element properties) →
      Changes ruleOf stepId (Through reached place) child childAfter →
      Child ruleOf stepId reached place (some child) (some childAfter)

theorem propertiesAt_cons {place : Nat} {way : List Nat} {element properties : Entries Value}
    (found : PropertiesAt (Through reached place) way element properties) :
    PropertiesAt reached (place :: way) element properties := by
  obtain ⟨start, index, rfl, visited, located⟩ := found
  exact ⟨place :: start, index, rfl, visited, located⟩

theorem propertiesAt_single {place : Nat} {element properties : Entries Value}
    (found : PropertiesAt reached [place] element properties) :
    reached [] element ∧
      element[place]? = some (.text Treatment.propertiesField, .object properties) := by
  obtain ⟨start, index, same, visited, located⟩ := found
  cases start with
  | nil =>
      cases same
      exact ⟨visited, located⟩
  | cons first rest => simp at same

/-- Changes can be told child by child. -/
theorem of_children (label : after.label = before.label)
    (own : ∀ element, reached [] element → before = .object element)
    (each : ∀ place,
      Child ruleOf stepId reached place before.children[place]? after.children[place]?) :
    Changes ruleOf stepId reached before after where
  properties way element properties found := by
    obtain ⟨start, index, rfl, visited, located⟩ := found
    -- A single step leads to the properties of the node itself, a longer way goes on below a child.
    cases start with
    | nil =>
        have here := each index
        rw [List.nil_append, Value.at?_cons]
        generalize before.children[index]? = child at here
        generalize after.children[index]? = childAfter at here ⊢
        have there : PropertiesAt reached [index] element properties :=
          ⟨[], index, rfl, visited, located⟩
        cases here with
        | absent _ noProperties => exact absurd there (noProperties _ _)
        | changed noProperties _ => exact absurd there (noProperties _ _)
        | amended found _ asked =>
            obtain ⟨otherVisited, otherLocated⟩ := propertiesAt_single found
            have same := (own _ otherVisited).symm.trans (own _ visited)
            cases same
            rw [located] at otherLocated
            cases otherLocated
            exact ⟨_, asked, rfl⟩
    | cons place rest =>
        have here := each place
        rw [List.cons_append, Value.at?_cons]
        generalize before.children[place]? = child at here
        generalize after.children[place]? = childAfter at here ⊢
        cases here with
        | absent unreached _ => exact absurd visited (unreached _ _)
        | amended _ unreached _ => exact absurd visited (unreached _ _)
        | changed _ changes =>
            exact changes.properties _ element properties ⟨rest, index, rfl, visited, located⟩
  elsewhere way apart := by
    cases way with
    | nil => exact congrArg some label
    | cons place rest =>
        have here := each place
        rw [Value.at?_cons, Value.at?_cons]
        generalize before.children[place]? = child at here ⊢
        generalize after.children[place]? = childAfter at here ⊢
        cases here with
        | absent _ _ => rfl
        | amended found _ _ =>
            exact absurd (List.cons_prefix_cons.mpr ⟨rfl, List.nil_prefix⟩) (apart _ _ _ found)
        | changed _ changes =>
            refine changes.elsewhere rest fun start element properties found leads => ?_
            exact apart _ _ _ (propertiesAt_cons found) (List.cons_prefix_cons.mpr ⟨rfl, leads⟩)

end Changes

private theorem changes_of_walks {container walked : Value}
    (each : ∀ child ∈ container.children, ∀ visited, Visits ruleOf stepId child visited →
      Changes ruleOf stepId (fun way element => (way, element) ∈ visits child) child visited)
    (walks : Walks ruleOf stepId container walked) :
    Changes ruleOf stepId (fun way element => (way, element) ∈ visitsBelow container) container
      walked := by
  obtain ⟨label, pairs⟩ := label_and_children_of_walks walks
  refine .of_children label (fun _ member => absurd member not_mem_visitsBelow_nil) fun place => ?_
  have noProperties (element properties : Entries Value) : ¬ PropertiesAt
      (fun way element => (way, element) ∈ visitsBelow container) [place] element properties :=
    fun found => not_mem_visitsBelow_nil (Changes.propertiesAt_single found).1
  cases located : container.children[place]? with
  | none =>
      rw [getElem?_eq_none_of_forall₂ pairs located]
      refine .absent (fun way element member => ?_) noProperties
      obtain ⟨child, found, _⟩ := mem_visitsBelow_cons.mp member
      rw [located] at found
      cases found
  | some child =>
      obtain ⟨visited, after, visit⟩ := exists_getElem?_of_forall₂ pairs located
      rw [after]
      refine .changed noProperties
        ((each child (List.mem_of_getElem? located) visited visit).congr fun way element => ?_)
      rw [Changes.Through, mem_visitsBelow_cons, located]
      simp

private theorem children_ne_properties :
    Scalar.text Treatment.childrenField ≠ .text Treatment.propertiesField := by
  decide

private theorem properties_of_propertiesAt {entries element properties : Entries Value} {place : Nat}
    (found : PropertiesAt (fun way element => (way, element) ∈ visits (.object entries)) [place]
      element properties) :
    entries[place]? = some (.text Treatment.propertiesField, .object properties) := by
  obtain ⟨member, located⟩ := Changes.propertiesAt_single found
  rwa [mem_visits_nil.mp member] at located

private theorem changes_of_visit {entries : Entries Value} {visited : Value}
    (own : entries.DistinctKeys)
    (each : ∀ entry ∈ entries, ∀ walked, Walks ruleOf stepId entry.2 walked →
      Changes ruleOf stepId (fun way element => (way, element) ∈ visitsBelow entry.2) entry.2 walked)
    (visit : Visits ruleOf stepId (.object entries) visited) :
    Changes ruleOf stepId (fun way element => (way, element) ∈ visits (.object entries))
      (.object entries) visited := by
  obtain ⟨amendment, left, asked, rfl, pairs⟩ := exists_visitsEntry own visit
  refine .of_children (by rw [Value.label, Value.label, keys_of_visitsEntry pairs])
    (fun element member => by rw [mem_visits_nil.mp member]) fun place => ?_
  rw [Value.children_object_getElem?, Value.children_object_getElem?]
  cases located : entries[place]? with
  | none =>
      rw [getElem?_eq_none_of_forall₂ pairs located]
      refine .absent (fun way element member => ?_) fun element properties found => ?_
      · obtain ⟨children, found, _⟩ := mem_visits_cons.mp member
        rw [located] at found
        cases found
      · have found := properties_of_propertiesAt found
        rw [located] at found
        cases found
  | some entry =>
      obtain ⟨entryAfter, after, visits⟩ := exists_getElem?_of_forall₂ pairs located
      rw [after]
      -- What is reached further on lies below the children alone, and only properties are amended.
      cases visits with
      | @children value walked walks =>
          refine .changed (fun element properties found => ?_)
            ((each _ (List.mem_of_getElem? located) walked walks).congr fun way element => ?_)
          · have found := properties_of_propertiesAt found
            rw [located, Option.some.injEq] at found
            exact absurd (congrArg Prod.fst found) children_ne_properties
          · rw [Changes.Through, mem_visits_cons, located]
            simp
      | properties properties =>
          have found : properties? entries = some properties :=
            properties?_eq_some_iff.mpr (own.lookup_of_mem (List.mem_of_getElem? located))
          rw [propertiesAmendment_of_properties found] at asked
          refine .amended ⟨[], place, rfl, mem_visits_self entries, located⟩
            (fun way element member => ?_) asked
          obtain ⟨children, other, _⟩ := mem_visits_cons.mp member
          rw [located, Option.some.injEq] at other
          exact absurd (congrArg Prod.fst other).symm children_ne_properties
      | kept notChildren noProperties =>
          refine .changed (fun element properties found => ?_)
            (.refl (fun way element member => ?_) _)
          · have found := properties_of_propertiesAt found
            rw [located] at found
            cases found
            cases noProperties rfl
          · obtain ⟨children, other, _⟩ := mem_visits_cons.mp member
            rw [located] at other
            cases other
            exact notChildren rfl

/-- A walk changes the properties of the elements that it visits, and nothing else. -/
theorem changes (value : Value) (distinct : value.DistinctKeys) :
    (∀ visited, Visits ruleOf stepId value visited →
      Changes ruleOf stepId (fun way element => (way, element) ∈ visits value) value visited) ∧
      ∀ walked, Walks ruleOf stepId value walked →
        Changes ruleOf stepId (fun way element => (way, element) ∈ visitsBelow value) value
          walked := by
  induction value using Value.induction with
  | scalar scalar =>
      constructor
      · rintro visited ⟨⟩
        exact .refl (fun _ _ => nofun) _
      · rintro walked ⟨⟩
        exact .refl (fun _ _ => nofun) _
  | array items ih =>
      rw [Value.DistinctKeys.array_iff] at distinct
      constructor
      · rintro visited ⟨⟩
        exact .refl (fun _ _ => nofun) _
      · exact fun walked => changes_of_walks fun item member =>
          (ih item member (distinct item member)).1
  | object entries ih =>
      obtain ⟨own, below⟩ := Value.DistinctKeys.object_iff.mp distinct
      refine ⟨fun visited visit => ?_, fun walked => changes_of_walks
        (List.forall_mem_map.mpr fun entry member => (ih entry member (below entry member)).1)⟩
      exact changes_of_visit own (fun entry member => (ih entry member (below entry member)).2) visit

end Uplift.Rewrite
