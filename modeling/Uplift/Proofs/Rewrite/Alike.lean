import Uplift.Proofs.Journal.Agree
import Uplift.Proofs.Rewrite.ByName
import Uplift.Proofs.Rewrite.ContentField
import Uplift.Proofs.Rewrite.Promotion
import Uplift.Proofs.Rewrite.Properties
import Uplift.Proofs.Rewrite.Walk

/-!
# Treatments respect the order of entries

Every treatment by rules that look fields up by their names makes alike documents of alike ones, and
makes the same notes on both, though in an order of its own; or it fails on both.
-/

set_option autoImplicit false

namespace Uplift

open Value (Alike)

namespace Rewrite

/-!
## Walks
-/

abbrev AgreeOnTrees (action other : Logged Fault Value) : Prop :=
  Logged.Agree Alike (fun _ _ => True) action other

abbrev AgreeOnEntries (action other : Logged Fault (List (Scalar × Value))) : Prop :=
  Logged.Agree (Entries.Match Alike) (fun _ _ => True) action other

section Walks

variable {ruleOf : String → Option FallibleRule} {stepId : String}
  {visit : Scalar → Value → Logged Fault Value} {entries others : List (Scalar × Value)}

private theorem agree_walkValues_of_perm (perm : entries.Perm others) :
    Logged.Agree List.Perm (fun _ _ => True) (walkValues visit entries)
      (walkValues visit others) := by
  induction perm with
  | nil => exact .pure .nil
  | cons entry _ ih =>
      refine .bind_same (fun _ => trivial) _ fun walked _ => ih.bind fun rest otherRest same => ?_
      exact .pure (same.cons _)
  | swap first second rest =>
      rw [walkValues, walkValues, walkValues, walkValues]
      simp only [Logged.bind_bind]
      refine .swap (fun _ _ => trivial) _ _ fun walkedSecond walkedFirst => ?_
      refine .bind_same (fun _ => trivial) _ fun walkedRest _ => ?_
      exact .pure (.swap _ _ _)
  | trans _ _ first second =>
      exact first.trans (fun _ _ _ _ _ => trivial) second fun _ _ _ => List.Perm.trans

private theorem agree_walkValues_of_pairs
    (pairs : List.Forall₂ (fun entry other => entry.1 = other.1 ∧
      AgreeOnTrees (visit entry.1 entry.2) (visit entry.1 other.2)) entries others) :
    Logged.Agree (fun walked otherWalked => walked.map (·.1) = entries.map (·.1) ∧
        List.Forall₂ (Entries.MatchEntry Alike) walked otherWalked)
      (fun _ _ => True) (walkValues visit entries) (walkValues visit others) := by
  induction pairs with
  | nil => exact .pure ⟨rfl, .nil⟩
  | cons head _ ih =>
      obtain ⟨sameKey, agree⟩ := head
      rw [walkValues, walkValues, ← sameKey]
      refine agree.bind fun walked otherWalked alike => ih.bind fun rest otherRest same => ?_
      exact .pure ⟨by rw [List.map_cons, List.map_cons, same.1], .cons ⟨rfl, alike⟩ same.2⟩

/-- Walks over the values of alike objects agree if the visits of alike values do: the one object
can be arranged as the other stands, and the order of two visits makes no difference. -/
theorem agree_walkValues (same : Entries.Match Alike entries others)
    (visits : ∀ entry ∈ entries, ∀ other, Alike entry.2 other →
      AgreeOnTrees (visit entry.1 entry.2) (visit entry.1 other)) :
    AgreeOnEntries (walkValues visit entries) (walkValues visit others) := by
  obtain ⟨arranged, perm, pairs⟩ := same.arranged
  have paired := agree_walkValues_of_pairs (forall₂_imp_of_mem pairs fun entry member other pair =>
    ⟨pair.1, visits entry member other.2 pair.2⟩)
  refine paired.trans (fun _ _ _ _ _ => trivial) (agree_walkValues_of_perm perm.symm) ?_
  rintro walked between otherWalked ⟨keys, walkedPairs⟩ walkedPerm
  exact Entries.match_of_arranged (same.distinct.of_keys keys.symm) (same.texts.of_keys keys.symm)
    walkedPairs walkedPerm.symm

theorem agree_walkItems {visit : Value → Logged Fault Value} {items others : List Value}
    (pairs : List.Forall₂ (fun item other => AgreeOnTrees (visit item) (visit other)) items
      others) :
    Logged.Agree (List.Forall₂ Alike) (fun _ _ => True) (walkItems visit items)
      (walkItems visit others) := by
  induction pairs with
  | nil => exact .pure .nil
  | cons head _ ih =>
      rw [walkItems, walkItems]
      exact head.bind fun _ _ alike => ih.bind fun _ _ same => .pure (.cons alike same)

end Walks

/-!
## Rules on every object, and on one
-/

section Objects

variable {rule : FallibleRule} {value other : Value}

theorem agree_everyObject (byName : rule.ByName) (stepId : String) (alike : Alike value other) :
    AgreeOnTrees (everyObject (rule stepId) value) (everyObject (rule stepId) other) := by
  induction value using Value.induction generalizing other with
  | scalar scalar =>
      cases alike
      exact .pure (.scalar scalar)
  | array items ih =>
      obtain ⟨others, rfl, pairs⟩ := alike.exists_array
      rw [everyObject, everyObject, everyObjectItems_eq, everyObjectItems_eq]
      exact (agree_walkItems (forall₂_imp_of_mem pairs fun item member _ pair =>
        ih item member pair)).bind fun _ _ treated => .pure (.array treated)
  | object entries ih =>
      obtain ⟨others, rfl, same⟩ := alike.exists_object
      rw [everyObject, everyObject, everyObjectEntries_eq, everyObjectEntries_eq,
        ask_eq byName stepId same]
      refine .bind_same (fun _ => trivial) _ fun amendment asked => ?_
      have plain := byName.plain stepId _ _ (ask_eq_ok_iff.mp asked)
      exact (agree_walkValues same fun entry member other pair => ih entry member pair).bind
        fun _ _ treated => .pure (Alike.object_iff.mpr (plain.match_apply treated))

theorem agree_thisObject (byName : rule.ByName) (stepId : String) (alike : Alike value other) :
    AgreeOnTrees (thisObject (rule stepId) value) (thisObject (rule stepId) other) := by
  cases value with
  | scalar scalar =>
      cases alike
      exact .pure (.scalar scalar)
  | array items =>
      obtain ⟨others, rfl, _⟩ := alike.exists_array
      exact .pure alike
  | object entries =>
      obtain ⟨others, rfl, same⟩ := alike.exists_object
      rw [thisObject, thisObject, ask_eq byName stepId same]
      refine .bind_same (fun _ => trivial) _ fun amendment asked => ?_
      have plain := byName.plain stepId _ _ (ask_eq_ok_iff.mp asked)
      exact .pure (Alike.object_iff.mpr (plain.match_apply same))

theorem agree_changeChildren {change : Value → Logged Fault Value}
    (changes : ∀ child otherChild, Alike child otherChild →
      AgreeOnTrees (change child) (change otherChild)) (alike : Alike value other) :
    AgreeOnTrees (changeChildren change value) (changeChildren change other) := by
  cases value with
  | scalar scalar =>
      cases alike
      exact .pure (.scalar scalar)
  | array items =>
      obtain ⟨others, rfl, pairs⟩ := alike.exists_array
      exact (agree_walkItems (pairs.imp fun _ _ pair => changes _ _ pair)).bind
        fun _ _ changed => .pure (.array changed)
  | object entries =>
      obtain ⟨others, rfl, same⟩ := alike.exists_object
      exact (agree_walkValues same fun _ _ _ pair => changes _ _ pair).bind
        fun _ _ changed => .pure (Alike.object_iff.mpr changed)

end Objects

/-!
## Elements
-/

section Elements

variable {ruleOf : String → Option FallibleRule} {stepId : String} {value other : Value}
  {entries others : Entries Value} {amendment : Amendment}

theorem propertiesAmendment_eq (byName : PropertyRules.ByName ruleOf)
    (same : entries.Match Alike others) (type : String) :
    propertiesAmendment ruleOf type stepId entries =
      propertiesAmendment ruleOf type stepId others := by
  rcases same.cases_object Treatment.propertiesField with
    ⟨none, otherNone⟩ | ⟨properties, otherProperties, found, otherFound, sameProperties⟩
  · rw [propertiesAmendment_of_none (properties?_eq_none_iff.mpr none),
      propertiesAmendment_of_none (properties?_eq_none_iff.mpr otherNone)]
  · rw [propertiesAmendment_of_properties (properties?_eq_some_iff.mpr found),
      propertiesAmendment_of_properties (properties?_eq_some_iff.mpr otherFound), amendmentFor,
      amendmentFor]
    cases chosen : ruleOf type with
    | none => rfl
    | some rule => exact (byName _ rule chosen).same stepId _ _ (lookup_outlines_eq sameProperties)

theorem plain_propertiesAmendment (byName : PropertyRules.ByName ruleOf) {type : String}
    (asked : propertiesAmendment ruleOf type stepId entries = .ok amendment) :
    amendment.Plain := by
  unfold propertiesAmendment at asked
  split at asked
  · rename_i rule properties chosen _
    exact (byName _ rule chosen).plain stepId _ _ asked
  · cases asked
    exact nofun

theorem match_amendProperties (plain : amendment.Plain) (same : entries.Match Alike others) :
    Entries.Match Alike (amendProperties amendment entries) (amendProperties amendment others) := by
  rcases same.cases_object Treatment.propertiesField with
    ⟨none, otherNone⟩ | ⟨properties, otherProperties, found, otherFound, sameProperties⟩
  · rw [amendProperties_of_none (properties?_eq_none_iff.mpr none),
      amendProperties_of_none (properties?_eq_none_iff.mpr otherNone)]
    exact same
  · rw [amendProperties_of_properties (properties?_eq_some_iff.mpr found),
      amendProperties_of_properties (properties?_eq_some_iff.mpr otherFound)]
    exact same.put _ (Alike.object_iff.mpr (plain.match_apply sameProperties))

/-- Elements that are alike are visited, and what is below them walked over, alike. -/
theorem agree_element_and_elements (byName : PropertyRules.ByName ruleOf)
    (alike : Alike value other) :
    AgreeOnTrees (element ruleOf stepId value) (element ruleOf stepId other) ∧
      AgreeOnTrees (elements ruleOf stepId value) (elements ruleOf stepId other) := by
  induction value using Value.induction generalizing other with
  | scalar scalar =>
      cases alike
      exact ⟨.pure (.scalar scalar), .pure (.scalar scalar)⟩
  | array items ih =>
      obtain ⟨others, rfl, pairs⟩ := alike.exists_array
      refine ⟨.pure alike, ?_⟩
      rw [elements, elements, elementItems_eq, elementItems_eq]
      refine (agree_walkItems (forall₂_imp_of_mem pairs fun item member _ pair =>
        (ih item member pair).1)).bind fun _ _ walked => .pure (.array walked)
  | object entries ih =>
      obtain ⟨others, rfl, same⟩ := alike.exists_object
      constructor
      · rw [element, element, elementEntries_eq, elementEntries_eq, read_outlines_eq same]
        simp only [propertiesAmendment_eq byName same]
        refine .bind_same (fun _ => trivial) _ fun visit _ =>
          .bind_same (fun _ => trivial) _ fun _ _ =>
            .bind_same (fun _ => trivial) _ fun amendment asked =>
              .bind_same (fun _ => trivial) _ fun _ _ => ?_
        have below : AgreeOnEntries (walkValues (walkEntry ruleOf stepId) entries)
            (walkValues (walkEntry ruleOf stepId) others) := by
          refine agree_walkValues same fun entry member other pair => ?_
          unfold walkEntry
          split
          · exact (ih entry member pair).2
          · exact .pure pair
        rw [← propertiesAmendment_eq byName same] at asked
        exact below.bind fun _ _ walked => .pure (Alike.object_iff.mpr
          (match_amendProperties (plain_propertiesAmendment byName asked) walked))
      · rw [elements, elements, elementValues_eq, elementValues_eq]
        have below : AgreeOnEntries (walkValues (fun _ => element ruleOf stepId) entries)
            (walkValues (fun _ => element ruleOf stepId) others) :=
          agree_walkValues same fun entry member other pair => (ih entry member pair).1
        exact below.bind fun _ _ walked => .pure (Alike.object_iff.mpr walked)

end Elements

/-!
## Treatments of documents
-/

section Documents

variable {fields : FieldNames} {document other : Value}

theorem match_kept {entries others : Entries Value} (same : entries.Match Alike others) :
    Entries.Match Alike (Promotion.kept fields entries) (Promotion.kept fields others) where
  distinct := Promotion.distinctKeys_kept fields entries
  othersDistinct := Promotion.distinctKeys_kept fields others
  texts := Promotion.textKeys_kept fields entries
  othersTexts := Promotion.textKeys_kept fields others
  found name := by
    rw [Promotion.lookup_kept, Promotion.lookup_kept]
    split
    · exact same.found name
    · exact .none

theorem agree_promote (alike : Alike document other) :
    AgreeOnTrees (.ofExcept (promote fields document)) (.ofExcept (promote fields other)) := by
  cases document with
  | scalar scalar =>
      cases alike
      exact .error rfl rfl trivial
  | array items =>
      obtain ⟨others, rfl, _⟩ := alike.exists_array
      exact .error rfl rfl trivial
  | object entries =>
      obtain ⟨others, rfl, same⟩ := alike.exists_object
      have moved : Alike (.object (Promotion.moved fields entries))
          (.object (Promotion.moved fields others)) := by
        rw [Alike.object_iff, Promotion.moved_eq_filter, Promotion.moved_eq_filter]
        exact same.filter fun key => !Promotion.stays fields key
      exact .ok rfl rfl (Alike.object_iff.mpr ((match_kept same).put _ moved)) .nil

theorem contentField?_cases (alike : Alike document other) (field : String) :
    (contentField? fields field document = none ∧ contentField? fields field other = none) ∨
      ∃ found otherFound, contentField? fields field document = some found ∧
        contentField? fields field other = some otherFound ∧ Alike found otherFound := by
  cases document with
  | scalar scalar =>
      cases alike
      exact .inl ⟨rfl, rfl⟩
  | array items =>
      obtain ⟨others, rfl, _⟩ := alike.exists_array
      exact .inl ⟨rfl, rfl⟩
  | object root =>
      obtain ⟨otherRoot, rfl, sameRoot⟩ := alike.exists_object
      rcases sameRoot.cases_object fields.content with
        ⟨none, otherNone⟩ | ⟨content, otherContent, found, otherFound, sameContent⟩
      · exact .inl ⟨contentField?_of_no_content none, contentField?_of_no_content otherNone⟩
      · rw [contentField?, contentField?, found, otherFound]
        exact sameContent.cases field

theorem alike_putContentField {field : String} {changed otherChanged : Value}
    (alike : Alike document other) (alikeChanged : Alike changed otherChanged) :
    Alike (putContentField fields field changed document)
      (putContentField fields field otherChanged other) := by
  cases document with
  | scalar scalar =>
      cases alike
      exact .scalar scalar
  | array items =>
      obtain ⟨others, rfl, _⟩ := alike.exists_array
      exact alike
  | object root =>
      obtain ⟨otherRoot, rfl, sameRoot⟩ := alike.exists_object
      rcases sameRoot.cases_object fields.content with
        ⟨none, otherNone⟩ | ⟨content, otherContent, found, otherFound, sameContent⟩
      · rw [putContentField_of_no_content none, putContentField_of_no_content otherNone]
        exact alike
      · rw [putContentField_object found, putContentField_object otherFound]
        exact Alike.object_iff.mpr (sameRoot.put _
          (Alike.object_iff.mpr (sameContent.put _ alikeChanged)))

theorem agree_overElements {change : Value → Logged Fault Value}
    (changes : ∀ found otherFound, Alike found otherFound →
      AgreeOnTrees (change found) (change otherFound)) (alike : Alike document other) :
    AgreeOnTrees (overElements fields change document) (overElements fields change other) := by
  rw [overElements_eq, overElements_eq]
  rcases contentField?_cases alike Treatment.elementsField with
    ⟨absent, otherAbsent⟩ | ⟨found, otherFound, located, otherLocated, alikeElements⟩
  · rw [absent, otherAbsent]
    exact .pure alike
  · rw [located, otherLocated]
    exact (changes _ _ alikeElements).bind fun _ _ changed =>
      .pure (alike_putContentField alike changed)

theorem agree_overOperations {change : List Value → Logged Fault (List Value)}
    (changes : ∀ items others, List.Forall₂ Alike items others →
      Logged.Agree (List.Forall₂ Alike) (fun _ _ => True) (change items) (change others))
    (alike : Alike document other) :
    AgreeOnTrees (overOperations fields change document) (overOperations fields change other) := by
  cases document with
  | scalar scalar =>
      cases alike
      exact .fail trivial
  | array items =>
      obtain ⟨others, rfl, _⟩ := alike.exists_array
      exact .fail trivial
  | object root =>
      obtain ⟨otherRoot, rfl, sameRoot⟩ := alike.exists_object
      rw [overOperations, overOperations]
      rcases sameRoot.cases fields.content with
        ⟨absent, otherAbsent⟩ | ⟨content, otherContent, found, otherFound, alikeContent⟩
      · rw [absent, otherAbsent]
        exact .pure alike
      · rw [found, otherFound]
        cases content with
        | scalar scalar =>
            cases alikeContent
            cases scalar with
            | null => exact .pure alike
            | _ => exact .fail trivial
        | array items =>
            obtain ⟨others, rfl, _⟩ := alikeContent.exists_array
            exact .fail trivial
        | object content =>
            obtain ⟨otherContent, rfl, sameContent⟩ := alikeContent.exists_object
            dsimp only
            rcases sameContent.cases Treatment.operationsField with
              ⟨absent, otherAbsent⟩ | ⟨operations, _, found, otherFound, alikeOperations⟩
            · rw [absent, otherAbsent]
              exact .pure alike
            · rw [found, otherFound]
              cases operations with
              | scalar scalar =>
                  cases alikeOperations
                  cases scalar with
                  | null => exact .pure alike
                  | _ => exact .fail trivial
              | array items =>
                  obtain ⟨others, rfl, pairs⟩ := alikeOperations.exists_array
                  exact (changes _ _ pairs).bind fun _ _ changed => .pure
                    (Alike.object_iff.mpr (sameRoot.put _ (Alike.object_iff.mpr
                      (sameContent.put _ (Alike.array_iff.mpr changed)))))
              | object entries =>
                  obtain ⟨others, rfl, _⟩ := alikeOperations.exists_object
                  exact .fail trivial

theorem agree_onTree {treatment : Treatment} (byName : treatment.ByName) (stepId : String)
    (alike : Alike document other) :
    AgreeOnTrees (onTree fields stepId treatment document)
      (onTree fields stepId treatment other) := by
  cases treatment with
  | promote => exact agree_promote alike
  | everyObject rule => exact agree_everyObject byName stepId alike
  | eachElement rule =>
      exact agree_overElements (fun _ _ => agree_changeChildren fun _ _ =>
        agree_thisObject byName stepId) alike
  | elementProperties ruleOf =>
      exact agree_overElements (fun _ _ found => (agree_element_and_elements byName found).2) alike
  | eachOperation rule =>
      exact agree_overOperations (fun _ _ pairs => agree_walkItems (pairs.imp fun _ _ pair =>
        agree_thisObject byName stepId pair)) alike

/-- Treatments that respect the order of entries do so one after the other. -/
theorem agree_treatments {treatments : List Treatment}
    (byName : ∀ treatment ∈ treatments, Treatment.ByName treatment) (stepId : String)
    (alike : Alike document other) :
    AgreeOnTrees
      (treatments.foldlM (fun current treatment => onTree fields stepId treatment current) document)
      (treatments.foldlM (fun current treatment => onTree fields stepId treatment current)
        other) := by
  induction treatments generalizing document other with
  | nil => exact .pure alike
  | cons treatment rest ih =>
      obtain ⟨first, later⟩ := List.forall_mem_cons.mp byName
      exact (agree_onTree first stepId alike).bind fun _ _ treated => ih later treated

end Documents

end Rewrite

end Uplift
