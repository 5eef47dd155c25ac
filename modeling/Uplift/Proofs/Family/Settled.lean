import Uplift.Proofs.Family
import Uplift.Proofs.Rewrite.Settled

/-!
# What the steps of the families settle

The versions behind the first tidy documents, and each of them has nothing left to do on a document
that it has tidied. The later of two versions does not bring back what the earlier one has tidied,
nor does a marker.
-/

set_option autoImplicit false

namespace Uplift

/-- A rule has nothing more to ask for on what it has amended. -/
def FallibleRule.Settles (rule : FallibleRule) : Prop :=
  ∀ stepId properties amendment, rule stepId (Rewrite.outlines properties) = .ok amendment →
    amendment.edits = [] ∨
      rule stepId (Rewrite.outlines (amendment.apply properties)) = .ok .none

theorem FallibleRule.Settles.again {rule : FallibleRule} (settles : rule.Settles)
    {stepId : String} {properties : Entries Value} {amendment : Amendment}
    (asked : rule stepId (Rewrite.outlines properties) = .ok amendment) :
    ∃ again, rule stepId (Rewrite.outlines (amendment.apply properties)) = .ok again ∧
      again.apply (amendment.apply properties) = amendment.apply properties := by
  rcases settles stepId properties amendment asked with idle | nothing
  · have unchanged := Amendment.apply_of_no_edits idle
    exact ⟨amendment, by rw [unchanged, asked], unchanged _⟩
  · exact ⟨.none, nothing, rfl⟩

namespace Rule

theorem Settles.of_rule {rule : Rule}
    (settles : ∀ stepId properties,
      let amendment := rule stepId (Rewrite.outlines properties)
      amendment.edits = [] ∨ rule stepId (Rewrite.outlines (amendment.apply properties)) = .none) :
    (fallible rule).Settles := by
  intro stepId properties amendment asked
  cases asked
  exact (settles stepId properties).imp_right (congrArg Except.ok)

end Rule

namespace FallibleRule

theorem editIf_of_absent {ask : Outline → Except Fault Bool} {field : String} {edit : Edit Value}
    (stepId : String) {entries : Entries Outline}
    (absent : entries.lookup (.text field) = none) :
    editIf ask field edit stepId entries = .ok .none := by
  rw [editIf, absent]

/-- What was taken away is not asked about again. -/
theorem settles_drop (ask : Outline → Except Fault Bool) (field : String) :
    (editIf ask field (.drop field)).Settles := by
  intro stepId properties amendment asked
  unfold editIf at asked
  split at asked
  · cases asked
    exact .inl rfl
  · obtain ⟨answer, _, rfl⟩ := Outcome.map_eq_ok_iff.mp asked
    cases answer with
    | false => exact .inl rfl
    | true =>
        have gone : Entries.lookup (.text field)
            (Rewrite.outlines (Entries.erase (.text field) properties)) = none := by
          rw [Rewrite.outlines, Entries.lookup_mapValues, Entries.lookup_erase_same]
          rfl
        exact .inr (editIf_of_absent stepId gone)

end FallibleRule

namespace Chain

theorem settles_settleFailureHandling : (Rule.fallible settleFailureHandling).Settles := by
  refine Rule.Settles.of_rule fun stepId properties => ?_
  have settled : ∀ entries : Entries Value,
      entries.contains (.text "handleChainFailureAction") = true →
        settleFailureHandling stepId (Rewrite.outlines entries) = .none := by
    intro entries present
    rw [settleFailureHandling, Rewrite.contains_outlines, present, if_pos rfl]
  unfold settleFailureHandling
  split
  · exact .inl rfl
  · split
    · exact .inr (settled _ (Entries.contains_put_same ..))
    · refine .inr (settled _ ?_)
      change Entries.contains _ (Entries.put _ _ (Entries.put _ _ properties)) = true
      rw [Entries.contains_put_other _ _ (by decide), Entries.contains_put_same]

theorem settles_readPriority : readPriority.Settles := by
  intro stepId properties amendment asked
  unfold readPriority at asked
  split at asked
  · rename_i written _
    split at asked
    · cases number : Digits.readSigned written.toList with
      | error fault =>
          rw [number] at asked
          cases asked
      | ok priority =>
          rw [number] at asked
          cases asked
          right
          have read : Entries.lookup (.text "priority") (Rewrite.outlines
              (Entries.put (.text "priority") (.int priority) properties)) =
                some (.scalar (.int priority)) := by
            rw [Rewrite.outlines, Entries.lookup_mapValues, Entries.lookup_put_same]
            rfl
          change readPriority stepId (Rewrite.outlines
            (Entries.put (.text "priority") (.int priority) properties)) = _
          rw [readPriority, read]
    · cases asked
      exact .inl rfl
  · cases asked
    exact .inl rfl

end Chain

namespace Service

private theorem mem_intercalate {char : Char} {separator part : List Char}
    {parts : List (List Char)} (member : part ∈ parts) (inside : char ∈ part) :
    char ∈ separator.intercalate parts := by
  induction parts with
  | nil => cases member
  | cons first rest ih =>
      cases rest with
      | nil =>
          rw [List.mem_singleton] at member
          rwa [List.intercalate_singleton, ← member]
      | cons second others =>
          rw [List.intercalate_cons_cons]
          rcases List.mem_cons.mp member with rfl | later
          · exact List.mem_append_left _ (List.mem_append_left _ inside)
          · exact List.mem_append_right _ (ih later)

/-- What is joined with a part that is not blank is not blank. -/
theorem isBlank_intercalate {separator part : String} {parts : List String}
    (member : part ∈ parts) (visible : Text.isBlank part = false) :
    Text.isBlank (separator.intercalate parts) = false := by
  obtain ⟨char, inside, printed⟩ := List.all_eq_false.mp visible
  refine List.all_eq_false.mpr ⟨char, ?_, printed⟩
  rw [String.toList_intercalate]
  exact mem_intercalate (List.mem_map_of_mem member) inside

/-- A name that is made for an operation is not blank, unless it is empty. -/
theorem isBlank_operationName {operation : Entries Outline} {name : String}
    (made : operationName operation = .ok name) (filled : name.isEmpty = false) :
    Text.isBlank name = false := by
  obtain ⟨texts, _, joined⟩ := Outcome.bind_eq_ok_iff.mp made
  cases joined
  cases parts : texts.filter fun part => !Text.isBlank part with
  | nil =>
      rw [parts] at filled
      cases filled
  | cons first rest =>
      have kept : first ∈ texts.filter fun part => !Text.isBlank part := by
        rw [parts]
        exact .head _
      exact isBlank_intercalate (.head _) (by simpa using (List.mem_filter.mp kept).2)

private theorem nameOperation_of_name {operation : Entries Outline} {name : String}
    (stepId : String) (named : Outline.textAt "name" operation = .ok name)
    (visible : Text.isBlank name = false) : nameOperation stepId operation = .ok .none := by
  rw [nameOperation, named]
  simp [bind, Except.bind, visible]
  rfl

theorem settles_nameOperation : nameOperation.Settles := by
  intro stepId operation amendment asked
  rcases edits_nameOperation asked with rfl | ⟨name, made, filled, edits⟩
  · exact .inl rfl
  · have named : Outline.textAt "name" (Rewrite.outlines (amendment.apply operation)) =
        .ok name := by
      rw [Amendment.apply, edits, List.foldl_cons, List.foldl_nil, Edit.apply, Outline.textAt,
        Rewrite.outlines, Entries.lookup_mapValues, Entries.lookup_put_same]
      rfl
    exact .inr (nameOperation_of_name stepId named (isBlank_operationName made filled))

end Service

/-- Where a rule settles what it amends, a second application changes nothing. -/
theorem FallibleRule.Settles.thisObject {rule : FallibleRule} (settles : rule.Settles)
    {stepId : String} {value treated : Value}
    (treats : (Rewrite.thisObject (rule stepId) value).outcome = .ok treated) :
    (Rewrite.thisObject (rule stepId) treated).outcome = .ok treated := by
  cases value with
  | scalar value =>
      cases treats
      rfl
  | array items =>
      cases treats
      rfl
  | object entries =>
      obtain ⟨amendment, asked, rfl⟩ := Rewrite.thisObject_eq_ok_iff.mp treats
      obtain ⟨again, askedAgain, unchanged⟩ := settles.again asked
      exact Rewrite.thisObject_eq_ok_iff.mpr ⟨again, askedAgain, by rw [unchanged]⟩

/-!
## Rules of walks
-/

/-- All rules of a walk over properties settle what they amend. -/
def PropertyRules.Settle (ruleOf : String → Option FallibleRule) : Prop :=
  ∀ elementType rule, ruleOf elementType = some rule → FallibleRule.Settles rule

/-- No type has a rule of both walks. -/
def PropertyRules.Disjoint (first second : String → Option FallibleRule) : Prop :=
  ∀ elementType, first elementType = none ∨ second elementType = none

theorem PropertyRules.Disjoint.symm {first second : String → Option FallibleRule}
    (disjoint : Disjoint first second) : Disjoint second first :=
  fun elementType => (disjoint elementType).symm

namespace Rewrite

theorem leaves_of_settle {ruleOf : String → Option FallibleRule} (stepId : String)
    (settle : PropertyRules.Settle ruleOf) : Leaves False ruleOf stepId ruleOf stepId := by
  intro elementType properties amendment asked _
  unfold Quiet
  unfold amendmentFor at asked ⊢
  split at asked
  · rename_i rule chosen
    exact (settle elementType rule chosen).again asked
  · exact ⟨.none, rfl, rfl⟩

theorem leaves_of_disjoint {first second : String → Option FallibleRule}
    (firstId secondId : String) (disjoint : PropertyRules.Disjoint first second) :
    Leaves True first firstId second secondId := by
  intro elementType properties amendment asked quiet
  rcases disjoint elementType with none | none
  · exact ⟨.none, by rw [amendmentFor, none], rfl⟩
  · rw [amendmentFor, none] at asked
    cases asked
    exact quiet trivial

end Rewrite

namespace Chain

theorem settle_propertyRules102 : PropertyRules.Settle propertyRules102 :=
  fun _ _ chosen => forall_propertyRules102 (FallibleRule.settles_drop _ _)
    settles_settleFailureHandling settles_readPriority (FallibleRule.settles_drop _ _) chosen

theorem settle_propertyRules103 : PropertyRules.Settle propertyRules103 :=
  fun _ _ chosen => forall_propertyRules103 (FallibleRule.settles_drop _ _)
    (FallibleRule.settles_drop _ _) chosen

theorem disjoint_propertyRules : PropertyRules.Disjoint propertyRules102 propertyRules103 := by
  intro elementType
  unfold propertyRules103
  split
  · rename_i loop
    left
    rw [loop]
    rfl
  · split
    · rename_i trigger
      left
      rw [trigger]
      rfl
    · exact .inr rfl

end Chain

/-!
## Steps
-/

namespace Blueprint

variable {fields : FieldNames} {blueprint : Blueprint} {text : String} {document migrated : Value}

/-- The treatments of a blueprint, one after the other, make a document of another. -/
abbrev Migrates (fields : FieldNames) (blueprint : Blueprint) (document migrated : Value) : Prop :=
  (blueprint.treatments.foldlM (fun current treatment =>
    Rewrite.onTree fields blueprint.stepId treatment current) document).outcome = .ok migrated

/-- A blueprint has nothing to do on a document. -/
abbrev Settled (fields : FieldNames) (blueprint : Blueprint) (document : Value) : Prop :=
  blueprint.Migrates fields document document

theorem apply_eq_ok_iff {context : Context} :
    ((blueprint.toStep (Rewrite.onTree fields)).apply context document).outcome = .ok migrated ↔
      blueprint.Migrates fields document migrated :=
  Iff.rfl

theorem migrates_single {treatment : Treatment} (single : blueprint.treatments = [treatment]) :
    blueprint.Migrates fields document migrated ↔
      (Rewrite.onTree fields blueprint.stepId treatment document).outcome = .ok migrated := by
  rw [Migrates, single, List.foldlM_cons, Logged.bind_outcome_ok]
  simp

private theorem foldlM_put {stepId : String} {treatments : List Treatment}
    (apart : Marker.Apart fields) (inside : ∀ treatment ∈ treatments, treatment.StaysInContent)
    (migrates : (treatments.foldlM (fun current treatment =>
      Rewrite.onTree fields stepId treatment current) document).outcome = .ok migrated) :
    (treatments.foldlM (fun current treatment =>
      Rewrite.onTree fields stepId treatment current) (Marker.put fields text document)).outcome =
        .ok (Marker.put fields text migrated) := by
  induction treatments generalizing document with
  | nil =>
      cases migrates
      rfl
  | cons treatment rest ih =>
      obtain ⟨first, others⟩ := List.forall_mem_cons.mp inside
      rw [List.foldlM_cons, Logged.bind_outcome_ok] at migrates ⊢
      obtain ⟨treated, treating, later⟩ := migrates
      exact ⟨_, Marker.onTree_put apart first treating, ih others later⟩

/-- A blueprint of treatments of the content does the same to a document whether it is marked or
not. -/
theorem Migrates.put (apart : Marker.Apart fields)
    (inside : ∀ treatment ∈ blueprint.treatments, treatment.StaysInContent)
    (migrates : blueprint.Migrates fields document migrated) :
    blueprint.Migrates fields (Marker.put fields text document)
      (Marker.put fields text migrated) :=
  foldlM_put apart inside migrates

end Blueprint

namespace Family

variable {family : Family} {fields : FieldNames} {blueprint later : Blueprint}
  {document migrated : Value}

/-- The steps behind the first version. -/
theorem mem_behind_first (known : blueprint ∈ family.blueprints)
    (behind : 101 < blueprint.version) :
    (family = chain ∧ blueprint = Chain.v102) ∨ (family = chain ∧ blueprint = Chain.v103) ∨
      (family = service ∧ blueprint = Service.v102) := by
  cases family with
  | chain =>
      simp only [blueprints, Chain.blueprints, List.mem_cons, List.not_mem_nil, or_false] at known
      rcases known with rfl | rfl | rfl
      · exact absurd behind (by decide)
      · exact .inl ⟨rfl, rfl⟩
      · exact .inr (.inl ⟨rfl, rfl⟩)
  | service =>
      simp only [blueprints, Service.blueprints, List.mem_cons, List.not_mem_nil, or_false] at known
      rcases known with rfl | rfl
      · exact absurd behind (by decide)
      · exact .inr (.inr ⟨rfl, rfl⟩)

/-- Behind the first version the steps of the families treat the content alone. -/
theorem staysInContent (known : blueprint ∈ family.blueprints) (behind : 101 < blueprint.version) :
    ∀ treatment ∈ blueprint.treatments, treatment.StaysInContent := by
  rcases mem_behind_first known behind with ⟨_, rfl⟩ | ⟨_, rfl⟩ | ⟨_, rfl⟩ <;>
    exact List.forall_mem_singleton.mpr trivial

private theorem settled_of_properties {ruleOf : String → Option FallibleRule}
    (single : blueprint.treatments = [.elementProperties ruleOf])
    (settle : PropertyRules.Settle ruleOf)
    (migrates : blueprint.Migrates fields document migrated) :
    blueprint.Settled fields migrated := by
  rw [Blueprint.migrates_single single] at migrates
  rw [Blueprint.Settled, Blueprint.migrates_single single]
  refine Rewrite.overElements_settled (fun found changed _ walks => ?_) False.elim migrates
  exact (Rewrite.settled_of_walks (Rewrite.leaves_of_settle _ settle) found).2 changed
    False.elim walks

private theorem settled_of_operations {rule : FallibleRule}
    (single : blueprint.treatments = [.eachOperation rule]) (settles : rule.Settles)
    (migrates : blueprint.Migrates fields document migrated) :
    blueprint.Settled fields migrated := by
  rw [Blueprint.migrates_single single] at migrates
  rw [Blueprint.Settled, Blueprint.migrates_single single]
  refine Rewrite.overOperations_settled (fun items changed treated => ?_) migrates
  rw [Rewrite.walkItems_eq_ok_iff] at treated ⊢
  exact Rewrite.forall₂_image treated fun item _ other treats => settles.thisObject treats

/-- Behind the first version no step has anything left to do on what it gave. -/
theorem settled_of_migrates (known : blueprint ∈ family.blueprints)
    (behind : 101 < blueprint.version) (migrates : blueprint.Migrates fields document migrated) :
    blueprint.Settled fields migrated := by
  rcases mem_behind_first known behind with ⟨_, rfl⟩ | ⟨_, rfl⟩ | ⟨_, rfl⟩
  · exact settled_of_properties rfl Chain.settle_propertyRules102 migrates
  · exact settled_of_properties rfl Chain.settle_propertyRules103 migrates
  · exact settled_of_operations rfl Service.settles_nameOperation migrates

private theorem settled_of_disjoint {first second : String → Option FallibleRule}
    (single : blueprint.treatments = [.elementProperties first])
    (laterSingle : later.treatments = [.elementProperties second])
    (disjoint : PropertyRules.Disjoint first second) (settled : blueprint.Settled fields document)
    (migrates : later.Migrates fields document migrated) : blueprint.Settled fields migrated := by
  rw [Blueprint.migrates_single laterSingle] at migrates
  rw [Blueprint.Settled, Blueprint.migrates_single single] at settled ⊢
  refine Rewrite.overElements_settled (fun found changed known walks => ?_)
    (fun _ : True => settled) migrates
  exact (Rewrite.settled_of_walks (Rewrite.leaves_of_disjoint _ _ disjoint) found).2 changed
    known walks

/-- What an earlier step settled, a later one leaves settled. -/
theorem settled_of_later (known : blueprint ∈ family.blueprints)
    (laterKnown : later ∈ family.blueprints) (behind : 101 < blueprint.version)
    (order : blueprint.version < later.version) (settled : blueprint.Settled fields document)
    (migrates : later.Migrates fields document migrated) : blueprint.Settled fields migrated := by
  rcases mem_behind_first known behind with ⟨rfl, rfl⟩ | ⟨rfl, rfl⟩ | ⟨rfl, rfl⟩ <;>
    rcases mem_behind_first laterKnown (Int.lt_trans behind order) with
      ⟨same, rfl⟩ | ⟨same, rfl⟩ | ⟨same, rfl⟩ <;>
    first
      | exact absurd order (by decide)
      | exact settled_of_disjoint rfl rfl Chain.disjoint_propertyRules settled migrates
      | cases same

end Family

end Uplift
