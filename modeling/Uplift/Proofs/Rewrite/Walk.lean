import Mathlib.Data.List.Forall2
import Uplift.Proofs.Entries.Distinct
import Uplift.Proofs.Journal
import Uplift.Proofs.Rewrite.Properties

/-!
# Walks

A walk succeeds exactly if every visit does, and gives what the visits gave, each in its place.
Entries keep their keys. A treatment of every object walks over the whole tree; of an element a visit
changes the properties, and below it what the children have become.
-/

set_option autoImplicit false

namespace Uplift.Rewrite

/-!
## Visits one after the other
-/

theorem walkItems_eq_ok_iff {visit : Value → Logged Fault Value} {items walked : List Value} :
    (walkItems visit items).outcome = .ok walked ↔
      List.Forall₂ (fun item other => (visit item).outcome = .ok other) items walked := by
  induction items generalizing walked with
  | nil =>
      rw [walkItems, Logged.pure_outcome, List.forall₂_nil_left_iff, Except.ok.injEq, eq_comm]
  | cons item rest ih =>
      simp only [walkItems, Logged.bind_outcome_ok, Logged.pure_outcome, Except.ok.injEq, ih,
        List.forall₂_cons_left_iff]
      constructor
      · rintro ⟨first, visited, others, walkedRest, rfl⟩
        exact ⟨first, others, visited, walkedRest, rfl⟩
      · rintro ⟨first, others, visited, walkedRest, rfl⟩
        exact ⟨first, visited, others, walkedRest, rfl⟩

theorem walkValues_eq_ok_iff {visit : Scalar → Value → Logged Fault Value}
    {entries walked : List (Scalar × Value)} :
    (walkValues visit entries).outcome = .ok walked ↔
      List.Forall₂ (fun entry other =>
        entry.1 = other.1 ∧ (visit entry.1 entry.2).outcome = .ok other.2) entries walked := by
  induction entries generalizing walked with
  | nil =>
      rw [walkValues, Logged.pure_outcome, List.forall₂_nil_left_iff, Except.ok.injEq, eq_comm]
  | cons entry rest ih =>
      obtain ⟨key, value⟩ := entry
      simp only [walkValues, Logged.bind_outcome_ok, Logged.pure_outcome, Except.ok.injEq, ih,
        List.forall₂_cons_left_iff]
      constructor
      · rintro ⟨first, visited, others, walkedRest, rfl⟩
        exact ⟨(key, first), others, ⟨rfl, visited⟩, walkedRest, rfl⟩
      · rintro ⟨⟨_, first⟩, others, ⟨rfl, visited⟩, walkedRest, rfl⟩
        exact ⟨first, visited, others, walkedRest, rfl⟩

/-!
## Every object of a tree
-/

section Objects

variable {rule : Entries Outline → Except Fault Amendment}

/-- A treatment of every object succeeds and gives a value for the tree. -/
abbrev Treats (rule : Entries Outline → Except Fault Amendment) (value treated : Value) : Prop :=
  (everyObject rule value).outcome = .ok treated

theorem ask_eq_ok_iff {entries : Entries Value} {amendment : Amendment} :
    (ask rule entries).outcome = .ok amendment ↔ rule (outlines entries) = .ok amendment := by
  unfold ask noteAll
  cases rule (outlines entries) <;> rfl

theorem everyObjectItems_eq (items : List Value) :
    everyObjectItems rule items = walkItems (everyObject rule) items := by
  induction items with
  | nil => rfl
  | cons item rest ih =>
      rw [everyObjectItems, ih]
      rfl

theorem everyObjectEntries_eq (entries : List (Scalar × Value)) :
    everyObjectEntries rule entries = walkValues (fun _ => everyObject rule) entries := by
  induction entries with
  | nil => rfl
  | cons entry rest ih =>
      rw [everyObjectEntries, ih]
      rfl

theorem treats_array_iff {items : List Value} {treated : Value} :
    Treats rule (.array items) treated ↔
      ∃ others, List.Forall₂ (Treats rule) items others ∧ treated = .array others := by
  rw [Treats, everyObject, Logged.bind_outcome_ok]
  simp only [everyObjectItems_eq, walkItems_eq_ok_iff, Logged.pure_outcome, Except.ok.injEq,
    @eq_comm _ treated]

theorem treats_object_iff {entries : List (Scalar × Value)} {treated : Value} :
    Treats rule (.object entries) treated ↔
      ∃ amendment below, rule (outlines entries) = .ok amendment ∧
        List.Forall₂ (fun entry other => entry.1 = other.1 ∧ Treats rule entry.2 other.2)
          entries below ∧
            treated = .object (amendment.apply below) := by
  rw [Treats, everyObject]
  simp only [Logged.bind_outcome_ok, ask_eq_ok_iff, everyObjectEntries_eq, walkValues_eq_ok_iff,
    Logged.pure_outcome, Except.ok.injEq, @eq_comm _ treated]
  constructor
  · intro phases
    obtain ⟨amendment, asked, below, treats, same⟩ := phases
    exact ⟨amendment, below, asked, treats, same⟩
  · intro parts
    obtain ⟨amendment, below, asked, treats, same⟩ := parts
    exact ⟨amendment, asked, below, treats, same⟩

theorem thisObject_eq_ok_iff {entries : Entries Value} {treated : Value} :
    (thisObject rule (.object entries)).outcome = .ok treated ↔
      ∃ amendment, rule (outlines entries) = .ok amendment ∧
        treated = .object (amendment.apply entries) := by
  rw [thisObject, Logged.bind_outcome_ok]
  simp only [ask_eq_ok_iff, Logged.pure_outcome, Except.ok.injEq, @eq_comm _ treated]

end Objects

/-!
## Elements
-/

variable {ruleOf : String → Option FallibleRule} {stepId : String}

/-- A visit of an element succeeds and gives a value for it. -/
abbrev Visits (ruleOf : String → Option FallibleRule) (stepId : String)
    (value visited : Value) : Prop :=
  (element ruleOf stepId value).outcome = .ok visited

/-- A walk over what lies directly below a value succeeds and gives a value for the whole. -/
abbrev Walks (ruleOf : String → Option FallibleRule) (stepId : String)
    (value walked : Value) : Prop :=
  (elements ruleOf stepId value).outcome = .ok walked

/-- The value of an entry below an element is walked over if the entry holds the children, and stays
if not. -/
def walkEntry (ruleOf : String → Option FallibleRule) (stepId : String) (key : Scalar)
    (value : Value) : Logged Fault Value :=
  if key.sameKey (.text Treatment.childrenField) then elements ruleOf stepId value else pure value

/-- The walk below an element succeeds on an entry and gives an entry for it. -/
def WalksEntry (ruleOf : String → Option FallibleRule) (stepId : String)
    (entry walked : Scalar × Value) : Prop :=
  entry.1 = walked.1 ∧ (walkEntry ruleOf stepId entry.1 entry.2).outcome = .ok walked.2

theorem elementValues_eq (entries : List (Scalar × Value)) :
    elementValues ruleOf stepId entries =
      walkValues (fun _ => element ruleOf stepId) entries := by
  induction entries with
  | nil => rfl
  | cons entry rest ih =>
      rw [elementValues, ih]
      rfl

theorem elementEntries_eq (entries : List (Scalar × Value)) :
    elementEntries ruleOf stepId entries = walkValues (walkEntry ruleOf stepId) entries := by
  induction entries with
  | nil => rfl
  | cons entry rest ih =>
      rw [elementEntries, ih, walkValues, walkEntry]
      split <;> rfl

theorem elementItems_eq (items : List Value) :
    elementItems ruleOf stepId items = walkItems (element ruleOf stepId) items := by
  induction items with
  | nil => rfl
  | cons item rest ih =>
      rw [elementItems, ih]
      rfl

theorem elementItems_eq_ok_iff {items walked : List Value} :
    (elementItems ruleOf stepId items).outcome = .ok walked ↔
      List.Forall₂ (Visits ruleOf stepId) items walked := by
  rw [elementItems_eq]
  exact walkItems_eq_ok_iff

theorem elementValues_eq_ok_iff {entries walked : List (Scalar × Value)} :
    (elementValues ruleOf stepId entries).outcome = .ok walked ↔
      List.Forall₂ (fun entry other => entry.1 = other.1 ∧ Visits ruleOf stepId entry.2 other.2)
        entries walked := by
  rw [elementValues_eq]
  exact walkValues_eq_ok_iff

theorem elementEntries_eq_ok_iff {entries walked : List (Scalar × Value)} :
    (elementEntries ruleOf stepId entries).outcome = .ok walked ↔
      List.Forall₂ (WalksEntry ruleOf stepId) entries walked := by
  rw [elementEntries_eq]
  exact walkValues_eq_ok_iff

theorem visits_object_iff {entries : List (Scalar × Value)} {visited : Value} :
    Visits ruleOf stepId (.object entries) visited ↔
      isVisitable entries = true ∧
        ∃ amendment walked,
          propertiesAmendment ruleOf (elementType entries) stepId entries = .ok amendment ∧
            List.Forall₂ (WalksEntry ruleOf stepId) entries walked ∧
              visited = .object (amendProperties amendment walked) := by
  rw [Visits, element, read_outlines]
  simp only [Logged.bind_outcome_ok, Logged.ofExcept_outcome, answerIf_eq_ok_iff,
    Logged.note_outcome, elementEntries_eq_ok_iff, Logged.pure_outcome, Except.ok.injEq]
  constructor
  · rintro ⟨_, ⟨visitable, rfl⟩, _, _, amendment, amended, _, _, walked, below, rfl⟩
    exact ⟨visitable, amendment, walked, amended, below, rfl⟩
  · rintro ⟨visitable, amendment, walked, amended, below, rfl⟩
    exact ⟨_, ⟨visitable, rfl⟩, (), trivial, amendment, amended, (), rfl, walked, below, rfl⟩

theorem walks_array_iff {items : List Value} {walked : Value} :
    Walks ruleOf stepId (.array items) walked ↔
      ∃ visited, List.Forall₂ (Visits ruleOf stepId) items visited ∧ walked = .array visited := by
  rw [Walks, elements, Logged.bind_outcome_ok]
  simp only [elementItems_eq_ok_iff, Logged.pure_outcome, Except.ok.injEq, @eq_comm _ walked]

theorem walks_object_iff {entries : List (Scalar × Value)} {walked : Value} :
    Walks ruleOf stepId (.object entries) walked ↔
      ∃ visited, List.Forall₂ (fun entry other =>
          entry.1 = other.1 ∧ Visits ruleOf stepId entry.2 other.2) entries visited ∧
        walked = .object visited := by
  rw [Walks, elements, Logged.bind_outcome_ok]
  simp only [elementValues_eq_ok_iff, Logged.pure_outcome, Except.ok.injEq,
    @eq_comm _ walked]

theorem walksEntry_iff {entry walked : Scalar × Value} :
    WalksEntry ruleOf stepId entry walked ↔
      entry.1 = walked.1 ∧
        (entry.1.sameKey (.text Treatment.childrenField) = true →
          Walks ruleOf stepId entry.2 walked.2) ∧
        (entry.1.sameKey (.text Treatment.childrenField) = false → entry.2 = walked.2) := by
  unfold WalksEntry walkEntry
  cases entry.1.sameKey (.text Treatment.childrenField) <;> simp

/-- Below an element a walk leaves all but the children as they are. -/
theorem lookup_of_walksEntry {entries walked : Entries Value}
    (below : List.Forall₂ (WalksEntry ruleOf stepId) entries walked) {field : String}
    (other : field ≠ Treatment.childrenField) :
    walked.lookup (.text field) = entries.lookup (.text field) := by
  induction below with
  | nil => rfl
  | @cons entry walkedEntry rest walkedRest walks _ ih =>
      obtain ⟨sameKey, _, kept⟩ := walksEntry_iff.mp walks
      rw [Entries.lookup_cons, Entries.lookup_cons, ih, ← sameKey]
      by_cases found : (Scalar.text field).sameKey entry.1 = true
      · rw [if_pos found, if_pos found, kept]
        rw [Scalar.sameKey_comm, Scalar.sameKey_text_iff] at found
        rw [found]
        simpa using other
      · rw [if_neg found, if_neg found]

end Uplift.Rewrite
