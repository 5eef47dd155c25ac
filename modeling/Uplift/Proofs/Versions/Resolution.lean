import Uplift.Proofs.Journal
import Uplift.Proofs.Outcome
import Uplift.Proofs.Versions.Consultation
import Uplift.Versions.Resolution

/-!
# What the standard strategies find

Under the standard strategies a single entry of a document decides what it declares: the migrations
field of the content, or else that of the root, or else the version field of the root. The first of
them that is there is read, and no other entry has a part in the outcome.
-/

set_option autoImplicit false

namespace Uplift

/-- The entry that decides what a document declares, with the value it holds. -/
inductive Declaring where
  | contentList (raw : Value)
  | rootList (raw : Value)
  | rootBound (raw : Value)

namespace Declaring

def inRoot? (fields : FieldNames) (entries : Entries Value) : Option Declaring :=
  match entries.lookup (.text fields.migrations) with
  | some raw => some (.rootList raw)
  | none => (entries.lookup (.text fields.version)).map .rootBound

/-- The entry that decides, if a document has one. -/
def find? (fields : FieldNames) (entries : Entries Value) : Option Declaring :=
  match entries.lookup (.text fields.content) with
  | some (.object content) =>
      match Entries.lookup (.text fields.migrations) content with
      | some raw => some (.contentList raw)
      | none => inRoot? fields entries
  | _ => inRoot? fields entries

/-- What the deciding entry declares, if it can be read. -/
def read (fields : FieldNames) : Declaring → Except VersionError Satisfied
  | contentList raw =>
      (Listing.parse fields.migrations raw).map fun versions =>
        ⟨.explicit versions, Strategy.nestedName ++ "/" ++ Strategy.explicitName⟩
  | rootList raw =>
      (Listing.parse fields.migrations raw).map fun versions =>
        ⟨.explicit versions, Strategy.explicitName⟩
  | rootBound raw =>
      (Strategy.readBound fields.version raw).map fun bound => ⟨.legacy bound, Strategy.legacyName⟩

end Declaring

/-- The content of a document is an object with this value under the migrations field. -/
def InContent (fields : FieldNames) (entries : Entries Value) (raw : Value) : Prop :=
  ∃ content : Entries Value, entries.lookup (.text fields.content) = some (.object content) ∧
    content.lookup (.text fields.migrations) = some raw

/-- The entry of a document that decides, if there is one. -/
inductive Decides (fields : FieldNames) (entries : Entries Value) : Option Declaring → Prop where
  | contentList {raw : Value} :
      InContent fields entries raw → Decides fields entries (some (.contentList raw))
  | rootList {raw : Value} :
      (∀ other, ¬ InContent fields entries other) →
      entries.lookup (.text fields.migrations) = some raw →
      Decides fields entries (some (.rootList raw))
  | rootBound {raw : Value} :
      (∀ other, ¬ InContent fields entries other) →
      entries.lookup (.text fields.migrations) = none →
      entries.lookup (.text fields.version) = some raw →
      Decides fields entries (some (.rootBound raw))
  | nothing :
      (∀ other, ¬ InContent fields entries other) →
      entries.lookup (.text fields.migrations) = none →
      entries.lookup (.text fields.version) = none → Decides fields entries none

def VersionError.failure (subject : Subject) : VersionError → Failure
  | malformed field raw token hint => .migration (.malformed field raw token hint subject)
  | fault cause => .untyped cause

namespace Resolution

variable {subject : Subject} {document : Value} {strategy : Strategy} {rest : List Strategy}

/-- A strategy that does not abstain ends the resolution, whatever strategies follow. -/
theorem ask_outcome_of_found {found : Except VersionError Satisfied}
    (attempted : strategy.attempt document = found.map some) :
    (ask subject document (strategy :: rest)).outcome =
      (found.mapError (VersionError.failure subject)).map some := by
  cases found with
  | error error =>
      have failed : strategy.attempt document = .error error := attempted
      cases error with
      | malformed field raw token hint =>
          simp only [ask, failed]
          rw [Logged.bind_outcome_of_ok _ (Logged.note_outcome _)]
          rfl
      | fault cause =>
          simp only [ask, failed]
          rfl
  | ok satisfied =>
      have succeeded : strategy.attempt document = .ok (some satisfied) := attempted
      simp only [ask, succeeded]
      rw [Logged.bind_outcome_of_ok _ (Logged.note_outcome _),
        Logged.bind_outcome_of_ok _ (Logged.note_outcome _)]
      rfl

theorem attempt_explicitList (field name : String) (entries : Entries Value) :
    (Strategy.explicitList field name).attempt (.object entries) =
      match entries.lookup (.text field) with
      | none => .ok none
      | some raw => ((Listing.parse field raw).map fun versions =>
          (⟨.explicit versions, name⟩ : Satisfied)).map some := by
  simp only [Strategy.attempt, Strategy.fieldOf]
  cases entries.lookup (.text field) with
  | none => rfl
  | some raw =>
      cases parsed : Listing.parse field raw <;> simp [bind, Except.bind, parsed,
        Except.map, pure, Except.pure]

theorem attempt_legacyScalar (field name : String) (entries : Entries Value) :
    (Strategy.legacyScalar field name).attempt (.object entries) =
      match entries.lookup (.text field) with
      | none => .ok none
      | some raw => ((Strategy.readBound field raw).map fun bound =>
          (⟨.legacy bound, name⟩ : Satisfied)).map some := by
  simp only [Strategy.attempt, Strategy.fieldOf]
  cases entries.lookup (.text field) with
  | none => rfl
  | some raw =>
      cases parsed : Strategy.readBound field raw <;> simp [bind, Except.bind,
        parsed, Except.map, pure, Except.pure]

/-- The list in the content decides where the content is an object that has one. -/
theorem attempt_nestedContent (field contentField inner name : String)
    (entries : Entries Value) :
    (Strategy.nestedContent (.explicitList field inner) contentField name).attempt
        (.object entries) =
      match entries.lookup (.text contentField) with
      | some (.object content) =>
          match Entries.lookup (.text field) content with
          | none => .ok none
          | some raw => ((Listing.parse field raw).map fun versions =>
              (⟨.explicit versions, name ++ "/" ++ inner⟩ : Satisfied)).map some
      | _ => .ok none := by
  rw [Strategy.attempt]
  cases entries.lookup (.text contentField) with
  | none => rfl
  | some found =>
      cases found with
      | scalar value => rfl
      | array items => rfl
      | object content =>
          simp only [attempt_explicitList]
          cases Entries.lookup (.text field) content with
          | none => rfl
          | some raw => cases parsed : Listing.parse field raw <;> simp [Except.map, parsed]

end Resolution

/-!
## The deciding entry
-/

section

variable {fields : FieldNames} {entries : Entries Value} {found : Option Declaring}

theorem exists_decides (fields : FieldNames) (entries : Entries Value) :
    ∃ found, Decides fields entries found := by
  by_cases inContent : ∃ raw, InContent fields entries raw
  · obtain ⟨raw, listed⟩ := inContent
    exact ⟨_, .contentList listed⟩
  · rw [not_exists] at inContent
    cases listed : entries.lookup (.text fields.migrations) with
    | some raw => exact ⟨_, .rootList inContent listed⟩
    | none =>
        cases bounded : entries.lookup (.text fields.version) with
        | some raw => exact ⟨_, .rootBound inContent listed bounded⟩
        | none => exact ⟨_, .nothing inContent listed bounded⟩

private theorem find?_of_not_inContent (absent : ∀ raw, ¬ InContent fields entries raw) :
    Declaring.find? fields entries = Declaring.inRoot? fields entries := by
  unfold Declaring.find?
  split
  · rename_i content contentFound
    split
    · rename_i raw listed
      exact absurd ⟨content, contentFound, listed⟩ (absent raw)
    · rfl
  · rfl

theorem Decides.find?_eq (decides : Decides fields entries found) :
    Declaring.find? fields entries = found := by
  cases decides with
  | contentList inContent =>
      obtain ⟨content, contentFound, listed⟩ := inContent
      simp [Declaring.find?, contentFound, listed]
  | rootList absent listed => simp [find?_of_not_inContent absent, Declaring.inRoot?, listed]
  | rootBound absent unlisted bounded =>
      simp [find?_of_not_inContent absent, Declaring.inRoot?, unlisted, bounded]
  | nothing absent unlisted unbounded =>
      simp [find?_of_not_inContent absent, Declaring.inRoot?, unlisted, unbounded]

/-!
## Consultation of the strategies
-/

namespace Declaring

/-- The strategy that reads a deciding entry. -/
def strategy (fields : FieldNames) : Declaring → Strategy
  | contentList _ =>
      .nestedContent (.explicitList fields.migrations Strategy.explicitName) fields.content
        Strategy.nestedName
  | rootList _ => .explicitList fields.migrations Strategy.explicitName
  | rootBound _ => .legacyScalar fields.version Strategy.legacyName

/-- The strategies that are asked before it. -/
def passed (fields : FieldNames) : Declaring → List Strategy
  | contentList _ => []
  | rootList raw => [(contentList raw).strategy fields]
  | rootBound raw => [(contentList raw).strategy fields, (rootList raw).strategy fields]

end Declaring

private theorem attempt_content_of_absent (absent : ∀ raw, ¬ InContent fields entries raw)
    (raw : Value) :
    ((Declaring.contentList raw).strategy fields).attempt (.object entries) = .ok none := by
  rw [Declaring.strategy, Resolution.attempt_nestedContent]
  split
  · rename_i content contentFound
    split
    · rfl
    · rename_i raw listed
      exact absurd ⟨content, contentFound, listed⟩ (absent raw)
  · rfl

private theorem attempt_root_of_absent (absent : entries.lookup (.text fields.migrations) = none)
    (raw : Value) :
    ((Declaring.rootList raw).strategy fields).attempt (.object entries) = .ok none := by
  rw [Declaring.strategy, Resolution.attempt_explicitList, absent]

theorem Decides.consults {place : Declaring} (decides : Decides fields entries (some place)) :
    Resolution.Consults (.object entries) (Strategy.standard fields) (place.passed fields)
      (place.strategy fields) := by
  cases decides with
  | contentList => exact ⟨⟨_, rfl⟩, nofun⟩
  | rootList absent =>
      exact ⟨⟨_, rfl⟩, List.forall_mem_singleton.mpr (attempt_content_of_absent absent _)⟩
  | rootBound absent unlisted =>
      exact ⟨⟨_, rfl⟩, List.forall_mem_cons.mpr ⟨attempt_content_of_absent absent _,
        List.forall_mem_singleton.mpr (attempt_root_of_absent unlisted _)⟩⟩

theorem Decides.attempt_eq {place : Declaring} (decides : Decides fields entries (some place)) :
    (place.strategy fields).attempt (.object entries) = (place.read fields).map some := by
  cases decides with
  | contentList inContent =>
      obtain ⟨content, contentFound, listed⟩ := inContent
      simp only [Declaring.strategy, Resolution.attempt_nestedContent, contentFound, listed]
      rfl
  | rootList _ listed =>
      simp only [Declaring.strategy, Resolution.attempt_explicitList, listed]
      rfl
  | rootBound _ _ bounded =>
      simp only [Declaring.strategy, Resolution.attempt_legacyScalar, bounded]
      rfl

theorem Decides.abstain (decides : Decides fields entries none) :
    Resolution.Abstain (.object entries) (Strategy.standard fields) := by
  cases decides with
  | nothing absent unlisted unbounded =>
      refine List.forall_mem_cons.mpr ⟨attempt_content_of_absent absent .null,
        List.forall_mem_cons.mpr ⟨attempt_root_of_absent unlisted .null,
          List.forall_mem_singleton.mpr ?_⟩⟩
      rw [Resolution.attempt_legacyScalar, unbounded]

end

namespace Resolution

variable {subject : Subject} {document : Value} {strategies before : List Strategy}
  {strategy : Strategy}

/-- The notes of a strategy that does not abstain. -/
def answer (strategy : Strategy) : Except VersionError Satisfied → Journal
  | .ok satisfied => [attempted strategy false, resolved satisfied]
  | .error (.malformed field _ _ _) => [unreadable strategy field]
  | .error (.fault _) => []

theorem resolve_of_consults (family : String) {found : Except VersionError Satisfied}
    (consults : Consults document strategies before strategy)
    (attempt : strategy.attempt document = found.map some) :
    resolve family strategies subject document =
      ⟨abstentions before ++ answer strategy found,
        found.mapError (VersionError.failure subject)⟩ := by
  cases found with
  | ok satisfied => exact resolve_of_finds family (.intro consults attempt)
  | error error =>
      cases error with
      | malformed field raw token hint => exact resolve_of_malformed family consults attempt
      | fault fault =>
          rw [resolve_of_fault family consults attempt, answer, List.append_nil]
          rfl

/-- How a document is resolved in which a given entry decides. -/
def detection (family : String) (fields : FieldNames) (subject : Subject) :
    Option Declaring → Logged Failure Satisfied
  | none => ⟨abstentions (Strategy.standard fields), .error (.migration
      (.unresolved family ((Strategy.standard fields).map Strategy.name) subject))⟩
  | some place => ⟨abstentions (place.passed fields) ++
      answer (place.strategy fields) (place.read fields),
      (place.read fields).mapError (VersionError.failure subject)⟩

theorem resolve_of_decides (family : String) {fields : FieldNames} {entries : Entries Value}
    {found : Option Declaring} (decides : Decides fields entries found) :
    resolve family (Strategy.standard fields) subject (.object entries) =
      detection family fields subject found := by
  cases found with
  | none => exact resolve_of_abstain family decides.abstain
  | some place => exact resolve_of_consults family decides.consults decides.attempt_eq

/-- The resolution of a document gives what its deciding entry declares. -/
theorem resolve_standard_outcome (family : String) (subject : Subject) (fields : FieldNames)
    (entries : Entries Value) :
    (resolve family (Strategy.standard fields) subject (.object entries)).outcome =
      match Declaring.find? fields entries with
      | none => .error (.migration (.unresolved family
          ((Strategy.standard fields).map Strategy.name) subject))
      | some place => (place.read fields).mapError (VersionError.failure subject) := by
  obtain ⟨found, decides⟩ := exists_decides fields entries
  rw [resolve_of_decides family decides, decides.find?_eq]
  cases found with
  | none => rfl
  | some place => rfl

end Resolution

end Uplift
