import Uplift.Proofs.Journal
import Uplift.Versions.Resolution

/-!
# Notes of a resolution

Strategies are asked until one of them does not abstain, and what that one comes to decides. Each
abstention leaves a note, and the deciding strategy leaves its own; strategies behind it leave none.
-/

set_option autoImplicit false

namespace Uplift.Resolution

variable {subject : Subject} {document : Value} {strategies before rest : List Strategy}
  {strategy : Strategy} {satisfied : Satisfied}

/-- The notes of strategies that abstain. -/
def abstentions (strategies : List Strategy) : Journal :=
  strategies.map fun strategy => attempted strategy true

abbrev Abstain (document : Value) (strategies : List Strategy) : Prop :=
  ∀ strategy ∈ strategies, strategy.attempt document = .ok none

/-- Of some strategies one is asked because all before it abstain. -/
structure Consults (document : Value) (strategies before : List Strategy) (strategy : Strategy) :
    Prop where
  place : ∃ rest, strategies = before ++ strategy :: rest
  abstain : Abstain document before

/-- Strategies of which one decides find a declaration, and leave these notes. -/
inductive Finds (document : Value) (strategies : List Strategy) : Satisfied → Journal → Prop where
  | intro {before : List Strategy} {strategy : Strategy} {satisfied : Satisfied} :
      Consults document strategies before strategy →
      strategy.attempt document = .ok (some satisfied) →
      Finds document strategies satisfied
        (abstentions before ++ [attempted strategy false, resolved satisfied])

/-- How the strategies of a family end when they are asked about a document. -/
inductive Ends (document : Value) (strategies : List Strategy) : Prop where
  | abstain : Abstain document strategies → Ends document strategies
  | finds {satisfied : Satisfied} {journal : Journal} :
      Finds document strategies satisfied journal → Ends document strategies
  | malformed {before : List Strategy} {strategy : Strategy} {field hint : String} {raw : Value}
      {token : Option String} : Consults document strategies before strategy →
      strategy.attempt document = .error (.malformed field raw token hint) →
      Ends document strategies
  | fault {before : List Strategy} {strategy : Strategy} {fault : Fault} :
      Consults document strategies before strategy →
      strategy.attempt document = .error (.fault fault) → Ends document strategies

theorem abstain_or_consults (document : Value) (strategies : List Strategy) :
    Abstain document strategies ∨ ∃ before strategy, Consults document strategies before strategy ∧
      strategy.attempt document ≠ .ok none := by
  induction strategies with
  | nil => exact .inl nofun
  | cons first rest ih =>
      by_cases silent : first.attempt document = .ok none
      · rcases ih with all | ⟨before, strategy, ⟨⟨behind, rfl⟩, abstain⟩, speaks⟩
        · exact .inl (List.forall_mem_cons.mpr ⟨silent, all⟩)
        · exact .inr ⟨first :: before, strategy,
            ⟨⟨behind, rfl⟩, List.forall_mem_cons.mpr ⟨silent, abstain⟩⟩, speaks⟩
      · exact .inr ⟨[], first, ⟨⟨rest, rfl⟩, nofun⟩, silent⟩

theorem ends (document : Value) (strategies : List Strategy) : Ends document strategies := by
  rcases abstain_or_consults document strategies with abstain | ⟨before, strategy, consults, speaks⟩
  · exact .abstain abstain
  · cases attempt : strategy.attempt document with
    | error error =>
        cases error with
        | malformed field raw token hint => exact .malformed consults attempt
        | fault fault => exact .fault consults attempt
    | ok found =>
        cases found with
        | none => exact absurd attempt speaks
        | some satisfied => exact .finds (.intro consults attempt)

/-- Abstaining strategies leave their notes, and then the others are asked. -/
theorem ask_append (abstain : Abstain document before) :
    ask subject document (before ++ rest) =
      ⟨abstentions before ++ (ask subject document rest).notes,
        (ask subject document rest).outcome⟩ := by
  induction before with
  | nil => rfl
  | cons first before ih =>
      obtain ⟨silent, others⟩ := List.forall_mem_cons.mp abstain
      rw [List.cons_append, ask, silent]
      dsimp only
      rw [Logged.bind_eq_of_ok _ (Logged.note_outcome _), ih others]
      rfl

theorem ask_of_abstain (abstain : Abstain document strategies) :
    ask subject document strategies = ⟨abstentions strategies, .ok none⟩ := by
  have asked : ask subject document (strategies ++ []) = _ := ask_append abstain
  rw [List.append_nil] at asked
  rw [asked, ask, Logged.pure_notes, List.append_nil]
  rfl

theorem resolve_of_abstain (family : String) (abstain : Abstain document strategies) :
    resolve family strategies subject document =
      ⟨abstentions strategies,
        .error (.migration (.unresolved family (strategies.map Strategy.name) subject))⟩ := by
  rw [resolve, ask_of_abstain abstain, Logged.bind_eq_of_ok _ rfl]
  simp [Logged.fail]

theorem resolve_of_finds (family : String) {journal : Journal}
    (finds : Finds document strategies satisfied journal) :
    resolve family strategies subject document = ⟨journal, .ok satisfied⟩ := by
  cases finds with
  | intro consults found =>
      obtain ⟨⟨rest, rfl⟩, abstain⟩ := consults
      rw [resolve, ask_append abstain, ask, found, Logged.bind_eq_of_ok _ rfl, Logged.pure_notes,
        List.append_nil]
      rfl

theorem resolve_of_malformed (family : String)
    (consults : Consults document strategies before strategy) {field hint : String} {raw : Value}
    {token : Option String}
    (malformed : strategy.attempt document = .error (.malformed field raw token hint)) :
    resolve family strategies subject document =
      ⟨abstentions before ++ [unreadable strategy field],
        .error (.migration (.malformed field raw token hint subject))⟩ := by
  obtain ⟨⟨rest, rfl⟩, abstain⟩ := consults
  rw [resolve, ask_append abstain, ask, malformed, Logged.bind_eq_of_error _ rfl]
  rfl

theorem resolve_of_fault (family : String)
    (consults : Consults document strategies before strategy) {fault : Fault}
    (failed : strategy.attempt document = .error (.fault fault)) :
    resolve family strategies subject document =
      ⟨abstentions before, .error (.untyped fault)⟩ := by
  obtain ⟨⟨rest, rfl⟩, abstain⟩ := consults
  rw [resolve, ask_append abstain, ask, failed, Logged.bind_eq_of_error _ rfl]
  exact congrArg (Logged.mk · _) (List.append_nil _)

theorem finds_of_resolve {family : String}
    (found : (resolve family strategies subject document).outcome = .ok satisfied) :
    ∃ journal, Finds document strategies satisfied journal := by
  cases ends document strategies with
  | abstain abstain =>
      rw [resolve_of_abstain family abstain] at found
      cases found
  | finds finds =>
      rw [resolve_of_finds family finds] at found
      cases found
      exact ⟨_, finds⟩
  | malformed consults malformed =>
      rw [resolve_of_malformed family consults malformed] at found
      cases found
  | fault consults failed =>
      rw [resolve_of_fault family consults failed] at found
      cases found

theorem resolve_ne_newer {family other : String} {unknown : List Int} {latest : Option Int}
    {about : Subject} : (resolve family strategies subject document).outcome ≠
      .error (.migration (.newer other unknown latest about)) := by
  intro newer
  cases ends document strategies with
  | abstain abstain =>
      rw [resolve_of_abstain family abstain] at newer
      cases newer
  | finds finds =>
      rw [resolve_of_finds family finds] at newer
      cases newer
  | malformed consults malformed =>
      rw [resolve_of_malformed family consults malformed] at newer
      cases newer
  | fault consults failed =>
      rw [resolve_of_fault family consults failed] at newer
      cases newer

end Uplift.Resolution
