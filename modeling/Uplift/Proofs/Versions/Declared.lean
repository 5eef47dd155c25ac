import Uplift.Proofs.Journal
import Uplift.Proofs.Outcome
import Uplift.Proofs.Versions.Listing
import Uplift.Proofs.Writable
import Uplift.Versions.Resolution

/-!
# Declared versions can be written

Versions that are read from a text have no more digits than are written, and others stand in the
document as integers. So whatever the strategies are, the versions that they find in a document that
can be written can be written again.
-/

set_option autoImplicit false

namespace Uplift

/-- Every version that is declared can be written. -/
def Declaration.Writable (declaration : Declaration) : Prop :=
  ∀ version, declaration.contains version = true → Scalar.isWritable (.int version) = true

namespace Listing

theorem Piece.isWritable_of_version {text : String} {number : Nat}
    (version : Piece.of text = .version number) : Scalar.isWritable (.int number) = true := by
  simp only [Piece.of] at version
  split at version
  · cases version
  · split at version
    · rename_i run
      split at version
      · cases version
      · rename_i short
        have result : Digits.read (Text.trim text).toList = .ok number := by
          rw [Digits.read, if_neg short]
          exact congrArg Except.ok (Piece.version.inj version)
        exact Digits.isWritable_of_read run result
    · cases version

private theorem exists_piece_of_readPieces {field : String} {raw : Value} {pieces : List String}
    {versions : List Int} (result : readPieces field raw pieces = .ok versions) :
    ∀ version ∈ versions, ∃ text, ∃ number : Nat,
      Piece.of text = .version number ∧ version = number := by
  induction pieces generalizing versions with
  | nil =>
      cases result
      exact nofun
  | cons piece rest ih =>
      rw [readPieces_cons] at result
      cases kind : Piece.of piece with
      | nothing =>
          rw [kind] at result
          exact ih result
      | version number =>
          rw [kind] at result
          cases tail : readPieces field raw rest with
          | error error =>
              rw [tail] at result
              cases result
          | ok others =>
              rw [tail] at result
              cases result
              exact List.forall_mem_cons.mpr ⟨⟨piece, number, kind, rfl⟩, ih tail⟩
      | overlong digits =>
          rw [kind] at result
          cases result
      | foreign token =>
          rw [kind] at result
          cases result

/-- Every version that is read stands in a piece of its own. -/
theorem exists_piece_of_parse {field : String} {raw : Value} {versions : List Int}
    (result : parse field raw = .ok versions) :
    ∀ version ∈ versions, ∃ text, ∃ number : Nat,
      Piece.of text = .version number ∧ version = number := by
  unfold parse at result
  split at result
  · cases result
    exact nofun
  · exact exists_piece_of_readPieces result
  · rename_i items
    cases converted : items.mapM (itemPiece field (.array items)) with
    | error error =>
        rw [converted] at result
        cases result
    | ok pieces =>
        rw [converted] at result
        exact exists_piece_of_readPieces result
  · cases result

theorem nonneg_of_parse {field : String} {raw : Value} {versions : List Int}
    (result : parse field raw = .ok versions) : ∀ version ∈ versions, 0 ≤ version := by
  intro version member
  obtain ⟨_, number, _, rfl⟩ := exists_piece_of_parse result version member
  exact Int.natCast_nonneg number

theorem isWritable_of_parse {field : String} {raw : Value} {versions : List Int}
    (result : parse field raw = .ok versions) : isWritable versions = true := by
  rw [isWritable_iff]
  intro version member
  obtain ⟨_, number, read, rfl⟩ := exists_piece_of_parse result version member
  exact Piece.isWritable_of_version read

end Listing

namespace Strategy

theorem isWritable_of_readBound {field : String} {raw : Value} {bound : Int}
    (result : readBound field raw = .ok bound) (writable : raw.isWritable = true) :
    Scalar.isWritable (.int bound) = true := by
  unfold readBound at result
  split at result
  · cases result
    exact Digits.isWritable_zero
  · rw [Value.isWritable_scalar] at writable
    split at result
    · cases result
      exact writable
    · cases result
  · rename_i text
    simp only at result
    split at result
    · rename_i run
      cases digits : Digits.read (Text.trim text).toList with
      | error fault =>
          rw [digits] at result
          cases result
      | ok number =>
          rw [digits] at result
          cases result
          exact Digits.isWritable_of_read run digits
    · cases result
  · cases result

private theorem isWritable_of_fieldOf {field : String} {document raw : Value}
    (found : fieldOf field document = .ok (some raw)) (writable : document.isWritable = true) :
    raw.isWritable = true := by
  unfold fieldOf at found
  split at found
  · exact (Value.isWritable_object_iff.mp writable).lookup (Except.ok.inj found)
  · split at found <;> cases found
  · split at found <;> cases found
  · cases found

private theorem writable_of_legacy {bound : Int}
    (writable : Scalar.isWritable (.int bound) = true) : (Declaration.legacy bound).Writable := by
  intro version declared
  simp only [Declaration.contains, Bool.and_eq_true, decide_eq_true_eq] at declared
  rw [Digits.isWritable_int_iff] at writable ⊢
  have smaller : version.natAbs ≤ bound.natAbs := by
    omega
  exact Nat.lt_of_le_of_lt smaller writable

private theorem writable_of_explicitList {field name : String} {document : Value}
    {satisfied : Satisfied}
    (found : (explicitList field name).attempt document = .ok (some satisfied)) :
    satisfied.declaration.Writable := by
  obtain ⟨value, _, read⟩ := Outcome.bind_eq_ok_iff.mp found
  cases value with
  | none => cases read
  | some raw =>
      obtain ⟨versions, parsed, rest⟩ := Outcome.bind_eq_ok_iff.mp read
      cases rest
      intro version declared
      have listed : version ∈ versions := by
        simpa [Declaration.contains] using declared
      exact Listing.isWritable_iff.mp (Listing.isWritable_of_parse parsed) version listed

private theorem writable_of_legacyScalar {field name : String} {document : Value}
    {satisfied : Satisfied}
    (found : (legacyScalar field name).attempt document = .ok (some satisfied))
    (writable : document.isWritable = true) : satisfied.declaration.Writable := by
  obtain ⟨value, located, read⟩ := Outcome.bind_eq_ok_iff.mp found
  cases value with
  | none => cases read
  | some raw =>
      obtain ⟨bound, parsed, rest⟩ := Outcome.bind_eq_ok_iff.mp read
      cases rest
      have rawWritable := isWritable_of_fieldOf (Outcome.mapError_eq_ok_iff.mp located) writable
      exact writable_of_legacy (isWritable_of_readBound parsed rawWritable)

theorem writable_of_attempt {strategy : Strategy} {document : Value} {satisfied : Satisfied}
    (found : strategy.attempt document = .ok (some satisfied))
    (writable : document.isWritable = true) : satisfied.declaration.Writable := by
  induction strategy generalizing document satisfied with
  | explicitList field name => exact writable_of_explicitList found
  | legacyScalar field name => exact writable_of_legacyScalar found writable
  | nestedContent delegate contentField name ih =>
      cases document with
      | scalar value => cases found
      | array items => cases found
      | object entries =>
          rw [attempt] at found
          split at found
          · rename_i content lookedUp
            cases inner : delegate.attempt (.object content) with
            | error error =>
                rw [inner] at found
                cases found
            | ok value =>
                rw [inner] at found
                cases value with
                | none => cases found
                | some nested =>
                    cases found
                    have contentWritable :=
                      (Value.isWritable_object_iff.mp writable).lookup lookedUp
                    have nestedWritable : nested.declaration.Writable := ih inner contentWritable
                    exact nestedWritable
          · cases found

end Strategy

namespace Resolution

private theorem attempt_of_ask {subject : Subject} {document : Value} {strategies : List Strategy}
    {satisfied : Satisfied}
    (asked : (ask subject document strategies).outcome = .ok (some satisfied)) :
    ∃ strategy ∈ strategies, strategy.attempt document = .ok (some satisfied) := by
  induction strategies with
  | nil => cases asked
  | cons strategy rest ih =>
      rw [ask] at asked
      split at asked
      · cases asked
      · cases asked
      · rename_i abstained
        rw [Logged.bind_outcome_of_ok _ (Logged.note_outcome _)] at asked
        obtain ⟨later, member, found⟩ := ih asked
        exact ⟨later, .tail _ member, found⟩
      · rename_i first found
        cases asked
        exact ⟨strategy, .head _, found⟩

/-- The versions that are declared by a document can be written if the document can. -/
theorem writable_of_resolve {family : String} {strategies : List Strategy} {subject : Subject}
    {document : Value} {satisfied : Satisfied}
    (resolved : (resolve family strategies subject document).outcome = .ok satisfied)
    (writable : document.isWritable = true) : satisfied.declaration.Writable := by
  rw [resolve, Logged.bind_outcome_ok] at resolved
  obtain ⟨found, asked, chosen⟩ := resolved
  cases found with
  | none => cases chosen
  | some declared =>
      cases chosen
      obtain ⟨strategy, _, attempted⟩ := attempt_of_ask asked
      exact Strategy.writable_of_attempt attempted writable

end Resolution

end Uplift
