import Mathlib.Tactic.MkIffOfInductiveProp
import Uplift.Proofs.Rewrite.ContentField
import Uplift.Proofs.Versions.Declared
import Uplift.Proofs.Versions.Marker

/-!
# Written versions are read back

Writing a list of versions forgets their order and their repetitions, and nothing else: the text is
read back as the ascending list of the same versions. A marker is such a text at a place in a
document, and the place where it is written is the one that decides. So a document with a marker
declares the versions of the marker, whatever it declared before.
-/

set_option autoImplicit false

namespace Uplift.Listing

variable {field : String} {versions others ascending : List Int}

/-- A version without a sign that has no more digits than are converted. -/
@[mk_iff]
structure Plain (version : Int) : Prop where
  natural : 0 ≤ version
  short : (Nat.toDigits 10 version.natAbs).length ≤ Fault.digitLimit

instance (version : Int) : Decidable (Plain version) :=
  decidable_of_iff _ (plain_iff version).symm

/-- The same versions in ascending order, each of them once. -/
structure Ascends (versions ascending : List Int) : Prop where
  sorted : ascending.Pairwise (· < ·)
  same : ∀ version, version ∈ ascending ↔ version ∈ versions

theorem ascends_iff : Ascends versions ascending ↔ ascending = Ascending.ofList versions := by
  constructor
  · intro ascends
    exact (Ascending.ofList_eq_of_mem_iff ascends.sorted
      fun version => (ascends.same version).symm).symm
  · rintro rfl
    exact ⟨Ascending.pairwise_ofList versions, fun _ => Ascending.mem_ofList⟩

theorem plain_iff_isWritable {version : Int} :
    Plain version ↔ 0 ≤ version ∧ Scalar.isWritable (.int version) = true := by
  rw [plain_iff, Digits.length_toDigits_le_iff (by decide), Digits.isWritable_int_iff]

theorem plain_of_parse {raw : Value} (parsed : parse field raw = .ok versions) :
    ∀ version ∈ versions, Plain version := by
  intro version member
  exact plain_iff_isWritable.mpr ⟨nonneg_of_parse parsed version member,
    isWritable_iff.mp (isWritable_of_parse parsed) version member⟩

section

variable (plain : ∀ version ∈ versions, Plain version)
include plain

theorem isWritable_of_plain : isWritable versions = true :=
  isWritable_iff.mpr fun version member => (plain_iff_isWritable.mp (plain version member)).2

theorem written_of_plain : written versions = .ok (format versions) := by
  rw [written, if_pos (isWritable_of_plain plain)]

theorem parse_format_of_plain (field : String) :
    parse field (.text (format versions)) = .ok (Ascending.ofList versions) :=
  parse_format field (fun version member => (plain version member).natural)
    (isWritable_of_plain plain)

theorem format_eq_iff (otherPlain : ∀ version ∈ others, Plain version) :
    format versions = format others ↔ ∀ version, version ∈ versions ↔ version ∈ others := by
  constructor
  · intro sameText version
    -- Any field will do: what is read depends on the text alone.
    have sameRead : parse "" (.text (format versions)) = parse "" (.text (format others)) := by
      rw [sameText]
    rw [parse_format_of_plain plain, parse_format_of_plain otherPlain] at sameRead
    rw [← Ascending.mem_ofList, Except.ok.inj sameRead, Ascending.mem_ofList]
  · intro same
    have sameList : Ascending.ofList versions = Ascending.ofList others := by
      apply Ascending.ofList_eq_of_mem_iff (Ascending.pairwise_ofList others)
      simpa only [Ascending.mem_ofList] using same
    rw [format, format, sameList]

theorem written_ofList : written (Ascending.ofList versions) = written versions := by
  have ascendingPlain : ∀ version ∈ Ascending.ofList versions, Plain version :=
    fun version member => plain version (Ascending.mem_ofList.mp member)
  rw [written_of_plain plain, written_of_plain ascendingPlain]
  exact congrArg Except.ok ((format_eq_iff ascendingPlain plain).mpr fun _ => Ascending.mem_ofList)

end

/-- Writing and reading undo each other, as far as the members of a list go. -/
structure Inverse (field : String) : Prop where
  read : ∀ versions, (∀ version ∈ versions, Plain version) → ∃ text ascending,
    written versions = .ok text ∧ parse field (.text text) = .ok ascending ∧
      Ascends versions ascending
  same : ∀ versions others, (∀ version ∈ versions, Plain version) →
    (∀ version ∈ others, Plain version) →
    (written versions = written others ↔ ∀ version, version ∈ versions ↔ version ∈ others)
  again : ∀ raw versions, parse field raw = .ok versions → ∃ text ascending,
    written versions = .ok text ∧ parse field (.text text) = .ok ascending ∧
      written ascending = .ok text

theorem written_inverse (field : String) : Inverse field where
  read versions plain :=
    ⟨format versions, Ascending.ofList versions, written_of_plain plain,
      parse_format_of_plain plain field, ascends_iff.mpr rfl⟩
  same versions others plain otherPlain := by
    rw [written_of_plain plain, written_of_plain otherPlain, Except.ok.injEq]
    exact format_eq_iff plain otherPlain
  again raw versions parsed := by
    have plain := plain_of_parse parsed
    exact ⟨format versions, Ascending.ofList versions, written_of_plain plain,
      parse_format_of_plain plain field, (written_ofList plain).trans (written_of_plain plain)⟩

theorem written_inverse_repeatedVersions :
    written [12, 3, 12] = written [3, 12] ∧ parse "migrations" (.text "[7,, 007]") = .ok [7, 7] ∧
      ∃ text ascending, written [7, 7] = .ok text ∧
        parse "migrations" (.text text) = .ok ascending ∧ written ascending = .ok text := by
  have repeated := (written_inverse "migrations").same [12, 3, 12] [3, 12] (by decide) (by decide)
  have parsed : parse "migrations" (.text "[7,, 007]") = .ok [7, 7] := rfl
  refine ⟨repeated.mpr fun version => ?_, parsed, (written_inverse "migrations").again _ _ parsed⟩
  simp only [List.mem_cons, List.not_mem_nil, or_false]
  omega

end Uplift.Listing

namespace Uplift.Marker

/-- A document is marked with versions where they are looked for. -/
structure Agrees (fields : FieldNames) (versions : List Int) (entries : Entries Value) : Prop where
  changed : ∃ text marked, Listing.written versions = .ok text ∧
    write fields versions (.object entries) = .object marked ∧ Marks fields text entries marked
  declared : ∀ family subject, ∃ satisfied ascending,
    (Resolution.resolve family (Strategy.standard fields) subject
        (write fields versions (.object entries))).outcome = .ok satisfied ∧
      satisfied.declaration = .explicit ascending ∧ Listing.Ascends versions ascending
  last : ∀ others, write fields versions (write fields others (.object entries)) =
    write fields versions (.object entries)

theorem write_agrees (fields : FieldNames) {versions : List Int} (entries : Entries Value)
    (plain : ∀ version ∈ versions, Listing.Plain version) : Agrees fields versions entries := by
  obtain ⟨marked, put, marks⟩ := put_marks fields (Listing.format versions) entries
  have wrote : write fields versions (.object entries) = .object marked := put
  refine ⟨⟨_, marked, Listing.written_of_plain plain, wrote, marks⟩, ?_, fun others => ?_⟩
  · intro family subject
    obtain ⟨satisfied, resolved, declared⟩ := resolve_of_marks family subject marks
      (fun version member => (plain version member).natural) (Listing.isWritable_of_plain plain)
    rw [wrote]
    exact ⟨satisfied, _, resolved, declared, Listing.ascends_iff.mpr rfl⟩
  · exact put_put _ _ _

/-- One name for the content and for the fields that hold versions. -/
def oneName : FieldNames := ⟨"content", "content", "content", "id", "name"⟩

/-- A document with a marker that cannot be read. -/
def staleDocument : Entries Value :=
  [(.text "id", .text "a"), (.text "content", .object [(.text "content", .text "[1, x]")])]

theorem write_agrees_staleDocument :
    (∀ version ∈ [3, 1, 3], Listing.Plain version) ∧
      ∃ satisfied, (Resolution.resolve "chain" (Strategy.standard oneName) ⟨some "a", none⟩
          (write oneName [3, 1, 3] (.object staleDocument))).outcome = .ok satisfied ∧
        satisfied.declaration = .explicit [1, 3] := by
  have plain : ∀ version ∈ [3, 1, 3], Listing.Plain version := by decide
  refine ⟨plain, ?_⟩
  obtain ⟨satisfied, ascending, resolved, declared, ascends⟩ :=
    (write_agrees oneName staleDocument plain).declared "chain" ⟨some "a", none⟩
  rw [Listing.ascends_iff.mp ascends] at declared
  exact ⟨satisfied, resolved, declared⟩

end Uplift.Marker
