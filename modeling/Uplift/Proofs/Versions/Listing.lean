import Uplift.Proofs.Scalar.Blank
import Uplift.Proofs.Versions.Ascending
import Uplift.Versions.Listing

/-!
# Reading and writing lists of versions

What a piece of a written list is does not depend on the pieces around it: it is nothing, a version,
a run of too many digits, or something foreign. Reading goes from piece to piece and ends at the
first that is no version. A written list is read back as the list that was written, in its ascending
form.
-/

set_option autoImplicit false

namespace Uplift.Listing

/-- What a piece of a written list is. -/
inductive Piece where
  /-- White space alone, which is dropped. -/
  | nothing
  | version (number : Nat)
  | overlong (digits : Nat)
  | foreign (token : String)

def Piece.of (text : String) : Piece :=
  let trimmed := Text.trim text
  if trimmed.isEmpty then .nothing
  else if Digits.isRun trimmed.toList then
    if Fault.digitLimit < trimmed.toList.length then .overlong trimmed.toList.length
    else .version (Digits.value trimmed.toList)
  else .foreign trimmed

/-- Reading goes on behind a piece that is nothing or a version, and ends at any other. -/
theorem readPieces_cons (field : String) (raw : Value) (piece : String) (rest : List String) :
    readPieces field raw (piece :: rest) =
      match Piece.of piece with
      | .nothing => readPieces field raw rest
      | .version number =>
          (readPieces field raw rest).map fun versions => (number : Int) :: versions
      | .overlong digits => .error (.fault (.tooManyDigits digits))
      | .foreign token => .error (.malformed field raw (some token) VersionError.listHint) := by
  rw [readPieces]
  unfold Piece.of
  by_cases empty : (Text.trim piece).isEmpty
  · simp only [empty, if_true]
  · by_cases run : Digits.isRun (Text.trim piece).toList
    · by_cases long : Fault.digitLimit < (Text.trim piece).toList.length
      · simp only [empty, run, long, Digits.read, if_true]
        rfl
      · simp only [empty, run, long, Digits.read, if_true, if_false]
        cases readPieces field raw rest <;> rfl
    · simp only [empty, run]
      rfl

theorem readPieces_versions {field : String} {raw : Value} {pieces : List String}
    {numbers : List Nat} (versions : pieces.map Piece.of = numbers.map Piece.version) :
    readPieces field raw pieces = .ok (numbers.map fun number : Nat => (number : Int)) := by
  induction pieces generalizing numbers with
  | nil =>
      cases numbers with
      | nil => rfl
      | cons number others => cases versions
  | cons piece rest ih =>
      cases numbers with
      | nil => cases versions
      | cons number others =>
          obtain ⟨first, tail⟩ := List.cons.inj versions
          rw [readPieces_cons, first, ih tail]
          rfl

/-!
## Pieces of a written list
-/

theorem splitAt_eq_singleton {separator : Char} {chars : List Char} (absent : separator ∉ chars) :
    splitAt separator chars = [chars] := by
  induction chars with
  | nil => rfl
  | cons char rest ih =>
      simp only [List.mem_cons, not_or] at absent
      rw [splitAt, if_neg (Ne.symm absent.1), ih absent.2]

theorem splitAt_append_cons {separator : Char} {chars : List Char} (rest : List Char)
    (absent : separator ∉ chars) :
    splitAt separator (chars ++ separator :: rest) = chars :: splitAt separator rest := by
  induction chars with
  | nil => simp [splitAt]
  | cons char chars ih =>
      simp only [List.mem_cons, not_or] at absent
      rw [List.cons_append, splitAt, if_neg (Ne.symm absent.1), ih absent.2]

/-- The first piece of a written list stands alone, all others behind a space. -/
def spaced : List (List Char) → List (List Char)
  | [] => [[]]
  | first :: rest => first :: rest.map (' ' :: ·)

theorem splitAt_intercalate {pieces : List (List Char)} (absent : ∀ piece ∈ pieces, ',' ∉ piece) :
    splitAt ',' ([',', ' '].intercalate pieces) = spaced pieces := by
  induction pieces with
  | nil => rfl
  | cons first rest ih =>
      have firstAbsent := absent first (.head _)
      cases rest with
      | nil => simpa [spaced] using splitAt_eq_singleton firstAbsent
      | cons second others =>
          have restSplit := ih fun piece member => absent piece (.tail _ member)
          have secondAbsent : ',' ∉ ' ' :: second := by
            simpa using absent second (.tail _ (.head _))
          rw [List.intercalate_cons_cons, List.append_assoc]
          change splitAt ',' (first ++ ',' :: ' ' :: [',', ' '].intercalate (second :: others)) = _
          rw [splitAt_append_cons _ firstAbsent]
          have behindSpace : splitAt ',' (' ' :: [',', ' '].intercalate (second :: others)) =
              (' ' :: second) :: others.map (' ' :: ·) := by
            rw [splitAt, if_neg (by decide), restSplit]
            rfl
          rw [behindSpace]
          rfl

/-!
## Digits as pieces
-/

private theorem dropWhile_visible {chars : List Char}
    (visible : ∀ char ∈ chars, Text.isBlankChar char = false) :
    chars.dropWhile Text.isBlankChar = chars := by
  cases chars with
  | nil => rfl
  | cons char rest => simp [visible char (.head _)]

private theorem trimChars_visible {chars : List Char}
    (visible : ∀ char ∈ chars, Text.isBlankChar char = false) : Text.trimChars chars = chars := by
  rw [Text.trimChars, dropWhile_visible visible, dropWhile_visible, List.reverse_reverse]
  intro char member
  exact visible char (List.mem_reverse.mp member)

private theorem pieceOf_trimmed {text : String} {number : Nat}
    (writable : Scalar.isWritable (.int number) = true)
    (trimmed : Text.trimChars text.toList = Nat.toDigits 10 number) :
    Piece.of text = .version number := by
  have result := Digits.read_toDigits writable
  simp only [Digits.read] at result
  split at result
  · cases result
  · rename_i short
    have nonempty : (String.ofList (Nat.toDigits 10 number)).isEmpty = false := by
      simp
    simp only [Piece.of, Text.trim, trimmed, nonempty, String.toList_ofList,
      Digits.isRun_toDigits, short, Digits.value_toDigits, if_true, if_false, Bool.false_eq_true]

theorem pieceOf_toDigits {number : Nat} (writable : Scalar.isWritable (.int number) = true) :
    Piece.of (String.ofList (Nat.toDigits 10 number)) = .version number := by
  apply pieceOf_trimmed writable
  rw [String.toList_ofList, trimChars_visible]
  intro char member
  exact Text.isBlankChar_of_isDigit (Nat.isDigit_of_mem_toDigits (by decide) (by decide) member)

theorem pieceOf_space_toDigits {number : Nat} (writable : Scalar.isWritable (.int number) = true) :
    Piece.of (String.ofList (' ' :: Nat.toDigits 10 number)) = .version number := by
  apply pieceOf_trimmed writable
  have dropped : Text.trimChars (' ' :: Nat.toDigits 10 number) =
      Text.trimChars (Nat.toDigits 10 number) := rfl
  rw [String.toList_ofList, dropped, trimChars_visible]
  intro char member
  exact Text.isBlankChar_of_isDigit (Nat.isDigit_of_mem_toDigits (by decide) (by decide) member)

/-!
## Writing and reading again
-/

private theorem toList_format (numbers : List Nat) (versions : List Int)
    (same : Ascending.ofList versions = numbers.map fun number : Nat => (number : Int)) :
    (format versions).toList =
      '[' :: [',', ' '].intercalate (numbers.map (Nat.toDigits 10)) ++ [']'] := by
  have written : (Ascending.ofList versions).map toString = numbers.map Nat.repr := by
    rw [same, List.map_map]
    apply List.map_congr_left
    intro number _
    simp [Int.repr_eq_if]
  simp only [format, written, String.toList_append, String.toList_intercalate, List.map_map]
  have digits : String.toList ∘ Nat.repr = Nat.toDigits 10 := by
    funext number
    simp
  rw [digits]
  rfl

private theorem mem_intercalate_toDigits {char : Char} {numbers : List Nat}
    (member : char ∈ [',', ' '].intercalate (numbers.map (Nat.toDigits 10))) :
    char = ',' ∨ char = ' ' ∨ char.isDigit = true := by
  induction numbers with
  | nil => simp at member
  | cons number rest ih =>
      have digit (inside : char ∈ Nat.toDigits 10 number) : char.isDigit = true :=
        Nat.isDigit_of_mem_toDigits (by decide) (by decide) inside
      cases rest with
      | nil =>
          rw [List.map_cons, List.map_nil, List.intercalate_singleton] at member
          exact .inr (.inr (digit member))
      | cons second others =>
          rw [List.map_cons, List.map_cons, List.intercalate_cons_cons, List.append_assoc] at member
          rcases List.mem_append.mp member with inside | behind
          · exact .inr (.inr (digit inside))
          · rcases List.mem_append.mp behind with separator | tail
            · simp only [List.mem_cons, List.not_mem_nil, or_false] at separator
              exact separator.elim .inl fun space => .inr (.inl space)
            · exact ih tail

private theorem filter_brackets (numbers : List Nat) :
    ([',', ' '].intercalate (numbers.map (Nat.toDigits 10))).filter
        (fun char => char ≠ '[' ∧ char ≠ ']') =
      [',', ' '].intercalate (numbers.map (Nat.toDigits 10)) := by
  apply List.filter_eq_self.mpr
  intro char member
  rcases mem_intercalate_toDigits member with rfl | rfl | digit
  · decide
  · decide
  · have bounds := Digits.toNat_of_isDigit digit
    have opening : char ≠ '[' := by
      intro same
      subst same
      exact absurd bounds.2 (by decide)
    have closing : char ≠ ']' := by
      intro same
      subst same
      exact absurd bounds.2 (by decide)
    simp [opening, closing]

private theorem textPieces_format {numbers : List Nat} {versions : List Int}
    (same : Ascending.ofList versions = numbers.map fun number : Nat => (number : Int)) :
    textPieces (format versions) =
      (spaced (numbers.map (Nat.toDigits 10))).map String.ofList := by
  have absent : ∀ piece ∈ numbers.map (Nat.toDigits 10), ',' ∉ piece := by
    intro piece member comma
    obtain ⟨number, _, rfl⟩ := List.mem_map.mp member
    exact absurd (Nat.isDigit_of_mem_toDigits (by decide) (by decide) comma) (by decide)
  rw [textPieces, toList_format numbers versions same]
  rw [List.cons_append, List.filter_cons_of_neg (by decide), List.filter_append, filter_brackets,
    List.filter_cons_of_neg (by decide), List.filter_nil, List.append_nil,
    splitAt_intercalate absent]

/-- A written list is read back in its ascending form, if it has no negative versions and each of
them can be written. -/
theorem parse_format (field : String) {versions : List Int}
    (natural : ∀ version ∈ versions, 0 ≤ version) (writable : isWritable versions = true) :
    parse field (.text (format versions)) = .ok (Ascending.ofList versions) := by
  obtain ⟨numbers, same⟩ : ∃ numbers : List Nat,
      Ascending.ofList versions = numbers.map fun number : Nat => (number : Int) := by
    refine ⟨(Ascending.ofList versions).map Int.toNat, ?_⟩
    rw [List.map_map]
    conv => lhs; rw [← List.map_id (Ascending.ofList versions)]
    apply List.map_congr_left
    intro version member
    exact (Int.toNat_of_nonneg (natural version (Ascending.mem_ofList.mp member))).symm
  have readable : ∀ number ∈ numbers, Scalar.isWritable (.int number) = true := by
    intro number member
    have inside : (number : Int) ∈ Ascending.ofList versions := by
      rw [same]
      exact List.mem_map_of_mem member
    exact List.all_eq_true.mp writable _ (Ascending.mem_ofList.mp inside)
  rw [parse, textPieces_format same, same]
  cases numbers with
  | nil => rfl
  | cons first rest =>
      apply readPieces_versions
      simp only [List.map_cons, spaced, List.map_map]
      rw [pieceOf_toDigits (readable first (.head _))]
      refine congrArg (List.cons _) (List.map_congr_left ?_)
      intro number member
      simp only [Function.comp_apply]
      rw [pieceOf_space_toDigits (readable number (.tail _ member))]

theorem isWritable_iff {versions : List Int} :
    isWritable versions = true ↔ ∀ version ∈ versions, Scalar.isWritable (.int version) = true := by
  rw [isWritable, List.all_eq_true]

end Uplift.Listing
