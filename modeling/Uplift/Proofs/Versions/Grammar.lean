import Mathlib.Data.List.Forall2
import Uplift.Proofs.Text.Trim
import Uplift.Proofs.Versions.Declared
import Uplift.Proofs.Versions.Overlong

/-!
# The grammar of lists of versions

A value that lists versions comes down to tokens: those of a text are what stands between commas
once the brackets are gone, and those of an array are the texts of its items, without the white
space around them. Reading such a value gives what its tokens denote, and blames the first token
that denotes nothing. An item that has no place in a list is blamed before any token.
-/

set_option autoImplicit false

namespace Uplift.Listing

open Text (Trims)

/-- A text without its brackets is these pieces with commas between them. -/
structure Cuts (text : String) (pieces : List String) : Prop where
  joined : [','].intercalate (pieces.map String.toList) =
    text.toList.filter fun char => char ≠ '[' ∧ char ≠ ']'
  whole : ∀ piece ∈ pieces, ',' ∉ piece.toList
  some : pieces ≠ []

/-- The tokens in some pieces, in order; a piece of white space alone has none. -/
inductive Tokenizes : List String → List String → Prop where
  | nil : Tokenizes [] []
  | blank {piece : String} {rest tokens : List String} :
      Trims piece "" → Tokenizes rest tokens → Tokenizes (piece :: rest) tokens
  | token {piece token : String} {rest tokens : List String} :
      Trims piece token → token ≠ "" → Tokenizes rest tokens →
      Tokenizes (piece :: rest) (token :: tokens)

/-- The tokens of a value that lists versions. Items of an array are integers or texts. -/
inductive Tokens : Value → List String → Prop where
  | null : Tokens .null []
  | text {text : String} {pieces tokens : List String} :
      Cuts text pieces → Tokenizes pieces tokens → Tokens (.text text) tokens
  | array {items : List Value} {pieces tokens : List String} :
      List.Forall₂ (fun item piece => itemText? item = some piece) items pieces →
      Tokenizes pieces tokens → Tokens (.array items) tokens

/-- A run of ASCII digits, at least one. -/
def IsDigits (token : String) : Prop :=
  token ≠ "" ∧ ∀ char ∈ token.toList, char.isDigit = true

/-- A run of digits that is not too long stands for the number with these decimal digits. -/
structure Denotes (token : String) (version : Int) : Prop where
  digits : IsDigits token
  short : token.length ≤ Fault.digitLimit
  value : version = Nat.ofDigitChars 10 token.toList 0

/-- A value lists these versions, in their order. -/
def Lists (raw : Value) (versions : List Int) : Prop :=
  ∃ tokens, Tokens raw tokens ∧ List.Forall₂ Denotes tokens versions

/-- A token that denotes no version, and the error that it leads to. -/
inductive Refuses (field : String) (raw : Value) (token : String) : VersionError → Prop where
  | foreign : ¬ IsDigits token →
      Refuses field raw token (.malformed field raw (some token) VersionError.listHint)
  | overlong : IsDigits token → Fault.digitLimit < token.length →
      Refuses field raw token (.fault (.tooManyDigits token.length))

/-- What the grammar makes of the value of a field that should list versions. -/
inductive Reads (field : String) (raw : Value) : Except VersionError (List Int) → Prop where
  | versions {versions : List Int} : Lists raw versions → Reads field raw (.ok versions)
  | token {before after : List String} {token : String} {error : VersionError} :
      Tokens raw (before ++ token :: after) →
      (∀ earlier ∈ before, ∃ version, Denotes earlier version) →
      Refuses field raw token error → Reads field raw (.error error)
  | item {before after : List Value} {item : Value} :
      raw = .array (before ++ item :: after) →
      (∀ earlier ∈ before, ∃ piece, itemText? earlier = some piece) → itemText? item = none →
      Reads field raw (.error (.malformed field raw (some item.quoted) VersionError.listHint))
  | shape : raw ≠ .null → (∀ text, raw ≠ .text text) → (∀ items, raw ≠ .array items) →
      Reads field raw (.error (.malformed field raw none VersionError.listHint))

/-!
## Pieces
-/

private theorem splitAt_eq_splitOn (separator : Char) (chars : List Char) :
    splitAt separator chars = chars.splitOn separator := by
  induction chars with
  | nil => rfl
  | cons char rest ih =>
      rw [splitAt, List.splitOn_cons_eq_if_modifyHead, ih]
      obtain ⟨piece, pieces, shape⟩ :=
        List.exists_cons_of_ne_nil (List.splitOn_ne_nil separator rest)
      simp [shape]

private theorem not_mem_of_mem_splitOn {separator : Char} {chars piece : List Char}
    (member : piece ∈ chars.splitOn separator) : separator ∉ piece := by
  induction chars generalizing piece with
  | nil => simp_all
  | cons char rest ih =>
      obtain ⟨first, others, shape⟩ :=
        List.exists_cons_of_ne_nil (List.splitOn_ne_nil separator rest)
      rw [List.splitOn_cons_eq_if_modifyHead, shape, List.modifyHead_cons] at member
      rw [shape] at ih
      split at member
      · rcases List.mem_cons.mp member with rfl | later
        · exact List.not_mem_nil
        · exact ih later
      · rename_i different
        rcases List.mem_cons.mp member with rfl | later
        · simp only [List.mem_cons, not_or]
          exact ⟨fun same => different (by simp [same]), ih List.mem_cons_self⟩
        · exact ih (List.mem_cons_of_mem _ later)

private theorem map_toList_textPieces (text : String) :
    (textPieces text).map String.toList =
      (text.toList.filter fun char => char ≠ '[' ∧ char ≠ ']').splitOn ',' := by
  have unchanged : String.toList ∘ String.ofList = id := funext fun _ => String.toList_ofList
  rw [textPieces, splitAt_eq_splitOn, List.map_map, unchanged, List.map_id]

theorem cuts_textPieces (text : String) : Cuts text (textPieces text) where
  joined := by
    rw [map_toList_textPieces]
    exact List.intercalate_splitOn ','
  whole piece member := by
    have inside : piece.toList ∈ (textPieces text).map String.toList := List.mem_map_of_mem member
    rw [map_toList_textPieces] at inside
    exact not_mem_of_mem_splitOn inside
  some := by
    simp [textPieces, splitAt_eq_splitOn, List.splitOn_ne_nil]

theorem Cuts.textPieces_eq {text : String} {pieces : List String} (cuts : Cuts text pieces) :
    textPieces text = pieces := by
  have same : (textPieces text).map String.toList = pieces.map String.toList := by
    rw [map_toList_textPieces, ← cuts.joined, List.splitOn_intercalate ',']
    · simpa using cuts.whole
    · simpa using cuts.some
  exact List.map_injective_iff.mpr (fun _ _ => String.toList_inj.mp) same

theorem exists_tokenizes (pieces : List String) : ∃ tokens, Tokenizes pieces tokens := by
  induction pieces with
  | nil => exact ⟨[], .nil⟩
  | cons piece rest ih =>
      obtain ⟨tokens, tokenizes⟩ := ih
      have trims : Trims piece (Text.trim piece) := Text.trim_eq_iff.mp rfl
      by_cases nothing : Text.trim piece = ""
      · exact ⟨tokens, .blank (nothing ▸ trims) tokenizes⟩
      · exact ⟨_, .token trims nothing tokenizes⟩

theorem Tokenizes.exists_mem {pieces tokens : List String} (tokenizes : Tokenizes pieces tokens)
    {piece : String} (member : piece ∈ pieces) {char : Char} (inside : char ∈ piece.toList)
    (visible : Text.isBlankChar char = false) : ∃ token ∈ tokens, char ∈ token.toList := by
  -- Only white space is cut off, so a visible character is still there in the token.
  have inCore {core : String} (trims : Trims piece core) : char ∈ core.toList := by
    obtain ⟨before, after, split, beforeBlank, afterBlank⟩ := trims.around
    rw [split, List.mem_append, List.mem_append] at inside
    rcases inside with (here | here) | here
    · simp [beforeBlank char here] at visible
    · exact here
    · simp [afterBlank char here] at visible
  induction tokenizes with
  | nil => cases member
  | blank trims _ ih =>
      rcases List.mem_cons.mp member with rfl | later
      · simpa using inCore trims
      · exact ih later
  | token trims _ _ ih =>
      rcases List.mem_cons.mp member with rfl | later
      · exact ⟨_, List.mem_cons_self, inCore trims⟩
      · obtain ⟨token, tokenMember, found⟩ := ih later
        exact ⟨token, List.mem_cons_of_mem _ tokenMember, found⟩

/-!
## Reading of pieces
-/

variable {field : String} {raw : Value}

theorem isRun_toList_iff {token : String} :
    Digits.isRun token.toList = true ↔ IsDigits token := by
  simp [Digits.isRun, IsDigits]

theorem Piece.of_denotes {piece token : String} {version : Int} (trims : Trims piece token)
    (denotes : Denotes token version) :
    Piece.of piece = .version (Nat.ofDigitChars 10 token.toList 0) := by
  have visible : token.isEmpty = false := by simpa using denotes.digits.1
  have run := isRun_toList_iff.mpr denotes.digits
  have short : ¬ Fault.digitLimit < token.toList.length := by
    rw [String.length_toList]
    exact Nat.not_lt.mpr denotes.short
  simp only [Piece.of, trims.trim_eq, visible, run, short, if_true, if_false, Bool.false_eq_true,
    Digits.value_eq_ofDigitChars]

theorem Piece.of_overlong {piece token : String} (trims : Trims piece token)
    (digits : IsDigits token) (long : Fault.digitLimit < token.length) :
    Piece.of piece = .overlong token.length := by
  have visible : token.isEmpty = false := by simpa using digits.1
  have run := isRun_toList_iff.mpr digits
  simp only [Piece.of, trims.trim_eq, visible, run, String.length_toList, long, if_true, if_false,
    Bool.false_eq_true]

theorem Piece.of_foreign {piece token : String} (trims : Trims piece token)
    (strange : ¬ IsDigits token) :
    Piece.of piece = if token = "" then .nothing else .foreign token := by
  have noRun : Digits.isRun token.toList = false := by
    simpa [← isRun_toList_iff] using strange
  simp only [Piece.of, trims.trim_eq, noRun, if_false, Bool.false_eq_true, String.isEmpty_iff]

theorem readPieces_blank {piece : String} (trims : Trims piece "") (rest : List String) :
    readPieces field raw (piece :: rest) = readPieces field raw rest := by
  have kind := Piece.of_foreign trims (by simp [IsDigits])
  simp only [if_true] at kind
  rw [readPieces_cons, kind]

theorem readPieces_denotes {piece token : String} {version : Int} (trims : Trims piece token)
    (denotes : Denotes token version) (rest : List String) :
    readPieces field raw (piece :: rest) =
      (readPieces field raw rest).map fun versions => version :: versions := by
  rw [readPieces_cons, Piece.of_denotes trims denotes, denotes.value]

theorem readPieces_refuses {piece token : String} {error : VersionError}
    (trims : Trims piece token) (visible : token ≠ "") (refuses : Refuses field raw token error)
    (rest : List String) : readPieces field raw (piece :: rest) = .error error := by
  rw [readPieces_cons]
  cases refuses with
  | foreign strange => rw [Piece.of_foreign trims strange, if_neg visible]
  | overlong digits long => rw [Piece.of_overlong trims digits long]

theorem readPieces_of_denotes {pieces tokens : List String} {versions : List Int}
    (tokenizes : Tokenizes pieces tokens) (denote : List.Forall₂ Denotes tokens versions) :
    readPieces field raw pieces = .ok versions := by
  induction tokenizes generalizing versions with
  | nil =>
      cases denote
      rfl
  | blank trims _ ih => rw [readPieces_blank trims, ih denote]
  | token trims _ _ ih =>
      cases denote with
      | cons first later =>
          rw [readPieces_denotes trims first, ih later]
          rfl

theorem readPieces_of_refuses {pieces tokens before after : List String} {token : String}
    {error : VersionError} (tokenizes : Tokenizes pieces tokens)
    (place : tokens = before ++ token :: after)
    (denote : ∀ earlier ∈ before, ∃ version, Denotes earlier version)
    (refuses : Refuses field raw token error) : readPieces field raw pieces = .error error := by
  induction tokenizes generalizing before with
  | nil => simp at place
  | blank trims _ ih => rw [readPieces_blank trims, ih place denote]
  | token trims visible _ ih =>
      cases before with
      | nil =>
          obtain ⟨rfl, rfl⟩ := List.cons.inj place
          exact readPieces_refuses trims visible refuses _
      | cons first before =>
          obtain ⟨rfl, later⟩ := List.cons.inj place
          obtain ⟨⟨version, denotes⟩, others⟩ := List.forall_mem_cons.mp denote
          rw [readPieces_denotes trims denotes, ih later others]
          rfl

/-- Either each token denotes a version, or there is a first one that denotes none. -/
theorem denote_or_refuses (field : String) (raw : Value) (tokens : List String) :
    (∃ versions, List.Forall₂ Denotes tokens versions) ∨
      ∃ before token after error, tokens = before ++ token :: after ∧
        (∀ earlier ∈ before, ∃ version, Denotes earlier version) ∧
          Refuses field raw token error := by
  induction tokens with
  | nil => exact .inl ⟨[], .nil⟩
  | cons token rest ih =>
      by_cases digits : IsDigits token
      · by_cases long : Fault.digitLimit < token.length
        · exact .inr ⟨[], token, rest, _, rfl, List.forall_mem_nil _, .overlong digits long⟩
        · have denotes : Denotes token _ := ⟨digits, Nat.le_of_not_lt long, rfl⟩
          rcases ih with ⟨versions, denote⟩ | ⟨before, other, after, error, rfl, denote, refuses⟩
          · exact .inl ⟨_, .cons denotes denote⟩
          · exact .inr ⟨token :: before, other, after, error, rfl,
              List.forall_mem_cons.mpr ⟨⟨_, denotes⟩, denote⟩, refuses⟩
      · exact .inr ⟨[], token, rest, _, rfl, List.forall_mem_nil _, .foreign digits⟩

/-!
## Items of an array
-/

theorem mapM_itemPiece_of_texts {items : List Value} {pieces : List String}
    (texts : List.Forall₂ (fun item piece => itemText? item = some piece) items pieces)
    (writable : ∀ item ∈ items, item.isWritable = true) :
    items.mapM (itemPiece field raw) = .ok pieces := by
  induction texts with
  | nil => rfl
  | cons found _ ih =>
      obtain ⟨first, others⟩ := List.forall_mem_cons.mp writable
      rw [List.mapM_cons, itemPiece_eq field raw first, found, ih others]
      rfl

theorem mapM_itemPiece_of_no_text {before after : List Value} {item : Value}
    (texts : ∀ earlier ∈ before, ∃ piece, itemText? earlier = some piece)
    (missing : itemText? item = none)
    (writable : ∀ other ∈ before ++ item :: after, other.isWritable = true) :
    (before ++ item :: after).mapM (itemPiece field raw) =
      .error (.malformed field raw (some item.quoted) VersionError.listHint) := by
  induction before with
  | nil =>
      obtain ⟨first, _⟩ := List.forall_mem_cons.mp writable
      rw [List.nil_append, List.mapM_cons, itemPiece_eq field raw first, missing]
      rfl
  | cons earlier before ih =>
      obtain ⟨⟨piece, found⟩, otherTexts⟩ := List.forall_mem_cons.mp texts
      obtain ⟨first, others⟩ := List.forall_mem_cons.mp writable
      rw [List.cons_append, List.mapM_cons, itemPiece_eq field raw first, found,
        ih otherTexts others]
      rfl

theorem texts_or_no_text (items : List Value) :
    (∃ pieces, List.Forall₂ (fun item piece => itemText? item = some piece) items pieces) ∨
      ∃ before item after, items = before ++ item :: after ∧
        (∀ earlier ∈ before, ∃ piece, itemText? earlier = some piece) ∧ itemText? item = none := by
  induction items with
  | nil => exact .inl ⟨[], .nil⟩
  | cons item rest ih =>
      cases found : itemText? item with
      | none => exact .inr ⟨[], item, rest, rfl, List.forall_mem_nil _, found⟩
      | some piece =>
          rcases ih with ⟨pieces, texts⟩ | ⟨before, other, after, rfl, texts, missing⟩
          · exact .inl ⟨piece :: pieces, .cons found texts⟩
          · exact .inr ⟨item :: before, other, after, rfl,
              List.forall_mem_cons.mpr ⟨⟨piece, found⟩, texts⟩, missing⟩

/-!
## Reading of values
-/

theorem Tokens.exists_pieces {tokens : List String} (listed : Tokens raw tokens)
    (writable : raw.isWritable = true) (field : String) :
    ∃ pieces, Tokenizes pieces tokens ∧ parse field raw = readPieces field raw pieces := by
  cases listed with
  | null => exact ⟨[], .nil, rfl⟩
  | text cuts tokenizes =>
      rw [parse, cuts.textPieces_eq]
      exact ⟨_, tokenizes, rfl⟩
  | array texts tokenizes =>
      refine ⟨_, tokenizes, ?_⟩
      rw [parse, mapM_itemPiece_of_texts texts (Value.isWritable_array_iff.mp writable)]
      rfl

theorem exists_reads (field : String) (raw : Value) : ∃ outcome, Reads field raw outcome := by
  have ofTokens {tokens : List String} (listed : Tokens raw tokens) :
      ∃ outcome, Reads field raw outcome := by
    rcases denote_or_refuses field raw tokens with
      ⟨versions, denote⟩ | ⟨before, token, after, error, rfl, denote, refuses⟩
    · exact ⟨_, .versions ⟨_, listed, denote⟩⟩
    · exact ⟨_, .token listed denote refuses⟩
  cases raw with
  | scalar value =>
      cases value with
      | null => exact ofTokens .null
      | text text =>
          obtain ⟨tokens, tokenizes⟩ := exists_tokenizes (textPieces text)
          exact ofTokens (.text (cuts_textPieces text) tokenizes)
      | bool _ | int _ | float _ | date _ | moment _ | bytes _ =>
          exact ⟨_, .shape (by simp) (by simp) (by simp)⟩
  | array items =>
      rcases texts_or_no_text items with
        ⟨pieces, texts⟩ | ⟨before, item, after, rfl, texts, missing⟩
      · obtain ⟨tokens, tokenizes⟩ := exists_tokenizes pieces
        exact ofTokens (.array texts tokenizes)
      · exact ⟨_, .item rfl texts missing⟩
  | object entries => exact ⟨_, .shape (by simp) (by simp) (by simp)⟩

theorem Reads.parse_eq {outcome : Except VersionError (List Int)} (reads : Reads field raw outcome)
    (writable : raw.isWritable = true) : parse field raw = outcome := by
  cases reads with
  | versions lists =>
      obtain ⟨tokens, listed, denote⟩ := lists
      obtain ⟨pieces, tokenizes, parsed⟩ := listed.exists_pieces writable field
      rw [parsed, readPieces_of_denotes tokenizes denote]
  | token listed denote refuses =>
      obtain ⟨pieces, tokenizes, parsed⟩ := listed.exists_pieces writable field
      rw [parsed, readPieces_of_refuses tokenizes rfl denote refuses]
  | item shape texts missing =>
      subst shape
      rw [parse, mapM_itemPiece_of_no_text texts missing (Value.isWritable_array_iff.mp writable)]
      rfl
  | shape notNull noText noArray =>
      unfold parse
      split
      · exact absurd rfl notNull
      · exact absurd rfl (noText _)
      · exact absurd rfl (noArray _)
      · rfl

theorem parse_eq_iff_reads (writable : raw.isWritable = true)
    {outcome : Except VersionError (List Int)} :
    parse field raw = outcome ↔ Reads field raw outcome := by
  constructor
  · rintro rfl
    obtain ⟨outcome, reads⟩ := exists_reads field raw
    rwa [reads.parse_eq writable]
  · exact fun reads => reads.parse_eq writable

/-!
## The grammar as a whole
-/

/-- No token of a value is a run of more digits than are converted. -/
def ShortTokens (raw : Value) : Prop :=
  ∀ tokens, Tokens raw tokens → ∀ token ∈ tokens, IsDigits token →
    token.length ≤ Fault.digitLimit

/-- Items that are lists in a text or negative numbers, and so no versions. -/
inductive Unlisted : Value → Prop where
  | negative {number : Int} : number < 0 → Unlisted (.int number)
  | punctuated {text : String} {char : Char} :
      char ∈ ['[', ']', ','] → char ∈ text.toList → Unlisted (.text text)

/-- How the value of a field that should list versions is read. -/
structure Grammatical (field : String) (raw : Value) : Prop where
  outcome : ∀ outcome, parse field raw = outcome ↔ Reads field raw outcome
  settled : ShortTokens raw → (∃ versions, parse field raw = .ok versions) ∨
    ∃ token, parse field raw = .error (.malformed field raw token VersionError.listHint)
  natural : ∀ versions, parse field raw = .ok versions → ∀ version ∈ versions, 0 ≤ version
  unlisted : ∀ items, raw = .array items → (∃ item ∈ items, Unlisted item) →
    ∀ versions, parse field raw ≠ .ok versions

theorem Reads.settled {outcome : Except VersionError (List Int)} (reads : Reads field raw outcome)
    (short : ShortTokens raw) : (∃ versions, outcome = .ok versions) ∨
      ∃ token, outcome = .error (.malformed field raw token VersionError.listHint) := by
  cases reads with
  | versions => exact .inl ⟨_, rfl⟩
  | item => exact .inr ⟨_, rfl⟩
  | shape => exact .inr ⟨_, rfl⟩
  | token listed _ refuses =>
      cases refuses with
      | foreign => exact .inr ⟨_, rfl⟩
      | overlong digits long =>
          exact absurd (short _ listed _ (by simp) digits) (Nat.not_le.mpr long)

theorem parse_eq_ok_iff (writable : raw.isWritable = true) {versions : List Int} :
    parse field raw = .ok versions ↔ Lists raw versions := by
  rw [parse_eq_iff_reads writable]
  constructor
  · intro reads
    cases reads with
    | versions lists => exact lists
  · exact .versions

theorem lists_or_malformed (field : String) (raw : Value) (writable : raw.isWritable = true)
    (short : ShortTokens raw) : (∃ versions, Lists raw versions) ∨
      ∃ token, parse field raw = .error (.malformed field raw token VersionError.listHint) := by
  have reads : Reads field raw (parse field raw) := (parse_eq_iff_reads writable).mp rfl
  rcases reads.settled short with ⟨versions, parsed⟩ | failed
  · exact .inl ⟨versions, (parse_eq_ok_iff writable).mp parsed⟩
  · exact .inr failed

theorem Unlisted.exists_char {item : Value} (unlisted : Unlisted item) :
    ∃ piece, itemText? item = some piece ∧
      ∃ char ∈ piece.toList, Text.isBlankChar char = false ∧ char.isDigit = false := by
  cases unlisted with
  | @negative number below =>
      have written : (toString number).toList = '-' :: (-number).toNat.repr.toList := by
        change number.repr.toList = _
        rw [Int.repr_eq_if, if_neg (by omega)]
        simp
      exact ⟨toString number, rfl, '-', written ▸ List.mem_cons_self, by decide, by decide⟩
  | @punctuated text char mark inside =>
      refine ⟨text, rfl, char, inside, ?_⟩
      simp only [List.mem_cons, List.not_mem_nil, or_false] at mark
      rcases mark with rfl | rfl | rfl <;> decide

private theorem exists_mem_of_forall₂ {α β : Type} {related : α → β → Prop} {items : List α}
    {others : List β} (pairs : List.Forall₂ related items others) {item : α}
    (member : item ∈ items) : ∃ other ∈ others, related item other := by
  induction pairs with
  | nil => cases member
  | @cons first other _ _ pair _ ih =>
      rcases List.mem_cons.mp member with rfl | later
      · exact ⟨other, List.mem_cons_self, pair⟩
      · obtain ⟨found, foundMember, foundPair⟩ := ih later
        exact ⟨found, List.mem_cons_of_mem _ foundMember, foundPair⟩

/-- A visible character of an item shows up in a token, which is no run of digits if the character
is none. -/
theorem not_denotes_of_unlisted {items : List Value} {item : Value} {tokens : List String}
    {versions : List Int} (member : item ∈ items) (unlisted : Unlisted item)
    (listed : Tokens (.array items) tokens) : ¬ List.Forall₂ Denotes tokens versions := by
  intro denote
  obtain ⟨text, found, char, inside, visible, noDigit⟩ := unlisted.exists_char
  cases listed with
  | array texts tokenizes =>
      obtain ⟨piece, pieceMember, same⟩ := exists_mem_of_forall₂ texts member
      obtain rfl : text = piece := Option.some.inj (found.symm.trans same)
      obtain ⟨token, tokenMember, inToken⟩ := tokenizes.exists_mem pieceMember inside visible
      obtain ⟨version, _, denotes⟩ := exists_mem_of_forall₂ denote tokenMember
      rw [denotes.digits.2 char inToken] at noDigit
      cases noDigit

theorem parse_grammatical (field : String) {raw : Value} (writable : raw.isWritable = true) :
    Grammatical field raw where
  outcome outcome := parse_eq_iff_reads writable
  settled short := ((parse_eq_iff_reads writable).mp rfl).settled short
  natural versions parsed := nonneg_of_parse parsed
  unlisted := by
    rintro items rfl ⟨item, member, unlisted⟩ versions parsed
    obtain ⟨tokens, listed, denote⟩ := (parse_eq_ok_iff writable).mp parsed
    exact not_denotes_of_unlisted member unlisted listed denote

/-- The first item is no number, but the second one has no place in a list at all. -/
def mixedItems : Value := .array [.text "x", .bool true, .int 3]

def looseList : Value := .text "[ 7 ,, ]\u00a0[007"

theorem parse_grammatical_mixedItems :
    mixedItems.isWritable = true ∧
      Reads "migrations" mixedItems
        (.error (.malformed "migrations" mixedItems (some "True") VersionError.listHint)) ∧
      looseList.isWritable = true ∧ Reads "migrations" looseList (.ok [7, 7]) := by
  have mixedWritable : mixedItems.isWritable = true := by decide +kernel
  have looseWritable : looseList.isWritable = true := by decide +kernel
  exact ⟨mixedWritable, ((parse_grammatical "migrations" mixedWritable).outcome _).mp rfl,
    looseWritable, ((parse_grammatical "migrations" looseWritable).outcome _).mp rfl⟩

end Uplift.Listing
