import Uplift.Proofs.Digest.Alike
import Uplift.Proofs.Digest.Quotation
import Uplift.Proofs.Digits

/-!
# Canonical text tells documents apart

A plain document consists of what JSON has a form of its own for: null, truth values, integers and
texts, and objects with different texts as keys. Its canonical text can be cut off from whatever
follows it, as long as no digit does, and shows the document up to the order of entries.
-/

set_option autoImplicit false

namespace Uplift

/-- Only null, truth values, integers and texts are leaves, and no object has a key twice or a key
that is no text. -/
inductive Value.Plain : Value → Prop where
  | null : Plain .null
  | bool (value : Bool) : Plain (.bool value)
  | int (value : Int) : Plain (.int value)
  | text (value : String) : Plain (.text value)
  | array {items : List Value} : (∀ item ∈ items, Plain item) → Plain (.array items)
  | object {entries : Entries Value} : entries.DistinctKeys → entries.TextKeys →
      (∀ entry ∈ entries, Plain entry.2) → Plain (.object entries)

namespace Canonical

/-- What stands behind a value does not go on with a digit. -/
def Stops (rest : List Char) : Prop :=
  ∀ char ∈ rest.head?, char.isDigit = false

/-- Two texts do not read the same with whatever follows, unless they are the same. -/
def Separable (text other : String) : Prop :=
  ∀ rest more, Stops rest → Stops more → text.toList ++ rest = other.toList ++ more →
    text = other ∧ rest = more

theorem stops_nil : Stops [] := nofun

theorem stops_cons {char : Char} (noDigit : char.isDigit = false) (rest : List Char) :
    Stops (char :: rest) := by
  intro first same
  cases same
  exact noDigit

/-!
## Numbers
-/

private theorem takeWhile_digits {digits rest : List Char}
    (run : ∀ char ∈ digits, char.isDigit = true) (stops : Stops rest) :
    (digits ++ rest).takeWhile Char.isDigit = digits := by
  rw [List.takeWhile_append_of_pos run]
  cases rest with
  | nil => rw [List.takeWhile_nil, List.append_nil]
  | cons first rest =>
      rw [List.takeWhile_cons, stops first rfl, if_neg Bool.false_ne_true, List.append_nil]

private theorem toDigits_append_inj {number other : Nat} {rest more : List Char}
    (stops : Stops rest) (otherStops : Stops more)
    (same : Nat.toDigits 10 number ++ rest = Nat.toDigits 10 other ++ more) :
    number = other ∧ rest = more := by
  have run (number : Nat) : ∀ char ∈ Nat.toDigits 10 number, char.isDigit = true :=
    fun char member => Nat.isDigit_of_mem_toDigits (by decide) (by decide) member
  have digits : Nat.toDigits 10 number = Nat.toDigits 10 other := by
    rw [← takeWhile_digits (run number) stops, same, takeWhile_digits (run other) otherStops]
  constructor
  · rw [← Digits.value_toDigits number, digits, Digits.value_toDigits]
  · rw [digits] at same
    exact List.append_cancel_left same

private theorem toList_int_of_nat (number : Nat) :
    (text (.int number)).toList = Nat.toDigits 10 number := by
  simp [text, scalarText, toString, Int.repr]

private theorem toList_int_of_negSucc (number : Nat) :
    (text (.int (.negSucc number))).toList = '-' :: Nat.toDigits 10 (number + 1) := by
  simp [text, scalarText, toString, Int.repr]

private theorem exists_digit_cons (number : Nat) :
    ∃ first rest, Nat.toDigits 10 number = first :: rest ∧ first.isDigit = true := by
  have run := Digits.isRun_toDigits number
  cases digits : Nat.toDigits 10 number with
  | nil =>
      rw [digits] at run
      cases run
  | cons first rest =>
      rw [digits, Digits.isRun, Bool.and_eq_true, List.all_cons, Bool.and_eq_true] at run
      exact ⟨first, rest, rfl, run.2.1⟩

private theorem toDigits_ne_minus {number : Nat} {rest more : List Char} :
    Nat.toDigits 10 number ++ rest ≠ '-' :: more := by
  intro same
  obtain ⟨first, others, digits, digit⟩ := exists_digit_cons number
  rw [digits, List.cons_append] at same
  rw [(List.cons.inj same).1] at digit
  cases digit

private theorem int_append_inj {number other : Int} {rest more : List Char} (stops : Stops rest)
    (otherStops : Stops more)
    (same : (text (.int number)).toList ++ rest = (text (.int other)).toList ++ more) :
    number = other ∧ rest = more := by
  cases number with
  | ofNat number =>
      cases other with
      | ofNat other =>
          rw [Int.ofNat_eq_natCast, Int.ofNat_eq_natCast, toList_int_of_nat,
            toList_int_of_nat] at same
          obtain ⟨rfl, behind⟩ := toDigits_append_inj stops otherStops same
          exact ⟨rfl, behind⟩
      | negSucc other =>
          rw [Int.ofNat_eq_natCast, toList_int_of_nat, toList_int_of_negSucc] at same
          exact absurd same toDigits_ne_minus
  | negSucc number =>
      cases other with
      | ofNat other =>
          rw [Int.ofNat_eq_natCast, toList_int_of_nat, toList_int_of_negSucc] at same
          exact absurd same.symm toDigits_ne_minus
      | negSucc other =>
          rw [toList_int_of_negSucc, toList_int_of_negSucc] at same
          obtain ⟨successors, behind⟩ :=
            toDigits_append_inj stops otherStops (List.tail_eq_of_cons_eq same)
          exact ⟨congrArg Int.negSucc (Nat.succ.inj successors), behind⟩

/-!
## The first character
-/

/-- What the first character of a canonical text tells about the document. -/
inductive Shape where
  | null
  | truth (value : Bool)
  | number
  | text
  | array
  | object
deriving DecidableEq

def shape : Value → Shape
  | .scalar .null => .null
  | .scalar (.bool value) => .truth value
  | .scalar (.int _) => .number
  | .scalar _ => .text
  | .array _ => .array
  | .object _ => .object

/-- What is opened by a character; nothing by one that no text begins with. -/
def opened? (first : Char) : Option Shape :=
  match first with
  | 'n' => some .null
  | 't' => some (.truth true)
  | 'f' => some (.truth false)
  | '"' => some .text
  | '[' => some .array
  | '\x7b' => some .object
  | '-' => some .number
  | other => if other.isDigit then some .number else none

private theorem opened?_digit {char : Char} (digit : char.isDigit = true) :
    opened? char = some .number := by
  unfold opened?
  split
  all_goals first
    | cases digit
    | exact if_pos digit

theorem exists_opening {value : Value} (plain : value.Plain) :
    ∃ first rest, (text value).toList = first :: rest ∧ opened? first = some (shape value) := by
  cases plain with
  | null => exact ⟨_, _, rfl, rfl⟩
  | bool value => cases value <;> exact ⟨_, _, rfl, rfl⟩
  | int number =>
      cases number with
      | ofNat number =>
          obtain ⟨first, rest, digits, digit⟩ := exists_digit_cons number
          exact ⟨first, rest, (toList_int_of_nat number).trans digits, opened?_digit digit⟩
      | negSucc number => exact ⟨_, _, toList_int_of_negSucc number, rfl⟩
  | text value => exact ⟨_, _, toList_quote value, rfl⟩
  | array _ => exact ⟨'[', _, by rw [text, String.toList_append, String.toList_append]; rfl, rfl⟩
  | object _ _ _ =>
      exact ⟨'\x7b', _, by rw [text, String.toList_append, String.toList_append]; rfl, rfl⟩

theorem shape_eq_of_append {value other : Value} (plain : value.Plain) (otherPlain : other.Plain)
    {rest more : List Char} (same : (text value).toList ++ rest = (text other).toList ++ more) :
    shape value = shape other := by
  obtain ⟨first, _, chars, opens⟩ := exists_opening plain
  obtain ⟨otherFirst, _, otherChars, otherOpens⟩ := exists_opening otherPlain
  rw [chars, otherChars, List.cons_append, List.cons_append] at same
  rw [(List.cons.inj same).1, otherOpens] at opens
  exact (Option.some.inj opens).symm

/-!
## Lists of texts
-/

/-- The texts that follow the first one of a list, each behind a comma. -/
private def following (texts : List String) : List Char :=
  texts.flatMap fun text => ',' :: text.toList

private theorem toList_joined_cons (text : String) (texts : List String) :
    (",".intercalate (text :: texts)).toList = text.toList ++ following texts := by
  induction texts generalizing text with
  | nil => rw [String.intercalate_singleton, following, List.flatMap_nil, List.append_nil]
  | cons next texts ih =>
      rw [String.intercalate_cons_cons, String.toList_append, String.toList_append, ih, following,
        following, List.flatMap_cons, List.append_assoc]
      rfl

/-- A character that ends a list, and neither separates its items nor belongs to a number. -/
private structure Closes (close : Char) : Prop where
  noComma : close ≠ ','
  noDigit : close.isDigit = false

/-- A text begins, and not with the character that closes a list. -/
private def BeginsApart (close : Char) (text : String) : Prop :=
  ∃ first rest, text.toList = first :: rest ∧ first ≠ close

section Lists

variable {close : Char} {texts others : List String} {rest more : List Char}

private theorem stops_following (closes : Closes close) (texts : List String) (rest : List Char) :
    Stops (following texts ++ close :: rest) := by
  cases texts with
  | nil => exact stops_cons closes.noDigit rest
  | cons text texts => exact stops_cons (by decide) _

private theorem following_append_inj (closes : Closes close)
    (separable : ∀ text ∈ texts, ∀ other ∈ others, Separable text other)
    (same : following texts ++ close :: rest = following others ++ close :: more) :
    texts = others ∧ rest = more := by
  induction texts generalizing others with
  | nil =>
      cases others with
      | nil => exact ⟨rfl, List.tail_eq_of_cons_eq same⟩
      | cons other others => exact absurd (List.cons.inj same).1 closes.noComma
  | cons text texts ih =>
      cases others with
      | nil => exact absurd (List.cons.inj same).1.symm closes.noComma
      | cons other others =>
          rw [following, following, List.flatMap_cons, List.flatMap_cons, ← following, ← following,
            List.cons_append, List.cons_append, List.cons_append, List.cons_append,
            List.append_assoc, List.append_assoc] at same
          obtain ⟨rfl, later⟩ := separable text (.head _) other (.head _) _ _
            (stops_following closes texts rest) (stops_following closes others more)
            (List.tail_eq_of_cons_eq same)
          obtain ⟨rfl, behind⟩ := ih (fun text member other otherMember =>
            separable text (.tail _ member) other (.tail _ otherMember)) later
          exact ⟨rfl, behind⟩

/-- A list of texts can be read off its text up to what closes it, if no item begins like that. -/
private theorem joined_append_inj (closes : Closes close)
    (begins : ∀ text ∈ texts, BeginsApart close text)
    (othersBegin : ∀ other ∈ others, BeginsApart close other)
    (separable : ∀ text ∈ texts, ∀ other ∈ others, Separable text other)
    (same : (",".intercalate texts).toList ++ close :: rest =
      (",".intercalate others).toList ++ close :: more) :
    texts = others ∧ rest = more := by
  cases texts with
  | nil =>
      cases others with
      | nil => exact ⟨rfl, List.tail_eq_of_cons_eq (List.append_cancel_left same)⟩
      | cons other others =>
          obtain ⟨first, chars, written, different⟩ := othersBegin other (.head _)
          rw [toList_joined_cons, written] at same
          exact absurd (List.cons.inj same).1.symm different
  | cons text texts =>
      cases others with
      | nil =>
          obtain ⟨first, chars, written, different⟩ := begins text (.head _)
          rw [toList_joined_cons, written] at same
          exact absurd (List.cons.inj same).1 different
      | cons other others =>
          rw [toList_joined_cons, toList_joined_cons, List.append_assoc, List.append_assoc] at same
          obtain ⟨rfl, later⟩ := separable text (.head _) other (.head _) _ _
            (stops_following closes texts rest) (stops_following closes others more) same
          obtain ⟨rfl, behind⟩ := following_append_inj closes (fun text member other otherMember =>
            separable text (.tail _ member) other (.tail _ otherMember)) later
          exact ⟨rfl, behind⟩

end Lists

/-!
## Arrays and objects
-/

private theorem closes_array : Closes ']' := ⟨by decide, by decide⟩

private theorem closes_object : Closes '\x7d' := ⟨by decide, by decide⟩

private theorem begins_item {value : Value} (plain : value.Plain) :
    BeginsApart ']' (text value) := by
  obtain ⟨first, rest, chars, opens⟩ := exists_opening plain
  refine ⟨first, rest, chars, ?_⟩
  rintro rfl
  cases opens

def entryText (entry : String × String) : String := quote entry.1 ++ ":" ++ entry.2

private theorem toList_entryText (entry : String × String) :
    (entryText entry).toList = (quote entry.1).toList ++ ':' :: entry.2.toList := by
  rw [entryText, String.toList_append, String.toList_append, List.append_assoc]
  rfl

private theorem begins_entry (entry : String × String) :
    BeginsApart '\x7d' (entryText entry) := by
  rw [BeginsApart, toList_entryText, toList_quote]
  exact ⟨_, _, rfl, by decide⟩

private theorem entryText_injective : Function.Injective entryText := by
  rintro ⟨key, value⟩ ⟨other, kept⟩ same
  have chars := congrArg String.toList same
  rw [toList_entryText, toList_entryText] at chars
  obtain ⟨sameKey, behind⟩ := quote_append_inj chars
  exact Prod.ext sameKey (String.toList_inj.mp (List.tail_eq_of_cons_eq behind))

private theorem separable_entryText {entry other : String × String}
    (separable : Separable entry.2 other.2) : Separable (entryText entry) (entryText other) := by
  intro rest more stops otherStops same
  rw [toList_entryText, toList_entryText, List.append_assoc, List.append_assoc] at same
  obtain ⟨sameKey, behind⟩ := quote_append_inj same
  obtain ⟨sameValue, sameRest⟩ :=
    separable rest more stops otherStops (List.tail_eq_of_cons_eq behind)
  exact ⟨by rw [entryText, sameKey, sameValue, entryText], sameRest⟩

private theorem toList_array (items : List Value) :
    (text (.array items)).toList = '[' :: ((",".intercalate (items.map text)).toList ++ [']']) := by
  rw [text, itemTexts_eq_map, String.toList_append, String.toList_append, List.append_assoc]
  rfl

private theorem toList_object (entries : Entries Value) :
    (text (.object entries)).toList =
      '\x7b' :: ((",".intercalate ((sortedEntries entries).map entryText)).toList ++ ['\x7d']) := by
  rw [text, String.toList_append, String.toList_append, List.append_assoc]
  rfl

/-- Whatever follows two plain documents in texts that read the same, the documents are alike. -/
def Decodable (value : Value) : Prop :=
  ∀ other : Value, other.Plain → ∀ rest more, Stops rest → Stops more →
    (text value).toList ++ rest = (text other).toList ++ more →
      Value.Alike value other ∧ rest = more

section Decoding

variable {value other : Value} {items others : List Value} {entries others : Entries Value}
  {rest more : List Char}

private theorem Decodable.alike (decodable : Decodable value) (plain : other.Plain)
    (same : text value = text other) : Value.Alike value other := by
  refine (decodable other plain [] [] stops_nil stops_nil ?_).1
  rw [same]

private theorem Decodable.separable (decodable : Decodable value) (plain : other.Plain) :
    Separable (text value) (text other) := by
  intro rest more stops otherStops same
  obtain ⟨alike, behind⟩ := decodable other plain rest more stops otherStops same
  exact ⟨text_alike alike, behind⟩

private theorem decodable_array (plain : ∀ item ∈ items, item.Plain)
    (decodable : ∀ item ∈ items, Decodable item) : Decodable (.array items) := by
  intro other otherPlain rest more _ _ same
  have shapes := shape_eq_of_append (.array plain) otherPlain same
  cases otherPlain with
  | array otherPlain =>
      rename_i others
      rw [toList_array, toList_array, List.cons_append, List.cons_append, List.append_assoc,
        List.append_assoc] at same
      have begins : ∀ written ∈ items.map text, BeginsApart ']' written :=
        List.forall_mem_map.mpr fun item member => begins_item (plain item member)
      have othersBegin : ∀ written ∈ others.map text, BeginsApart ']' written :=
        List.forall_mem_map.mpr fun other member => begins_item (otherPlain other member)
      have separable : ∀ written ∈ items.map text, ∀ otherWritten ∈ others.map text,
          Separable written otherWritten :=
        List.forall_mem_map.mpr fun item member => List.forall_mem_map.mpr fun other otherMember =>
          (decodable item member).separable (otherPlain other otherMember)
      obtain ⟨texts, behind⟩ :=
        joined_append_inj closes_array begins othersBegin separable (List.tail_eq_of_cons_eq same)
      rw [← List.forall₂_eq_eq_eq, List.forall₂_map_left_iff, List.forall₂_map_right_iff,
        List.forall₂_iff_zip] at texts
      refine ⟨.array (List.forall₂_iff_zip.mpr ⟨texts.1, fun {item other} pair => ?_⟩), behind⟩
      obtain ⟨itemMember, otherMember⟩ := List.of_mem_zip pair
      exact (decodable item itemMember).alike (otherPlain other otherMember) (texts.2 pair)
  | _ => cases shapes

private theorem distinctKeys_written (distinct : entries.DistinctKeys) :
    (Entries.mapValues text entries).DistinctKeys :=
  distinct.of_keys (by simp [Entries.mapValues])

private theorem textKeys_written (texts : entries.TextKeys) :
    (Entries.mapValues text entries).TextKeys :=
  texts.of_keys (by simp [Entries.mapValues])

private theorem exists_source_of_mem_sortedEntries {entry : String × String}
    (distinct : entries.DistinctKeys) (texts : entries.TextKeys)
    (member : entry ∈ sortedEntries entries) : ∃ source ∈ entries, entry.2 = text source.2 := by
  rw [sortedEntries_eq_sortWritten, (sortWritten_perm_map (distinctKeys_written distinct)
    (textKeys_written texts)).mem_iff, Entries.mapValues, List.map_map] at member
  obtain ⟨source, sourceMember, rfl⟩ := List.mem_map.mp member
  exact ⟨source, sourceMember, rfl⟩

/-- Objects whose entries are sorted to the same have values of the same text under each name. -/
private theorem match_of_sortedEntries_eq (distinct : entries.DistinctKeys)
    (texts : entries.TextKeys) (othersDistinct : others.DistinctKeys)
    (othersTexts : others.TextKeys) (same : sortedEntries entries = sortedEntries others) :
    entries.Match (fun value other => text value = text other) others where
  distinct := distinct
  othersDistinct := othersDistinct
  texts := texts
  othersTexts := othersTexts
  found name := by
    rw [sortedEntries_eq_sortWritten, sortedEntries_eq_sortWritten] at same
    have perm := perm_of_sortWritten_eq (distinctKeys_written distinct) (textKeys_written texts)
      (distinctKeys_written othersDistinct) (textKeys_written othersTexts) same
    have written := (distinctKeys_written distinct).lookup_perm perm name
    rw [Entries.lookup_mapValues, Entries.lookup_mapValues] at written
    generalize entries.lookup (.text name) = value at written ⊢
    generalize others.lookup (.text name) = other at written ⊢
    cases value with
    | none =>
        cases other with
        | none => exact .none
        | some other => cases written
    | some value =>
        cases other with
        | none => cases written
        | some other => exact .some (Option.some.inj written)

private theorem decodable_object (distinct : entries.DistinctKeys) (texts : entries.TextKeys)
    (plain : ∀ entry ∈ entries, entry.2.Plain)
    (decodable : ∀ entry ∈ entries, Decodable entry.2) : Decodable (.object entries) := by
  intro other otherPlain rest more _ _ same
  have shapes := shape_eq_of_append (.object distinct texts plain) otherPlain same
  cases otherPlain with
  | object othersDistinct othersTexts othersPlain =>
      rename_i others
      rw [toList_object, toList_object, List.cons_append, List.cons_append, List.append_assoc,
        List.append_assoc] at same
      have begins (entries : Entries Value) :
          ∀ written ∈ (sortedEntries entries).map entryText, BeginsApart '\x7d' written :=
        List.forall_mem_map.mpr fun entry _ => begins_entry entry
      have separable : ∀ written ∈ (sortedEntries entries).map entryText,
          ∀ otherWritten ∈ (sortedEntries others).map entryText,
            Separable written otherWritten := by
        refine List.forall_mem_map.mpr fun entry member => List.forall_mem_map.mpr
          fun otherEntry otherMember => separable_entryText ?_
        obtain ⟨source, sourceMember, value⟩ :=
          exists_source_of_mem_sortedEntries distinct texts member
        obtain ⟨otherSource, otherSourceMember, otherValue⟩ :=
          exists_source_of_mem_sortedEntries othersDistinct othersTexts otherMember
        rw [value, otherValue]
        exact (decodable source sourceMember).separable (othersPlain otherSource otherSourceMember)
      obtain ⟨written, behind⟩ :=
        joined_append_inj closes_object (begins entries) (begins others) separable
          (List.tail_eq_of_cons_eq same)
      have sorted := List.map_injective_iff.mpr entryText_injective written
      have matching :=
        match_of_sortedEntries_eq distinct texts othersDistinct othersTexts sorted
      refine ⟨Value.Alike.object_iff.mpr { matching with found := fun name => ?_ }, behind⟩
      rcases matching.cases name with
        ⟨absent, otherAbsent⟩ | ⟨value, other, found, otherFound, pair⟩
      · rw [absent, otherAbsent]
        exact .none
      · rw [found, otherFound]
        refine .some ((decodable _ (Entries.mem_of_lookup_text found)).alike ?_ pair)
        exact othersPlain _ (Entries.mem_of_lookup_text otherFound)
  | _ => cases shapes

/-- The text of a plain document shows where it ends, and which document it is. -/
theorem decodable_of_plain (plain : value.Plain) : Decodable value := by
  induction plain with
  | null =>
      intro other otherPlain rest more _ _ same
      have shapes := shape_eq_of_append .null otherPlain same
      cases otherPlain with
      | null => exact ⟨.scalar _, List.append_cancel_left same⟩
      | _ => cases shapes
  | bool truth =>
      intro other otherPlain rest more _ _ same
      have shapes := shape_eq_of_append (.bool truth) otherPlain same
      cases otherPlain with
      | bool otherTruth =>
          cases shapes
          exact ⟨.scalar _, List.append_cancel_left same⟩
      | _ => cases shapes
  | int number =>
      intro other otherPlain rest more stops otherStops same
      have shapes := shape_eq_of_append (.int number) otherPlain same
      cases otherPlain with
      | int otherNumber =>
          obtain ⟨rfl, behind⟩ := int_append_inj stops otherStops same
          exact ⟨.scalar _, behind⟩
      | _ => cases shapes
  | text content =>
      intro other otherPlain rest more _ _ same
      have shapes := shape_eq_of_append (.text content) otherPlain same
      cases otherPlain with
      | text otherContent =>
          obtain ⟨rfl, behind⟩ := quote_append_inj same
          exact ⟨.scalar _, behind⟩
      | _ => cases shapes
  | array plain decodable => exact decodable_array plain decodable
  | object distinct texts plain decodable =>
      exact decodable_object distinct texts plain decodable

theorem text_eq_iff_alike (plain : value.Plain) (otherPlain : other.Plain) :
    text value = text other ↔ Value.Alike value other :=
  ⟨(decodable_of_plain plain).alike otherPlain, text_alike⟩

end Decoding

end Canonical

end Uplift
