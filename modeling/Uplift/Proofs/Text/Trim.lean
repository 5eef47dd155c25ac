import Mathlib.Data.List.TakeWhile
import Uplift.Text.Blank

/-!
# Trimmed texts

Trimming cuts white space from the two ends of a text, all of it and nothing else. There is only one
text that is left of another in this way.
-/

set_option autoImplicit false

namespace Uplift.Text

/-- A text stands in another between white space, and neither begins nor ends with any. -/
structure Trims (text core : String) : Prop where
  around : ∃ before after, text.toList = before ++ core.toList ++ after ∧
    (∀ char ∈ before, isBlankChar char = true) ∧ ∀ char ∈ after, isBlankChar char = true
  front : ∀ char ∈ core.toList.head?, isBlankChar char = false
  back : ∀ char ∈ core.toList.getLast?, isBlankChar char = false

private theorem dropWhile_blanks {blanks rest : List Char}
    (blank : ∀ char ∈ blanks, isBlankChar char = true)
    (visible : ∀ char ∈ rest.head?, isBlankChar char = false) :
    (blanks ++ rest).dropWhile isBlankChar = rest := by
  rw [List.dropWhile_append_of_pos blank]
  cases rest with
  | nil => rfl
  | cons char tail => simp [visible char rfl]

private theorem exists_blanks (chars : List Char) :
    ∃ blanks rest, chars = blanks ++ rest ∧ (∀ char ∈ blanks, isBlankChar char = true) ∧
      ∀ char ∈ rest.head?, isBlankChar char = false := by
  refine ⟨chars.takeWhile isBlankChar, chars.dropWhile isBlankChar,
    List.takeWhile_append_dropWhile.symm, List.all_eq_true.mp List.all_takeWhile, ?_⟩
  intro char first
  have visible := List.head?_dropWhile_not isBlankChar chars
  rw [Option.mem_def] at first
  simpa only [first] using visible

theorem Trims.trim_eq {text core : String} (trims : Trims text core) : trim text = core := by
  obtain ⟨⟨before, after, split, beforeBlank, afterBlank⟩, front, back⟩ := trims
  have trimmed : trimChars text.toList = core.toList := by
    rw [trimChars, split]
    -- An empty core has no character that stops the first cut, which takes the end along.
    cases shape : core.toList with
    | nil =>
        have blank : ∀ char ∈ before ++ after, isBlankChar char = true := by
          simpa [or_imp, forall_and] using ⟨beforeBlank, afterBlank⟩
        rw [List.append_nil, List.dropWhile_eq_nil_iff.mpr blank]
        rfl
    | cons char rest =>
        have visible : ∀ first ∈ (core.toList ++ after).head?, isBlankChar first = false := by
          simpa [shape] using front char (by simp [shape])
        have afterBlankBack : ∀ char ∈ after.reverse, isBlankChar char = true := by
          simpa using afterBlank
        rw [← shape, List.append_assoc, dropWhile_blanks beforeBlank visible,
          List.reverse_append, dropWhile_blanks afterBlankBack (by simpa using back),
          List.reverse_reverse]
  rw [trim, trimmed, String.ofList_toList]

private theorem exists_trims (text : String) : ∃ core, Trims text core := by
  obtain ⟨before, rest, split, beforeBlank, front⟩ := exists_blanks text.toList
  obtain ⟨after, core, splitBack, afterBlank, back⟩ := exists_blanks rest.reverse
  have whole : rest = core.reverse ++ after.reverse := by
    rw [← List.reverse_append, ← splitBack, List.reverse_reverse]
  refine ⟨String.ofList core.reverse, ⟨before, after.reverse, ?_, beforeBlank, ?_⟩, ?_, ?_⟩
  · rw [String.toList_ofList, List.append_assoc, ← whole, split]
  · simpa using afterBlank
  · intro char first
    refine front char ?_
    rw [String.toList_ofList, Option.mem_def] at first
    rw [whole, List.head?_append, first]
    rfl
  · simpa using back

theorem trim_eq_iff {text core : String} : trim text = core ↔ Trims text core := by
  constructor
  · rintro rfl
    obtain ⟨core, trims⟩ := exists_trims text
    rwa [trims.trim_eq]
  · exact Trims.trim_eq

end Uplift.Text
