import Uplift.Proofs.Entries
import Uplift.Proofs.Versions.Listing
import Uplift.Proofs.Versions.Resolution
import Uplift.Proofs.Writable
import Uplift.Versions.Marker

/-!
# Markers are found where they are written

A marker changes a single entry of a document, and this entry is the one that decides what the
document declares, whatever the names of the fields are: they may also coincide. So a document with
a marker declares the versions that the marker lists.
-/

set_option autoImplicit false

namespace Uplift.Marker

/-- A document holds a marker and is otherwise what it was before. The marker stands in the content
if that is an object, and in the root if not. -/
def Marks (fields : FieldNames) (text : String) (before after : Entries Value) : Prop :=
  match before.lookup (.text fields.content) with
  | some (.object content) =>
      Entries.DifferAt (.text fields.content) before after ∧
        ∃ marked : Entries Value,
          after.lookup (.text fields.content) = some (.object marked) ∧
            Entries.DifferAt (.text fields.migrations) content marked ∧
              marked.lookup (.text fields.migrations) = some (.text text)
  | _ =>
      Entries.DifferAt (.text fields.migrations) before after ∧
        after.lookup (.text fields.migrations) = some (.text text)

/-- Writing a marker changes the entry of the marker alone. -/
theorem put_marks (fields : FieldNames) (text : String) (entries : Entries Value) :
    ∃ marked, put fields text (.object entries) = .object marked ∧
      Marks fields text entries marked := by
  have inRoot : Entries.DifferAt (.text fields.migrations) entries
        (entries.put (.text fields.migrations) (.text text)) ∧
      Entries.lookup (.text fields.migrations)
        (entries.put (.text fields.migrations) (.text text)) = some (.text text) :=
    ⟨Entries.differAt_put .., Entries.lookup_put_same ..⟩
  unfold Marks put
  cases found : entries.lookup (.text fields.content) with
  | none => exact ⟨_, by simp only [found], inRoot⟩
  | some value =>
      cases value with
      | scalar value => exact ⟨_, by simp only [found], inRoot⟩
      | array items => exact ⟨_, by simp only [found], inRoot⟩
      | object content =>
          exact ⟨_, by simp only [found], Entries.differAt_put .., _, Entries.lookup_put_same ..,
            Entries.differAt_put .., Entries.lookup_put_same ..⟩

theorem isObject_put {fields : FieldNames} {text : String} {document : Value}
    (root : document.isObject = true) : (put fields text document).isObject = true := by
  cases document with
  | scalar value => cases root
  | array items => cases root
  | object entries =>
      obtain ⟨marked, written, _⟩ := put_marks fields text entries
      rw [written]
      rfl

theorem isWritable_put {fields : FieldNames} {document : Value} (text : String)
    (writable : document.isWritable = true) : (put fields text document).isWritable = true := by
  unfold put
  split
  · rename_i entries
    have entriesWritable := Value.isWritable_object_iff.mp writable
    split
    · rename_i content found
      have contentWritable := Value.isWritable_object_iff.mp (entriesWritable.lookup found)
      exact Value.isWritable_object_iff.mpr (entriesWritable.putField _
        (Value.isWritable_object_iff.mpr (contentWritable.putField _ rfl)))
    · exact Value.isWritable_object_iff.mpr (entriesWritable.putField _ rfl)
  · exact writable

/-- The entry of a marker decides what the document declares. -/
theorem find?_of_marks {fields : FieldNames} {text : String} {before after : Entries Value}
    (marks : Marks fields text before after) :
    Declaring.find? fields after = some (.contentList (.text text)) ∨
      Declaring.find? fields after = some (.rootList (.text text)) := by
  have inRoot (content : ∀ inner, before.lookup (.text fields.content) ≠ some (.object inner))
      (differ : Entries.DifferAt (.text fields.migrations) before after)
      (listed : after.lookup (.text fields.migrations) = some (.text text)) :
      Declaring.find? fields after = some (.rootList (.text text)) := by
    have rootDecides : Declaring.inRoot? fields after = some (.rootList (.text text)) := by
      simp [Declaring.inRoot?, listed]
    have noObject : ∀ inner, after.lookup (.text fields.content) ≠ some (.object inner) := by
      intro inner found
      by_cases same : fields.migrations = fields.content
      · rw [← same, listed] at found
        cases found
      · rw [differ.elsewhere _ (by simpa using same)] at found
        exact content inner found
    unfold Declaring.find?
    split
    · rename_i inner found
      exact absurd found (noObject inner)
    · exact rootDecides
  unfold Marks at marks
  split at marks
  · obtain ⟨_, marked, found, _, listed⟩ := marks
    left
    simp [Declaring.find?, found, listed]
  · rename_i noObject
    obtain ⟨differ, listed⟩ := marks
    exact .inr (inRoot (fun inner found => noObject inner found) differ listed)

/-- A document with a marker declares the listed versions in ascending order. -/
theorem resolve_of_marks {fields : FieldNames} {versions : List Int}
    {before after : Entries Value} (family : String) (subject : Subject)
    (marks : Marks fields (Listing.format versions) before after)
    (natural : ∀ version ∈ versions, 0 ≤ version)
    (writable : Listing.isWritable versions = true) :
    ∃ satisfied,
      (Resolution.resolve family (Strategy.standard fields) subject (.object after)).outcome =
          .ok satisfied ∧
        satisfied.declaration = .explicit (Ascending.ofList versions) := by
  rw [Resolution.resolve_standard_outcome]
  have parsed := Listing.parse_format fields.migrations natural writable
  rcases find?_of_marks marks with decided | decided
  · rw [decided]
    simp only [Declaring.read, parsed]
    exact ⟨_, rfl, rfl⟩
  · rw [decided]
    simp only [Declaring.read, parsed]
    exact ⟨_, rfl, rfl⟩

end Uplift.Marker
