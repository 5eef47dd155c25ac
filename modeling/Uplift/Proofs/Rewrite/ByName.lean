import Uplift.Proofs.Value.Alike
import Uplift.Proofs.Value.Reading
import Uplift.Rewrite.Tree

/-!
# Rules that look fields up by their names

Such a rule asks for the same on objects that differ in the order of their entries alone, and what
it amends stays alike.
-/

set_option autoImplicit false

namespace Uplift

open Value (Alike)

/-- The values that an amendment sets have texts as keys. -/
def Amendment.Plain (amendment : Amendment) : Prop :=
  ∀ field value, Edit.set field value ∈ amendment.edits → Alike value value

/-- A rule looks fields up by their names, and what it sets has texts as keys. -/
structure FallibleRule.ByName (rule : FallibleRule) : Prop where
  same : ∀ stepId (one other : Entries Outline),
    (∀ name, one.lookup (.text name) = other.lookup (.text name)) →
      rule stepId one = rule stepId other
  plain : ∀ stepId entries amendment, rule stepId entries = .ok amendment → amendment.Plain

/-- All rules of a walk over properties look fields up by their names. -/
def PropertyRules.ByName (ruleOf : String → Option FallibleRule) : Prop :=
  ∀ elementType rule, ruleOf elementType = some rule → FallibleRule.ByName rule

/-- The rules of a treatment look fields up by their names. -/
def Treatment.ByName : Treatment → Prop
  | promote => True
  | everyObject rule | eachElement rule | eachOperation rule => FallibleRule.ByName rule
  | elementProperties ruleOf => PropertyRules.ByName ruleOf

/-!
## Amendments of alike objects
-/

section Amendments

variable {entries others : Entries Value} {amendment : Amendment}

theorem Edit.match_apply (same : entries.Match Alike others) {edit : Edit Value}
    (plain : ∀ field value, edit = .set field value → Alike value value) :
    Entries.Match Alike (Edit.apply entries edit) (Edit.apply others edit) := by
  cases edit with
  | drop field => exact same.erase _
  | set field value => exact same.put field (plain field value rfl)
  | rename old new =>
      simp only [Edit.apply]
      rcases same.cases old with ⟨absent, otherAbsent⟩ | ⟨_, _, found, otherFound, alike⟩
      · rw [absent, otherAbsent]
        exact same
      · rw [found, otherFound]
        exact (same.erase _).put new alike

theorem Amendment.Plain.match_apply (plain : amendment.Plain)
    (same : entries.Match Alike others) :
    Entries.Match Alike (amendment.apply entries) (amendment.apply others) := by
  unfold Amendment.Plain at plain
  unfold Amendment.apply
  generalize amendment.edits = edits at plain
  induction edits generalizing entries others with
  | nil => exact same
  | cons edit rest ih =>
      have first : Entries.Match Alike (Edit.apply entries edit) (Edit.apply others edit) :=
        Edit.match_apply same fun field value set => plain field value (set ▸ .head _)
      exact ih first fun field value member => plain field value (.tail _ member)

theorem Rewrite.lookup_outlines_eq (same : entries.Match Alike others) (name : String) :
    (Rewrite.outlines entries).lookup (.text name) =
      (Rewrite.outlines others).lookup (.text name) := by
  rw [Rewrite.outlines, Rewrite.outlines, Entries.lookup_mapValues, Entries.lookup_mapValues]
  rcases same.cases name with ⟨absent, otherAbsent⟩ | ⟨_, _, found, otherFound, alike⟩
  · rw [absent, otherAbsent]
  · rw [found, otherFound, Option.map_some, Option.map_some, alike.outline_eq]

/-- What is read of matching objects is the same. -/
theorem Rewrite.read_outlines_eq (same : entries.Match Alike others) :
    Treatment.Visit.read (Rewrite.outlines entries) =
      Treatment.Visit.read (Rewrite.outlines others) := by
  simp only [Treatment.Visit.read, Outline.textAt, Rewrite.lookup_outlines_eq same]

/-- A rule that looks fields up by their names asks for the same on matching objects. -/
theorem Rewrite.ask_eq {rule : FallibleRule} (byName : rule.ByName) (stepId : String)
    (same : entries.Match Alike others) :
    Rewrite.ask (rule stepId) entries = Rewrite.ask (rule stepId) others := by
  rw [Rewrite.ask, Rewrite.ask, byName.same stepId _ _ (Rewrite.lookup_outlines_eq same)]

end Amendments

end Uplift
