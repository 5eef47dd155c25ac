import Uplift.Proofs.Entries.Match
import Uplift.Proofs.Value
import Uplift.Proofs.Value.Distinct
import Uplift.Rewrite.Tree

/-!
# Trees that differ in the order of entries

Two trees are alike if they are equal up to the order in which the entries of objects stand, at any
depth. All keys are texts, and no object has a key twice. What a rule sees of alike objects is the
same.
-/

set_option autoImplicit false

namespace Uplift

/-- Two trees are equal up to the order of entries: of two objects one can be arranged so that both
have the same keys, all of them different texts, and alike values under each. -/
inductive Value.Alike : Value → Value → Prop where
  | scalar (value : Scalar) : Alike (.scalar value) (.scalar value)
  | array {items others : List Value} : List.Forall₂ Alike items others →
      Alike (.array items) (.array others)
  | object {entries others arranged : Entries Value} :
      entries.DistinctKeys → entries.TextKeys → others.Perm arranged →
      entries.map (·.1) = arranged.map (·.1) →
      List.Forall₂ Alike (entries.map (·.2)) (arranged.map (·.2)) →
      Alike (.object entries) (.object others)

namespace Value.Alike

variable {value other : Value} {entries others : Entries Value}

theorem array_iff {items others : List Value} :
    Alike (.array items) (.array others) ↔ List.Forall₂ Alike items others :=
  ⟨fun alike => by cases alike with | array pairs => exact pairs, .array⟩

/-- Two objects are alike exactly if they have the same names and alike values under each. -/
theorem object_iff : Alike (.object entries) (.object others) ↔ entries.Match Alike others := by
  constructor
  · intro alike
    cases alike with
    | object distinct texts perm keys values =>
        exact Entries.match_of_arranged distinct texts
          (Entries.forall₂_matchEntry_iff.mpr ⟨keys, values⟩) perm
  · intro same
    obtain ⟨arranged, perm, pairs⟩ := same.arranged
    obtain ⟨keys, values⟩ := Entries.forall₂_matchEntry_iff.mp pairs
    exact .object same.distinct same.texts perm keys values

theorem exists_array {items : List Value} (alike : Alike (.array items) other) :
    ∃ others, other = .array others ∧ List.Forall₂ Alike items others := by
  cases alike with
  | array pairs => exact ⟨_, rfl, pairs⟩

theorem exists_object (alike : Alike (.object entries) other) :
    ∃ others : Entries Value, other = .object others ∧ entries.Match Alike others := by
  cases alike with
  | object distinct texts perm keys values =>
      exact ⟨_, rfl, object_iff.mp (.object distinct texts perm keys values)⟩

theorem outline_eq (alike : Alike value other) : value.outline = other.outline := by
  cases value with
  | scalar scalar =>
      cases alike
      rfl
  | array items =>
      obtain ⟨others, rfl, pairs⟩ := alike.exists_array
      cases pairs <;> rfl
  | object entries =>
      obtain ⟨others, rfl, same⟩ := alike.exists_object
      exact congrArg Outline.object same.isEmpty_eq

theorem wording_eq (alike : Alike value other) : value.wording = other.wording := by
  cases alike <;> rfl

/-- Only trees in which no object has a key twice are alike. -/
theorem distinctKeys (alike : Alike value other) : value.DistinctKeys := by
  induction value using Value.induction generalizing other with
  | scalar scalar => exact .scalar scalar
  | array items ih =>
      obtain ⟨others, rfl, pairs⟩ := alike.exists_array
      refine .array fun item member => ?_
      obtain ⟨other, _, pair⟩ := exists_of_forall₂ pairs member
      exact ih item member pair
  | object entries ih =>
      obtain ⟨others, rfl, same⟩ := alike.exists_object
      refine .object same.distinct fun entry member => ?_
      obtain ⟨other, _, _, pair⟩ := same.exists_other member
      exact ih entry member pair

end Value.Alike

/-- A field of matching objects holds an object in both of them, or in neither. -/
theorem Entries.Match.cases_object {entries others : Entries Value}
    (same : entries.Match Value.Alike others) (name : String) :
    ((¬ ∃ inner, entries.lookup (.text name) = some (.object inner)) ∧
        ¬ ∃ inner, others.lookup (.text name) = some (.object inner)) ∨
      ∃ inner otherInner : Entries Value, entries.lookup (.text name) = some (.object inner) ∧
        others.lookup (.text name) = some (.object otherInner) ∧
          inner.Match Value.Alike otherInner := by
  rcases same.cases name with ⟨absent, otherAbsent⟩ | ⟨value, other, found, otherFound, alike⟩
  · exact .inl (by simp [absent, otherAbsent])
  · rw [found, otherFound]
    cases alike with
    | scalar => exact .inl (by simp)
    | array => exact .inl (by simp)
    | object distinct texts perm keys values =>
        exact .inr ⟨_, _, rfl, rfl,
          Value.Alike.object_iff.mp (.object distinct texts perm keys values)⟩

end Uplift
