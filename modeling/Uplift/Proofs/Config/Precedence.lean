import Uplift.Config.Defaults
import Uplift.Proofs.Config.Merge
import Uplift.Proofs.Value.Reach

/-!
# Which side has the say at a path

What a merge makes of both sides at a path is, as far as the overrides have it, again what the rules
make of what both sides have there. So the overrides decide wherever they have something else than
an object, and nothing of the base is left behind it. Behind a key that an object of the overrides
lacks the base decides.
-/

set_option autoImplicit false

namespace Uplift.Config

open Entries

variable {base merged : Option Value} {override given : Value} {keys : List Scalar}

theorem MergesUnder.eq_of_absent (under : MergesUnder Merges base none merged) : merged = base := by
  cases under
  rfl

/-- Anything but an object takes the place of whatever the base has there. -/
theorem MergesUnder.eq_of_not_object (under : MergesUnder Merges base (some given) merged)
    (leaf : given.isObject = false) : merged = some given := by
  cases under with
  | added => rfl
  | @merged found _ _ made =>
      have plain : (found.isObject && given.isObject) = false := by
        rw [leaf, Bool.and_false]
      rw [((merges_iff_of_not_objects plain).mp made).2]

/-- An object of the override becomes an object, whatever the base has there. -/
theorem MergesUnder.exists_object (under : MergesUnder Merges base (some given) merged)
    (opened : given.isObject = true) : ∃ value, merged = some value ∧ value.isObject = true := by
  cases under with
  | added => exact ⟨given, rfl, opened⟩
  | merged made =>
      cases made with
      | replaced => exact ⟨given, rfl, opened⟩
      | objects => exact ⟨_, rfl, rfl⟩

/-- One key further down, the rules of a merge hold of what both sides have there. -/
theorem MergesUnder.below (under : MergesUnder Merges base (some given) merged)
    (opened : given.isObject = true) (key : Scalar) :
    MergesUnder Merges (base.bind (·.entries.lookup key)) (given.entries.lookup key)
      (merged.bind (·.entries.lookup key)) := by
  have alone (value : Option Value) : MergesUnder Merges none value value := by
    cases value with
    | none => exact .kept _
    | some value => exact .added value
  cases under with
  | added => exact alone _
  | @merged found _ _ made =>
      cases made with
      | replaced plain _ =>
          rw [opened, Bool.and_true] at plain
          cases found with
          | object entries => cases plain
          | scalar scalar | array items => exact alone _
      | objects _ _ under => exact under key

/-- Along a path that the overrides have, the rules of a merge hold to its end. -/
theorem MergesUnder.reach (under : MergesUnder Merges base (some override) merged)
    (reached : override.reach? keys = some given) :
    MergesUnder Merges (base.bind (Value.reach? keys)) (some given)
      (merged.bind (Value.reach? keys)) := by
  induction keys generalizing base override merged with
  | nil =>
      rw [Value.reach?_nil] at reached
      cases reached
      rwa [funext Value.reach?_nil, Option.bind_fun_some, Option.bind_fun_some]
  | cons key rest ih =>
      rw [Value.reach?_cons] at reached
      obtain ⟨inner, found, reachedInner⟩ := Option.bind_eq_some_iff.mp reached
      have opened : override.isObject = true := by
        cases override with
        | object entries => rfl
        | scalar scalar | array items => cases found
      have below := under.below opened key
      rw [found] at below
      simpa only [funext (Value.reach?_cons key rest), Option.bind_assoc] using
        ih below reachedInner

theorem Merges.reach {base merged : Value} (made : Merges base override merged)
    (reached : override.reach? keys = some given) :
    MergesUnder Merges (base.reach? keys) (some given) (merged.reach? keys) :=
  MergesUnder.reach (.merged made) reached

/-- Which side has the say at each path of a merged configuration. -/
structure Prevails (base override merged : Value) : Prop where
  given : ∀ keys value, override.reach? keys = some value → value.isObject = false →
    merged.reach? keys = some value
  opened : ∀ keys value, override.reach? keys = some value → value.isObject = true →
    ∃ opened, merged.reach? keys = some opened ∧ opened.isObject = true
  /-- Behind a key that the override lacks, all is as in the base. -/
  kept : ∀ keys (entries : Entries Value) key, override.reach? keys = some (.object entries) →
    entries.lookup key = none →
      ∀ rest, merged.reach? (keys ++ key :: rest) = base.reach? (keys ++ key :: rest)
  /-- Behind what is no object there is nothing that the base could have had there. -/
  ended : ∀ keys value, override.reach? keys = some value → value.isObject = false →
    ∀ key rest, merged.reach? (keys ++ key :: rest) = none

/-- At every path of a merged configuration the overrides have the say as far as they go, and the
base has it elsewhere. -/
theorem merge_prevails {base overrides : Entries Value} {merged : Value}
    (baseDistinct : (Value.object base).DistinctKeys)
    (distinct : (Value.object overrides).DistinctKeys)
    (done : merge (.object base) (.object overrides) = .ok merged) :
    Prevails (.object base) (.object overrides) merged := by
  have made := (merge_eq_ok_iff baseDistinct distinct).mp done
  have given : ∀ keys value, (Value.object overrides).reach? keys = some value →
      value.isObject = false → merged.reach? keys = some value := by
    intro keys value reached leaf
    exact (made.reach reached).eq_of_not_object leaf
  refine ⟨given, ?_, ?_, ?_⟩
  · intro keys value reached opened
    exact (made.reach reached).exists_object opened
  · intro keys entries key reached lacking rest
    have below := (made.reach reached).below rfl key
    rw [Value.entries, lacking] at below
    have same := below.eq_of_absent
    rw [Value.reach?_append, Value.reach?_append, funext (Value.reach?_cons key rest),
      ← Option.bind_assoc, ← Option.bind_assoc, same]
  · intro keys value reached leaf key rest
    rw [Value.reach?_append, given keys value reached leaf, Option.bind_some,
      Value.reach?_cons_of_not_object leaf]

/-- A configuration as it is packaged: a section that says nothing yet, a list, and a family. -/
def packagedLimits : Entries Value :=
  [(.text "limits", .null), (.text "tags", .array [.text "old"]),
    (.text "families", object [("chain", object [("id", .text "id"), ("name", .text "name")])])]

/-- Overrides of it that open the section, replace the list and rename one field. -/
def siteLimits : Entries Value :=
  [(.text "families", object [("chain", object [("id", .text "uuid")])]),
    (.text "limits", object [("low", .int 1)]), (.text "tags", .array [])]

theorem merge_prevails_siteLimits :
    ∃ merged, merge (.object packagedLimits) (.object siteLimits) = .ok merged ∧
      merged.reach? [.text "families", .text "chain", .text "id"] = some (.text "uuid") ∧
      merged.reach? [.text "families", .text "chain", .text "name"] = some (.text "name") ∧
      merged.reach? [.text "limits", .text "low"] = some (.int 1) ∧
      merged.reach? [.text "limits", .text "high"] = none ∧
      merged.reach? [.text "tags"] = some (.array []) ∧
      merged.reach? [.text "tags", .int 0] = none := by
  have packaged : (Value.object packagedLimits).DistinctKeys := by
    simp [packagedLimits, object, Entries.DistinctKeys, Scalar.key]
  have site : (Value.object siteLimits).DistinctKeys := by
    simp [siteLimits, object, Entries.DistinctKeys, Scalar.key]
  refine ⟨_, rfl, ?_⟩
  have prevails := merge_prevails packaged site rfl
  exact ⟨prevails.given _ _ rfl rfl, prevails.kept [.text "families", .text "chain"] _ _ rfl rfl [],
    prevails.given _ _ rfl rfl, prevails.kept [.text "limits"] _ _ rfl rfl [],
    prevails.given _ _ rfl rfl, prevails.ended [.text "tags"] _ rfl rfl _ []⟩

end Uplift.Config
