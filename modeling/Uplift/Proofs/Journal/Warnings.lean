import Uplift.Journal

/-!
# Warnings of a step

Warnings are grouped by step as they come in. What stands in the group of a step is what was warned
of in that step, in order; so the groups of two journals that differ in the order of their notes
differ in the order of messages alone.
-/

set_option autoImplicit false

namespace Uplift.Journal

/-- The messages that stand in the group of a step. -/
def warningsOf (stepId : String) (journal : Journal) : List String :=
  (journal.warnings.lookup stepId).getD []

/-- The message of a warning, if it is one of the step. -/
def messageOf? (stepId : String) (warning : String × String) : Option String :=
  if stepId = warning.1 then some warning.2 else none

theorem lookup_pair {α : Type} (sought other : String) (value : α) (rest : List (String × α)) :
    ((other, value) :: rest).lookup sought =
      if sought = other then some value else rest.lookup sought := by
  by_cases same : sought = other
  · simp only [List.lookup_cons, same, beq_self_eq_true, if_true]
  · simp only [List.lookup_cons, beq_eq_false_iff_ne.mpr same, same, if_false]

/-- A warning adds its message to the group of its step, and nothing to any other. -/
theorem lookup_addWarning (groups : List (String × List String)) (warning : String × String)
    (sought : String) :
    ((addWarning groups warning.1 warning.2).lookup sought).getD [] =
      (groups.lookup sought).getD [] ++ (messageOf? sought warning).toList := by
  unfold messageOf?
  induction groups with
  | nil =>
      rw [addWarning, lookup_pair]
      split <;> rfl
  | cons group rest ih =>
      obtain ⟨other, messages⟩ := group
      rw [addWarning, lookup_pair]
      by_cases here : other = warning.1
      · rw [if_pos here, lookup_pair, here]
        split
        · rfl
        · exact (List.append_nil _).symm
      · rw [if_neg here, lookup_pair]
        by_cases same : sought = other
        · have apart : sought ≠ warning.1 := fun step => here (same ▸ step)
          rw [if_pos same, if_pos same, if_neg apart]
          exact (List.append_nil _).symm
        · rw [if_neg same, if_neg same]
          exact ih

theorem warningsOf_eq_filterMap (stepId : String) (journal : Journal) :
    journal.warningsOf stepId =
      (journal.filterMap Note.toWarning?).filterMap (messageOf? stepId) := by
  have gathered (warnings : List (String × String)) (groups : List (String × List String)) :
      ((warnings.foldl (fun groups warning => addWarning groups warning.1 warning.2) groups).lookup
        stepId).getD [] = (groups.lookup stepId).getD [] ++
          warnings.filterMap (messageOf? stepId) := by
    induction warnings generalizing groups with
    | nil => rw [List.foldl_nil, List.filterMap_nil, List.append_nil]
    | cons warning rest ih =>
        rw [List.foldl_cons, ih, lookup_addWarning, List.append_assoc]
        cases noted : messageOf? stepId warning with
        | none => rw [List.filterMap_cons_none noted]; rfl
        | some message => rw [List.filterMap_cons_some noted]; rfl
  exact gathered _ []

/-- The order of notes has no part in what was warned of in a step. -/
theorem perm_warningsOf {journal other : Journal} (perm : journal.Perm other) (stepId : String) :
    (journal.warningsOf stepId).Perm (other.warningsOf stepId) := by
  rw [warningsOf_eq_filterMap, warningsOf_eq_filterMap]
  exact (perm.filterMap _).filterMap _

end Uplift.Journal
