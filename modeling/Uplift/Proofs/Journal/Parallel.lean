import Uplift.Proofs.Journal

/-!
# Actions in parallel

Two actions run in parallel if they make the same notes in the same order, also if they fail, and
what they fail with is the same. If they succeed their values are related. Where that relation is a
further action, it does not show in the end which of the two came first.
-/

set_option autoImplicit false

namespace Uplift.Logged

variable {ε α β γ δ : Type} {related : α → β → Prop} {image : γ → δ → Prop}
  {action : Logged ε α} {other : Logged ε β}

/-- Two actions make the same notes, and succeed with related values or fail with one failure. -/
inductive Parallel (related : α → β → Prop) : Logged ε α → Logged ε β → Prop where
  | ok {notes : Journal} {value : α} {result : β} : related value result →
      Parallel related ⟨notes, .ok value⟩ ⟨notes, .ok result⟩
  | error {notes : Journal} {failure : ε} :
      Parallel related ⟨notes, .error failure⟩ ⟨notes, .error failure⟩

namespace Parallel

theorem pure {value : α} {result : β} (pair : related value result) :
    Parallel (ε := ε) related (pure value) (pure result) :=
  .ok pair

theorem refl (action : Logged ε α) :
    Parallel (fun value result => value = result ∧ action.outcome = .ok value) action action := by
  obtain ⟨notes, outcome⟩ := action
  cases outcome with
  | error failure => exact .error
  | ok value => exact .ok ⟨rfl, rfl⟩

theorem imp {wider : α → β → Prop} (parallel : Parallel related action other)
    (widens : ∀ value result, action.outcome = .ok value → related value result →
      wider value result) : Parallel wider action other := by
  cases parallel with
  | ok pair => exact .ok (widens _ _ rfl pair)
  | error => exact .error

/-- What goes on in parallel from parallel actions is parallel. -/
theorem bind (parallel : Parallel related action other) {next : α → Logged ε γ}
    {otherNext : β → Logged ε δ}
    (continues : ∀ value result, action.outcome = .ok value → related value result →
      Parallel image (next value) (otherNext result)) :
    Parallel image (action >>= next) (other >>= otherNext) := by
  cases parallel with
  | error => exact .error
  | @ok notes value result pair =>
      have onward := continues value result rfl pair
      rw [bind_eq_of_ok _ rfl, bind_eq_of_ok _ rfl]
      revert onward
      generalize next value = later
      generalize otherNext result = otherLater
      rintro (images | _)
      · exact .ok images
      · exact .error

/-- The second of two parallel actions may go on with a change of its value. -/
theorem bind_pure (parallel : Parallel related action other) {change : β → δ}
    {through : α → δ → Prop}
    (changes : ∀ value result, action.outcome = .ok value → related value result →
      through value (change result)) :
    Parallel through action (other >>= fun result => Pure.pure (change result)) := by
  have onward : Parallel through (action >>= Pure.pure)
      (other >>= fun result => Pure.pure (change result)) :=
    parallel.bind fun value result outcome pair => pure (changes value result outcome pair)
  rwa [Logged.bind_pure] at onward

/-- Actions that begin with one action are parallel if they are after it. -/
theorem bind_same (first : Logged ε α) {next : α → Logged ε γ} {otherNext : α → Logged ε δ}
    (continues : ∀ value, first.outcome = .ok value →
      Parallel image (next value) (otherNext value)) :
    Parallel image (first >>= next) (first >>= otherNext) := by
  refine (refl first).bind fun value result _ same => ?_
  obtain ⟨rfl, outcome⟩ := same
  exact continues value outcome

theorem trans {through : β → γ → Prop} {last : Logged ε γ}
    (parallel : Parallel related action other) (onward : Parallel through other last) :
    Parallel (fun value result => ∃ between, related value between ∧ through between result)
      action last := by
  cases parallel with
  | ok pair =>
      cases onward with
      | ok further => exact .ok ⟨_, pair, further⟩
  | error =>
      cases onward with
      | error => exact .error

theorem notes_eq (parallel : Parallel related action other) : other.notes = action.notes := by
  cases parallel <;> rfl

/-- Where the values are related by a further action, to go on with it is to come out at the
other. -/
theorem outcome_bind {next : α → Logged ε β}
    (parallel : Parallel (fun value result => (next value).outcome = .ok result) action other) :
    (action >>= next).outcome = other.outcome := by
  cases parallel with
  | ok onward => exact (bind_outcome_of_ok next rfl).trans onward
  | error => exact bind_outcome_of_error next rfl

end Parallel

/-- Where each of two steps runs in parallel before and after the other, one order of them succeeds
exactly if the other order does, and with the same value. -/
theorem outcome_swap {first second : α → Logged ε α} {start last : α}
    (firstAlike : ∀ reached, (second start).outcome = .ok reached →
      Parallel (fun left right => (second left).outcome = .ok right) (first start) (first reached))
    (secondAlike : ∀ reached, (first start).outcome = .ok reached →
      Parallel (fun left right => (first left).outcome = .ok right) (second start)
        (second reached)) :
    (second start >>= first).outcome = .ok last ↔ (first start >>= second).outcome = .ok last := by
  constructor
  · intro swapped
    obtain ⟨reached, done, later⟩ := bind_outcome_ok.mp swapped
    rw [(firstAlike reached done).outcome_bind, later]
  · intro ordered
    obtain ⟨reached, done, later⟩ := bind_outcome_ok.mp ordered
    rw [(secondAlike reached done).outcome_bind, later]

/-- To go on without a warning adds none. -/
theorem warnings_bind_of_silent (action : Logged ε α) {next : α → Logged ε β}
    (silent : ∀ value, (next value).notes.filterMap Note.toWarning? = []) :
    (action >>= next).notes.filterMap Note.toWarning? =
      action.notes.filterMap Note.toWarning? := by
  cases ended : action.outcome with
  | error failure => rw [bind_eq_of_error _ ended]
  | ok value => rw [bind_eq_of_ok _ ended, List.filterMap_append, silent, List.append_nil]

end Uplift.Logged
