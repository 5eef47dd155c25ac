import Uplift.Proofs.Journal

/-!
# Actions that agree

Two actions agree if both succeed, with related values and the same notes up to their order, or both
fail, with failures of the same kind. What goes on from the values of agreeing actions in the same
way agrees again.
-/

set_option autoImplicit false

namespace Uplift.Logged

variable {ε ε' α β γ δ : Type} {related : α → β → Prop} {image : γ → δ → Prop}
  {kin : ε → ε → Prop} {action : Logged ε α} {other : Logged ε β}

/-- Two actions succeed with related values and the same notes, or fail in the same way. -/
inductive Agree (related : α → β → Prop) (kin : ε → ε → Prop) (action : Logged ε α)
    (other : Logged ε β) : Prop where
  | ok {value : α} {result : β} : action.outcome = .ok value → other.outcome = .ok result →
      related value result → action.notes.Perm other.notes → Agree related kin action other
  | error {failure otherFailure : ε} : action.outcome = .error failure →
      other.outcome = .error otherFailure → kin failure otherFailure →
      Agree related kin action other

namespace Agree

theorem pure {value : α} {result : β} (pair : related value result) :
    Agree related kin (pure value) (pure result) :=
  .ok rfl rfl pair .nil

theorem fail {failure otherFailure : ε} (same : kin failure otherFailure) :
    Agree related kin (fail failure) (fail otherFailure) :=
  .error rfl rfl same

theorem refl (reflexive : ∀ failure, kin failure failure) (action : Logged ε α) :
    Agree (fun value result => value = result ∧ action.outcome = .ok value) kin action action := by
  cases outcome : action.outcome with
  | error failure => exact .error outcome outcome (reflexive failure)
  | ok value => exact .ok outcome outcome ⟨rfl, rfl⟩ (.refl _)

theorem imp {wider : α → β → Prop} (agree : Agree related kin action other)
    (widens : ∀ value result, related value result → wider value result) :
    Agree wider kin action other := by
  cases agree with
  | ok first second pair notes => exact .ok first second (widens _ _ pair) notes
  | error first second same => exact .error first second same

theorem same (reflexive : ∀ failure, kin failure failure) (action : Logged ε α) :
    Agree Eq kin action action :=
  (refl reflexive action).imp fun _ _ both => both.1

/-- What goes on in the same way from agreeing actions agrees. -/
theorem bind (agree : Agree related kin action other) {next : α → Logged ε γ}
    {otherNext : β → Logged ε δ}
    (continues : ∀ value result, related value result →
      Agree image kin (next value) (otherNext result)) :
    Agree image kin (action >>= next) (other >>= otherNext) := by
  cases agree with
  | error first second same =>
      exact .error (bind_outcome_of_error _ first) (bind_outcome_of_error _ second) same
  | ok first second pair notes =>
      rw [bind_eq_of_ok _ first, bind_eq_of_ok _ second]
      cases continues _ _ pair with
      | error third fourth same => exact .error third fourth same
      | ok third fourth images later => exact .ok third fourth images (notes.append later)

/-- Actions that begin with the same action agree if they do after it. -/
theorem bind_same (reflexive : ∀ failure, kin failure failure) (first : Logged ε α)
    {next : α → Logged ε γ} {otherNext : α → Logged ε δ}
    (continues : ∀ value, first.outcome = .ok value →
      Agree image kin (next value) (otherNext value)) :
    Agree image kin (first >>= next) (first >>= otherNext) := by
  refine bind (refl reflexive first) fun value result same => ?_
  obtain ⟨rfl, outcome⟩ := same
  exact continues value outcome

theorem trans {through : β → γ → Prop} {both : α → γ → Prop}
    {last : Logged ε γ} (transitive : ∀ one two three, kin one two → kin two three → kin one three)
    (agree : Agree related kin action other) (onward : Agree through kin other last)
    (joins : ∀ value between result, related value between → through between result →
      both value result) : Agree both kin action last := by
  cases agree with
  | error first second same =>
      cases onward with
      | error third fourth again =>
          rw [second] at third
          cases third
          exact .error first fourth (transitive _ _ _ same again)
      | ok third =>
          rw [second] at third
          cases third
  | ok first second pair notes =>
      cases onward with
      | error third =>
          rw [second] at third
          cases third
      | ok third fourth again later =>
          rw [second] at third
          cases third
          exact .ok first fourth (joins _ _ _ pair again) (notes.trans later)

/-- The order of two actions makes no difference if all failures are of one kind. -/
theorem swap (kindred : ∀ failure otherFailure, kin failure otherFailure) (first : Logged ε α)
    (second : Logged ε β) {next : α → β → Logged ε γ} {otherNext : α → β → Logged ε δ}
    (continues : ∀ value result, Agree image kin (next value result) (otherNext value result)) :
    Agree image kin (first >>= fun value => second >>= fun result => next value result)
      (second >>= fun result => first >>= fun value => otherNext value result) := by
  cases firstOutcome : first.outcome with
  | error failure =>
      cases secondOutcome : second.outcome with
      | error otherFailure =>
          exact .error (bind_outcome_of_error _ firstOutcome)
            (bind_outcome_of_error _ secondOutcome) (kindred _ _)
      | ok result =>
          refine .error (bind_outcome_of_error _ firstOutcome) ?_ (kindred failure failure)
          rw [bind_outcome_of_ok _ secondOutcome, bind_outcome_of_error _ firstOutcome]
  | ok value =>
      cases secondOutcome : second.outcome with
      | error failure =>
          refine .error ?_ (bind_outcome_of_error _ secondOutcome) (kindred failure failure)
          rw [bind_outcome_of_ok _ firstOutcome, bind_outcome_of_error _ secondOutcome]
      | ok result =>
          rw [bind_eq_of_ok _ firstOutcome, bind_eq_of_ok _ secondOutcome,
            bind_eq_of_ok _ secondOutcome, bind_eq_of_ok _ firstOutcome]
          cases continues value result with
          | error third fourth same => exact .error third fourth same
          | ok third fourth pair notes =>
              refine .ok third fourth pair ?_
              dsimp only
              rw [← List.append_assoc, ← List.append_assoc]
              exact List.perm_append_comm.append notes

end Agree

end Uplift.Logged
