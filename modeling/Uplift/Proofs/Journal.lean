import Uplift.Journal

/-!
# Outcomes of actions in sequence

An action that goes on with the value of another succeeds exactly if both do, and fails exactly if
one of them does. With these two statements a sequence of actions is taken apart from the front.
-/

set_option autoImplicit false

namespace Uplift.Logged

variable {ε α β : Type}

theorem bind_outcome_ok {action : Logged ε α} {next : α → Logged ε β} {result : β} :
    (action >>= next).outcome = .ok result ↔
      ∃ value, action.outcome = .ok value ∧ (next value).outcome = .ok result := by
  change (Logged.bind action next).outcome = .ok result ↔ _
  unfold Logged.bind
  cases action.outcome <;> simp

theorem bind_outcome_error {action : Logged ε α} {next : α → Logged ε β} {failure : ε} :
    (action >>= next).outcome = .error failure ↔
      action.outcome = .error failure ∨
        ∃ value, action.outcome = .ok value ∧ (next value).outcome = .error failure := by
  change (Logged.bind action next).outcome = .error failure ↔ _
  unfold Logged.bind
  cases action.outcome <;> simp

theorem bind_eq_of_ok {action : Logged ε α} {value : α} (next : α → Logged ε β)
    (success : action.outcome = .ok value) :
    action >>= next = ⟨action.notes ++ (next value).notes, (next value).outcome⟩ := by
  change Logged.bind action next = _
  unfold Logged.bind
  rw [success]

theorem bind_eq_of_error {action : Logged ε α} {failure : ε} (next : α → Logged ε β)
    (failed : action.outcome = .error failure) :
    action >>= next = ⟨action.notes, .error failure⟩ := by
  change Logged.bind action next = _
  unfold Logged.bind
  rw [failed]

theorem bind_outcome_of_ok {action : Logged ε α} {value : α} (next : α → Logged ε β)
    (success : action.outcome = .ok value) :
    (action >>= next).outcome = (next value).outcome := by
  rw [bind_eq_of_ok next success]

theorem bind_outcome_of_error {action : Logged ε α} {failure : ε} (next : α → Logged ε β)
    (failed : action.outcome = .error failure) :
    (action >>= next).outcome = .error failure := by
  rw [bind_eq_of_error next failed]

theorem bind_bind {γ : Type} (action : Logged ε α) (next : α → Logged ε β)
    (last : β → Logged ε γ) :
    action >>= next >>= last = action >>= fun value => next value >>= last := by
  cases first : action.outcome with
  | error failure =>
      rw [bind_eq_of_error _ first, bind_eq_of_error _ first, bind_eq_of_error _ rfl]
  | ok value =>
      rw [bind_eq_of_ok _ first, bind_eq_of_ok _ first]
      cases second : (next value).outcome with
      | error failure => rw [bind_eq_of_error _ rfl, bind_eq_of_error _ second]
      | ok result =>
          rw [bind_eq_of_ok _ rfl, bind_eq_of_ok _ second, List.append_assoc]

@[simp] theorem pure_bind (value : α) (next : α → Logged ε β) : pure value >>= next = next value :=
  rfl

@[simp] theorem ofExcept_ok_bind (value : α) (next : α → Logged ε β) :
    Logged.ofExcept (.ok value) >>= next = next value :=
  rfl

@[simp] theorem bind_pure (action : Logged ε α) : action >>= pure = action := by
  change Logged.bind action Logged.pure = _
  obtain ⟨notes, outcome⟩ := action
  cases outcome with
  | error failure => rfl
  | ok value => exact congrArg (Logged.mk · (.ok value)) (List.append_nil notes)

@[simp] theorem ofExcept_outcome (outcome : Except ε α) :
    (Logged.ofExcept outcome).outcome = outcome := rfl

@[simp] theorem note_outcome (entry : Note) :
    (Logged.note entry : Logged ε Unit).outcome = .ok () := rfl

@[simp] theorem fail_outcome (failure : ε) :
    (Logged.fail failure : Logged ε α).outcome = .error failure := rfl

end Uplift.Logged
