/-!
# Outcomes

How an outcome that was changed or continued succeeds and fails is how the first one did.
-/

set_option autoImplicit false

namespace Uplift.Outcome

variable {ε ε' α β : Type}

@[simp] theorem mapError_ok (change : ε → ε') (value : α) :
    (Except.ok value : Except ε α).mapError change = .ok value := rfl

@[simp] theorem mapError_error (change : ε → ε') (error : ε) :
    (Except.error error : Except ε α).mapError change = .error (change error) := rfl

theorem map_eq_error_iff {outcome : Except ε α} {change : α → β} {error : ε} :
    outcome.map change = .error error ↔ outcome = .error error := by
  cases outcome <;> simp [Except.map]

theorem map_eq_ok_iff {outcome : Except ε α} {change : α → β} {result : β} :
    outcome.map change = .ok result ↔ ∃ value, outcome = .ok value ∧ change value = result := by
  cases outcome <;> simp [Except.map]

theorem mapError_eq_ok_iff {outcome : Except ε α} {change : ε → ε'} {value : α} :
    outcome.mapError change = .ok value ↔ outcome = .ok value := by
  cases outcome <;> simp

theorem mapError_eq_error_iff {outcome : Except ε α} {change : ε → ε'} {error : ε'} :
    outcome.mapError change = .error error ↔
      ∃ first, outcome = .error first ∧ change first = error := by
  cases outcome <;> simp

theorem mapError_map (outcome : Except ε α) (change : ε → ε') (next : α → β) :
    (outcome.map next).mapError change = (outcome.mapError change).map next := by
  cases outcome <;> rfl

theorem mapError_bind (outcome : Except ε α) (change : ε → ε') (next : α → Except ε β) :
    (outcome >>= next).mapError change =
      outcome.mapError change >>= fun value => (next value).mapError change := by
  cases outcome <;> rfl

/-- The error of an outcome that failed. -/
def error? : Except ε α → Option ε
  | .ok _ => none
  | .error error => some error

theorem eq_error_iff {outcome : Except ε α} {error : ε} :
    outcome = .error error ↔ error? outcome = some error := by
  cases outcome <;> simp [error?]

theorem exists_eq_ok_iff {outcome : Except ε α} :
    (∃ value, outcome = .ok value) ↔ error? outcome = none := by
  cases outcome <;> simp [error?]

@[simp] theorem error?_map (change : α → β) (outcome : Except ε α) :
    error? (outcome.map change) = error? outcome := by
  cases outcome <;> rfl

theorem bind_eq_ok_iff {outcome : Except ε α} {next : α → Except ε β} {result : β} :
    outcome >>= next = .ok result ↔ ∃ value, outcome = .ok value ∧ next value = .ok result := by
  cases outcome <;> simp [bind, Except.bind]

theorem bind_eq_error_iff {outcome : Except ε α} {next : α → Except ε β} {error : ε} :
    outcome >>= next = .error error ↔
      outcome = .error error ∨ ∃ value, outcome = .ok value ∧ next value = .error error := by
  cases outcome <;> simp [bind, Except.bind]

theorem exists_eq_ok_of_toOption_map {outcome : Except ε α} {view : α → β} {seen : β}
    (known : outcome.toOption.map view = some seen) :
    ∃ value, outcome = .ok value ∧ view value = seen := by
  cases outcome with
  | error error => cases known
  | ok value => exact ⟨value, rfl, Option.some.inj known⟩

end Uplift.Outcome
