/-!
# What a computation that did not raise has found

A service checks its arguments one after the other, each check an `Except`. From the result of
the whole these lemmas recover the result of each check.
-/

namespace Checks

universe u v w

variable {ε : Type u} {α : Type v} {β : Type v} {x : Except ε α} {b : β}

theorem bind_eq_ok {f : α → Except ε β} (h : (x >>= f) = .ok b) : ∃ a, x = .ok a ∧ f a = .ok b := by
  cases x with
  | error e => cases h
  | ok a => exact ⟨a, rfl, h⟩

theorem map_eq_ok {f : α → β} (h : x.map f = .ok b) : ∃ a, x = .ok a ∧ f a = b := by
  cases x with
  | error e => cases h
  | ok a => exact ⟨a, rfl, Except.ok.inj h⟩

/-- The check before `x` has not failed. -/
theorem of_ite_error {p : Prop} [Decidable p] {e : ε} {a : α}
    (h : (if p then .error e else x) = .ok a) : ¬ p ∧ x = .ok a := by
  by_cases hp : p
  · rw [if_pos hp] at h
    cases h
  · rw [if_neg hp] at h
    exact ⟨hp, h⟩

end Checks
