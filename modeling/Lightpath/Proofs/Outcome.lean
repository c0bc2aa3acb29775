import Lightpath.Failure

/-!
# Laws of outcomes

When an operation that is made of others succeeds, all of them do; when it fails, one of them does.
-/

namespace Lightpath.Outcome

variable {α β : Type} {x : Outcome α} {b : β}

theorem throw_eq (f : Failure) : (throw f : Outcome α) = .error f := rfl

/-- Nothing comes behind a failure. -/
theorem error_bind (f : Failure) (g : α → Outcome β) : (.error f : Outcome α) >>= g = .error f := rfl

/-- One operation behind another succeeds when both do. -/
theorem bind_eq_ok_iff {f : α → Outcome β} : x >>= f = .ok b ↔ ∃ a, x = .ok a ∧ f a = .ok b := by
  cases x with
  | error e =>
    constructor
    · intro h
      exact absurd h (by simp [Bind.bind, Except.bind])
    · rintro ⟨a, h, -⟩
      exact absurd h (by simp)
  | ok a =>
    constructor
    · intro h
      exact ⟨a, rfl, h⟩
    · rintro ⟨a', h, hf⟩
      rw [Except.ok.inj h]
      exact hf

/-- One operation behind another fails when the first one fails, or the second one behind it. -/
theorem bind_eq_error_iff {f : α → Outcome β} {e : Failure} :
    x >>= f = .error e ↔ x = .error e ∨ ∃ a, x = .ok a ∧ f a = .error e := by
  cases x with
  | error e' =>
    rw [error_bind, Except.error.injEq, Except.error.injEq]
    constructor
    · intro h
      exact Or.inl h
    · rintro (h | ⟨a, h, -⟩)
      · exact h
      · exact absurd h (by simp)
  | ok a =>
    constructor
    · intro h
      exact Or.inr ⟨a, rfl, h⟩
    · rintro (h | ⟨a', h, hf⟩)
      · exact absurd h (by simp)
      · rw [Except.ok.inj h]
        exact hf

theorem map_eq_ok_iff {f : α → β} : x.map f = .ok b ↔ ∃ a, x = .ok a ∧ f a = b := by
  cases x with
  | error e =>
    constructor
    · intro h
      exact absurd h (by simp [Except.map])
    · rintro ⟨a, h, -⟩
      exact absurd h (by simp)
  | ok a =>
    constructor
    · intro h
      exact ⟨a, rfl, Except.ok.inj h⟩
    · rintro ⟨a', h, rfl⟩
      rw [Except.ok.inj h]
      rfl

/-- An operation has succeeded when there is a value, whatever its failures are. -/
theorem eq_ok_of_toOption {ε : Type} {x : Except ε α} {a : α} (h : x.toOption = some a) : x = .ok a := by
  cases x with
  | error e => exact absurd h (by simp [Except.toOption])
  | ok a' => rw [Option.some.inj h]

end Lightpath.Outcome
