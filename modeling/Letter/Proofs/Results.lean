/-!
# Values and errors

What becomes of a value or an error when either is replaced by what a function makes of it.
-/

namespace Letter

variable {ε ε' α β : Type} {x : Except ε α}

/-- A value is there after all errors have been renamed if it was there before. -/
theorem mapError_eq_ok {f : ε → ε'} {a : α} :
  x.mapError f = .ok a ↔ x = .ok a
  := by
  constructor
  · intro h
    cases x with
    | ok _ =>
      cases h
      rfl
    | error _ => cases h
  · rintro rfl
    rfl

/-- An error that is there after errors have been renamed is a new name of one. -/
theorem mapError_eq_error {f : ε → ε'} {e : ε'} :
  x.mapError f = .error e ↔ ∃ e', x = .error e' ∧ f e' = e
  := by
  constructor
  · intro h
    cases x with
    | ok _ => cases h
    | error e' =>
      cases h
      exact ⟨e', rfl, rfl⟩
  · rintro ⟨e', rfl, rfl⟩
    rfl

/-- A value that has been mapped is the image of one. -/
theorem map_eq_ok {f : α → β} {b : β} :
  x.map f = .ok b ↔ ∃ a, x = .ok a ∧ f a = b
  := by cases x <;> simp [Except.map]

/-- Mapping the values changes no error. -/
theorem map_eq_error {f : α → β} {e : ε} :
  x.map f = .error e ↔ x = .error e
  := by cases x <;> simp [Except.map]

/-- A value that is worked out in two steps is the value of the second for a value of the first. -/
theorem bind_eq_ok {f : α → Except ε β} {b : β} :
  x.bind f = .ok b ↔ ∃ a, x = .ok a ∧ f a = .ok b
  := by cases x <;> simp [Except.bind]

end Letter
