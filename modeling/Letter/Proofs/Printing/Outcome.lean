import Letter.Tree.Layout

/-!
# What a layout comes to

What a layout comes to depends neither on the depth of its lines nor on whether one has been begun;
one layout after another comes to what the first one does, unless this is a value.
-/

namespace Letter

namespace Layout

variable {α β : Type}

/-- What a layout comes to, without its lines. -/
def outcome (x : Layout α) : Except LayoutError α := x.result.mapError Fault.error

/-- One layout after another comes to what the second does on the value of the first. -/
theorem outcome_bind (x : Layout α) (f : α → Layout β) :
  (x >>= f).outcome = x.outcome >>= fun a => (f a).outcome
  := by
  change (Layout.bind x f).outcome = _
  obtain ⟨lines, result⟩ := x
  cases result <;> rfl

@[simp]
theorem outcome_ofExcept (x : Except LayoutError α) :
  (ofExcept x).outcome = x
  := by cases x <;> rfl

/-- The depth of a layout has no part in what it comes to. -/
@[simp]
theorem outcome_nested (x : Layout α) :
  x.nested.outcome = x.outcome
  := by
  obtain ⟨lines, result⟩ := x
  cases result <;> rfl

@[simp]
theorem outcome_continued (x : Layout α) :
  x.continued.outcome = x.outcome
  := by
  obtain ⟨lines, result⟩ := x
  cases result <;> rfl

@[simp]
theorem outcome_close (closing : Option String) :
  (close closing).outcome = .ok ()
  := by cases closing <;> rfl

end Layout

end Letter
