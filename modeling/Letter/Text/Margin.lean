import Letter.Text.Place

/-!
# Margins

A margin is made of steps, each of a fixed number of blanks.  The number of steps is any
integer that fits a machine word, a negative one counts as none, and so does the number of
blanks.  There also has to be room for all the blanks, and how much there is depends on the
machine: `marginWidth_eq_ok` says that below these bounds each step takes its blanks.
-/

namespace Letter

/-- Why there is no margin. -/
inductive MarginError where
  /-- The number of steps fits no machine word. -/
  | tooManySteps
  /-- The number of blanks fits no machine word. -/
  | tooLong
  /-- There is no room for the blanks. -/
  | noRoom
  /-- Something else than an integer stands for the number of steps. -/
  | notInteger (typeName : String)
  deriving DecidableEq, Repr

/-- The text of an error; nothing is told where there is no room. -/
def MarginError.message : MarginError → String
  | tooManySteps => "cannot fit 'int' into an index-sized integer"
  | tooLong => "repeated string is too long"
  | noRoom => ""
  | notInteger typeName => "can't multiply sequence by non-int of type '" ++ typeName ++ "'"

/-- The word for the kind of an error. -/
def MarginError.kindName : MarginError → String
  | tooManySteps | tooLong => "OverflowError"
  | noRoom => "MemoryError"
  | notInteger _ => "TypeError"

/-- How many blanks there is room for. -/
inductive Room where
  | unbounded
  | upTo (width : Nat)
  deriving DecidableEq, Repr

/-- Whether there is room for a number of blanks. -/
def Room.admits : Room → Nat → Bool
  | unbounded, _ => true
  | upTo most, width => width ≤ most

/-- Where there is room for some blanks, there is room for fewer. -/
theorem Room.admits_of_le {room : Room} {m n : Nat} (h : room.admits n = true) (hle : m ≤ n) :
  room.admits m = true
  := by
  cases room with
  | unbounded => rfl
  | upTo most =>
    simp only [admits, decide_eq_true_eq] at h ⊢
    omega

theorem Room.admits_zero (room : Room) :
  room.admits 0 = true
  := by cases room <;> simp [admits]

/-- The number of blanks in a margin, given how many a step has. -/
def marginWidth (room : Room) (step : Nat) (steps : Int) : Except MarginError Nat :=
  if !fitsWord steps then .error .tooManySteps
  else if Nat.pow 2 63 ≤ step * steps.toNat then .error .tooLong
  else if !room.admits (step * steps.toNat) then .error .noRoom
  else .ok (step * steps.toNat)

/-- A text of blanks alone. -/
def blanks (width : Nat) : String := String.ofList (List.replicate width ' ')

/-- A margin that fits is as wide as its steps. -/
theorem marginWidth_eq_ok {room : Room} {step : Nat} {steps : Int} (h : fitsWord steps)
    (hword : step * steps.toNat < Nat.pow 2 63) (hroom : room.admits (step * steps.toNat)) :
  marginWidth room step steps = .ok (step * steps.toNat)
  := by
  rw [marginWidth, if_neg (by simp [h]), if_neg (Nat.not_le.2 hword), if_neg (by simp [hroom])]

/-- A margin is made if its steps fit a word, its width is below the limit, and there is room for
it. -/
theorem marginWidth_eq_ok_iff {room : Room} {step width : Nat} {steps : Int} :
  marginWidth room step steps = .ok width
    ↔ width = step * steps.toNat ∧ fitsWord steps = true ∧ width < Nat.pow 2 63
      ∧ room.admits width = true
  := by
  constructor
  · intro h
    rw [marginWidth] at h
    split at h
    · cases h
    · next hfits =>
      split at h
      · cases h
      · next hword =>
        split at h
        · cases h
        · next hroom =>
          cases h
          exact ⟨rfl, by simpa using hfits, Nat.not_le.1 hword, by simpa using hroom⟩
  · rintro ⟨rfl, hfits, hword, hroom⟩
    exact marginWidth_eq_ok hfits hword hroom

end Letter
