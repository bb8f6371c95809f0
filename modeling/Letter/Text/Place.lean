/-!
# Places in a text

A place is given by the number of characters before it, which has to fit a machine word of
64 bits with a sign.  A place before the beginning of the text counts as its beginning, and
one past the end as its end.
-/

namespace Letter

/-- Whether an integer fits a machine word of 64 bits with a sign. -/
def fitsWord (n : Int) : Bool := -Nat.pow 2 63 ≤ n && n < Nat.pow 2 63

/-- Why a place is refused. -/
inductive PlaceError where
  /-- The place fits no machine word. -/
  | tooFar
  /-- No character stands at the place. -/
  | outside
  deriving DecidableEq, Repr

/-- The text of an error. -/
def PlaceError.message : PlaceError → String
  | tooFar => "Python int too large to convert to C ssize_t"
  | outside => "string index out of range"

/-- What follows a place. -/
def textFrom (s : List Char) (place : Int) : Except PlaceError (List Char) :=
  if fitsWord place then .ok (s.drop place.toNat) else .error .tooFar

end Letter
