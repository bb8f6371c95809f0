import Letter.Text.LetterCase

/-!
# Names in snake case

A name made of words that begin with ASCII capitals becomes one of lower-case words joined
by low lines.
-/

namespace Letter

/-- A low line before every ASCII capital. -/
def separateCapitals (s : List Char) : List Char :=
  s.flatMap fun c => if 'A' ≤ c && c ≤ 'Z' then ['_', c] else [c]

/-- A name in snake case. -/
def snakeCase : List Char → List Char
  | [] => []
  | c :: s => lowercase (c :: separateCapitals s)

end Letter
