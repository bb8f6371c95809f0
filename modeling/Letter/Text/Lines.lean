/-!
# Lines

A line ends with a line feed, with a carriage return, or with both in this order.
-/

namespace Letter

/-- A text with line feeds for the ends of its lines. -/
def unifyLineEnds : List Char → List Char
  | '\r' :: '\n' :: s => '\n' :: unifyLineEnds s
  | '\r' :: s => '\n' :: unifyLineEnds s
  | c :: s => c :: unifyLineEnds s
  | [] => []

/-- The lines of a text, in which `begun` stands before it on the first line; a last line
that is empty is none. -/
def linesFrom (begun : List Char) : List Char → List (List Char)
  | [] => if begun.isEmpty then [] else [begun.reverse]
  | '\n' :: s => begun.reverse :: linesFrom [] s
  | c :: s => linesFrom (c :: begun) s

/-- The lines of a text, without their ends. -/
def splitLines (s : List Char) : List (List Char) := linesFrom [] (unifyLineEnds s)

end Letter
