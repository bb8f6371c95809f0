import Letter.Text.Blank

/-!
# Reading entries

What is typed is taken in entries of one line or more: an entry goes on while more braces
have been opened than closed, line comments aside.  The words `exit` and `quit` end the
session, each as the first line of an entry.
-/

namespace Letter

/-- A text without its line comments, given whether it begins inside one. -/
def uncommented : Bool → List Char → List Char
  | _, [] => []
  | true, '\n' :: s => '\n' :: uncommented false s
  | true, _ :: s => uncommented true s
  | false, '/' :: '/' :: s => uncommented true s
  | false, c :: s => c :: uncommented false s

/-- The number of braces opened in a line beyond those closed, line comments aside. -/
def braceBalance (line : String) : Int :=
  let code := uncommented false line.toList
  (code.count '{' : Int) - code.count '}'

/-- A text without the blanks at its ends. -/
def trimmed (s : String) : String := String.ofList (trimBlanks s.toList)

/-- Whether a line asks to leave. -/
def isFarewell (line : String) : Bool := trimmed line == "exit" || trimmed line == "quit"

/-- The lines of an entry that has not ended yet. -/
structure Pending where
  /-- The lines, in order. -/
  lines : List String
  /-- The number of braces opened beyond those closed. -/
  depth : Int
  deriving DecidableEq, Repr

/-- What a line makes of an entry. -/
inductive Progress where
  /-- The entry goes on. -/
  | more (p : Pending)
  /-- The entry has ended. -/
  | entry (text : String)
  /-- The session has ended. -/
  | leave
  deriving DecidableEq, Repr

namespace Pending

/-- An entry of which nothing has been typed. -/
def empty : Pending := ⟨[], 0⟩

/-- What asks for the next line of an entry. -/
def prompt (p : Pending) : String := if p.lines.isEmpty then ">>> " else "... "

/-- Adds a line to an entry. -/
def add (p : Pending) (line : String) : Progress :=
  if isFarewell line && p.lines.isEmpty then .leave
  else
    let lines := p.lines ++ [line]
    let depth := p.depth + braceBalance line
    if depth ≤ 0 then .entry (trimmed ("\n".intercalate lines)) else .more ⟨lines, depth⟩

end Pending

/-- What comes when a line is asked for. -/
inductive Input where
  /-- A line. -/
  | line (text : String)
  /-- The wish to stop. -/
  | interrupt
  deriving DecidableEq, Repr

/-- What an entry comes to. -/
inductive Entry where
  /-- The text of the entry. -/
  | text (s : String)
  /-- The session is left. -/
  | leave
  /-- The session is interrupted. -/
  | interrupted
  /-- Nothing comes any more. -/
  | ended
  deriving DecidableEq, Repr

/-- The entries of some inputs, each with the prompts that asked for it, given the entry
that has begun and its prompts so far. -/
def entriesFrom (p : Pending) (prompts : String) : List Input → List (Entry × String)
  | [] => if p.lines.isEmpty then [] else [(.ended, prompts ++ p.prompt)]
  | .interrupt :: later =>
    (.interrupted, prompts ++ p.prompt) :: entriesFrom .empty "" later
  | .line l :: later =>
    match p.add l with
    | .more q => entriesFrom q (prompts ++ p.prompt) later
    | .entry s => (.text s, prompts ++ p.prompt) :: entriesFrom .empty "" later
    | .leave => (.leave, prompts ++ p.prompt) :: entriesFrom .empty "" later

/-- The entries of some inputs, each with the prompts that asked for it. -/
def entries (inputs : List Input) : List (Entry × String) := entriesFrom .empty "" inputs

end Letter
