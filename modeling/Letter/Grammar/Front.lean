import Letter.Grammar.Error

/-!
# The front of reading

A grammar is read from left to right with one token in view.  The front is that token and
the place behind it.  Taking the token in view reads the next one at once, so that a
character at which no rule applies is met one token ahead; the front then stays as reading
left it, with the taken token still in view.

Each loop of the grammar takes the token in view in its first round and a token behind it
in every further one.  A token has at least one character, so that the text behind the
token in view, character by character, bounds the number of further rounds.
-/

namespace Letter

/-- The token in view, unless the text has ended, and the place behind it. -/
structure Front where
  /-- The token in view. -/
  next? : Option Token
  /-- The place behind the token in view. -/
  scanner : Scanner
  deriving DecidableEq, Repr

namespace Front

/-- The front before any text is read. -/
def empty : Front := ⟨none, Scanner.ofList []⟩

/-- The text behind the token in view. -/
def behind (f : Front) : List Char := f.scanner.rest

end Front

/-- Reading by the grammar: it moves the front, and gives a value or an error. -/
abbrev Parse : Type → Type := EStateM SyntaxError Front

namespace Parse

/-- What `select` finds in the token in view. -/
def peek {α : Type} (select : Token → Option α) : Parse (Option α) :=
  fun front => .ok (front.next?.bind select) front

/-- Whether the token in view is of one of the kinds. -/
def sees (kinds : List TokenKind) : Parse Bool :=
  fun front => .ok (front.next?.any fun t => kinds.contains t.kind) front

/-- Brings the next token into view. -/
def advance : Parse Unit :=
  fun front =>
    match front.scanner.next with
    | (.token t, scanner) => .ok () ⟨some t, scanner⟩
    | (.finished, scanner) => .ok () ⟨none, scanner⟩
    | (.stuck e, scanner) => .error (.stuck e) { front with scanner }

/-- Begins to read a text. -/
def load (source : List Char) : Parse Unit :=
  fun front => advance { front with scanner := Scanner.ofList source }

/-- Takes the token in view if `select` finds something in it. -/
def take {α : Type} (expected : TokenKind) (select : Token → Option α) : Parse α :=
  fun front =>
    match front.next? with
    | none => .error (.missingToken expected) front
    | some t =>
      match select t with
      | none => .error (.unexpectedToken t expected) front
      | some a => (do advance; return a : Parse α) front

/-- Takes the token in view, which has to be of a given kind. -/
def eat (kind : TokenKind) : Parse Token :=
  take kind fun t => if t.kind = kind then some t else none

/-- Takes the token in view, which has to be a given delimiter. -/
def skip (d : Delimiter) : Parse Unit := do
  let _ ← eat (.delimiter d)

/-- Takes the token in view, which has to be a given reserved word. -/
def skipWord (k : Keyword) : Parse Unit := do
  let _ ← eat (.keyword k)

/-- A loop that goes on while `select` finds something in the token in view, with at most
as many rounds after the first as `bound` has characters. -/
def foldWithin {α β : Type} (select : Token → Option β) (step : α → β → Parse α)
    (bound : List Char) (a : α) : Parse α := do
  match ← peek select with
  | none => return a
  | some b =>
    let a ← step a b
    match bound with
    | [] => return a
    | _ :: bound => foldWithin select step bound a

/-- Goes on with `step` while `select` finds something in the token in view. -/
def foldWhile {α β : Type} (select : Token → Option β) (a : α) (step : α → β → Parse α) :
    Parse α :=
  fun front => foldWithin select step front.behind a front

/-- The items of a sequence that goes on while `select` finds something in the token in
view, with at most as many items after the first as `bound` has characters. -/
def manyWithin {α β : Type} (select : Token → Option β) (item : β → Parse α)
    (bound : List Char) : Parse (List α) := do
  match ← peek select with
  | none => return []
  | some b =>
    let a ← item b
    match bound with
    | [] => return [a]
    | _ :: bound => return a :: (← manyWithin select item bound)

/-- The items of a sequence that goes on while `select` finds something in the token in
view. -/
def manyWhile {α β : Type} (select : Token → Option β) (item : β → Parse α) :
    Parse (List α) :=
  fun front => manyWithin select item front.behind front

/-- One or more items, separated by commas. -/
def separated {α : Type} (item : Parse α) : Parse (List α) := do
  let first ← item
  let later ← manyWhile (fun t => if t = .delimiter .comma then some () else none)
    fun _ => do skip .comma; item
  return first :: later

end Parse

end Letter
