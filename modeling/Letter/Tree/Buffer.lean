import Letter.Tree.Layout
import Letter.Tree.Program

/-!
# Lines in a buffer

Layouts are written into a buffer one after another, each at the indentation that the
buffer has.  Where that gives no margin, a layout that begins a line writes nothing.  A
whole tree is written into an empty buffer: `Tree.emit` is its text.

A whole tree that is but a name and no text leaves the name before the lines of the buffer,
which then has no text until another tree is written.
-/

namespace Letter

/-- Lines of text, and the indentation of those that follow. -/
structure Buffer where
  /-- What stands before the lines and is no text. -/
  head? : Option Tree := none
  /-- The lines, in order. -/
  lines : List String
  /-- The number of levels by which the next line is indented; a negative one counts as
  none. -/
  indent : Int
  /-- How many blanks a margin may have. -/
  room : Room := .unbounded

namespace Buffer

/-- The empty buffer, given how many blanks a margin may have. -/
def empty (room : Room := .unbounded) : Buffer where
  lines := []
  indent := 0
  room := room

/-- The number of blanks for each level. -/
def step : Nat := 4

/-- The blanks of a number of levels. -/
def margin (levels : Int) : String := blanks (step * levels.toNat)

/-- The margin of the next line. -/
def margin? (b : Buffer) : Except LayoutError String :=
  ((marginWidth b.room step b.indent).mapError .noMargin).map blanks

/-- The text of the lines of a buffer. -/
def text (b : Buffer) : String := "\n".intercalate b.lines

/-- The text of a buffer, if nothing else stands before its lines. -/
def text? (b : Buffer) : Except LayoutError String :=
  match b.head? with
  | none => .ok b.text
  | some t => .error (.notTextItem 0 t.typeName)

/-- Writes a layout whose lines have margins; a fault leaves the indentation that was
reached. -/
def add {α : Type} (b : Buffer) (x : Layout α) : Except LayoutError α × Buffer :=
  let lines := b.lines ++ x.lines.map fun l => margin (b.indent + l.depth) ++ l.text
  match x.result with
  | .ok a => (.ok a, { b with lines })
  | .error e => (.error e.error, { b with lines, indent := b.indent + e.depth })

/-- Writes a layout. -/
def write {α : Type} (b : Buffer) (x : Layout α) : Except LayoutError α × Buffer :=
  if x.beginsLine then
    match b.margin? with
    | .error e => (.error e, b)
    | .ok _ => b.add x
  else b.add x

/-- The buffer without all that it holds. -/
def clear (b : Buffer) : Buffer := { b with head? := none, lines := [], indent := 0 }

/-- A cleared buffer has a margin for every layout. -/
theorem write_clear {α : Type} (b : Buffer) (x : Layout α) :
  b.clear.write x = b.clear.add x
  := by
  have hwidth : marginWidth b.room step 0 = .ok 0 :=
    marginWidth_eq_ok (by decide) (by decide) b.room.admits_zero
  have hmargin : b.clear.margin? = .ok "" := by
    rw [margin?, clear, hwidth]
    rfl
  rw [write, hmargin]
  split <;> rfl

/-- The layout of a whole tree: a statement in its own, any other tree as an expression on
one line. -/
def whole (t : Tree) : Layout Unit :=
  if (t.kind?.map Kind.isStatement).getD false then t.layout
  else do
    let text ← Layout.ofExcept t.exprText
    Layout.line text

/-- Writes a whole tree into the cleared buffer. -/
def emit (b : Buffer) (t : Tree) : Except LayoutError String × Buffer :=
  match t.oddName? with
  | some name =>
    let b := { b.clear with head? := some name }
    (b.text?, b)
  | none =>
    match b.clear.write (whole t) with
    | (.ok _, b) => (.ok b.text, b)
    | (.error e, b) => (.error e, b)

end Buffer

/-- The text of a tree. -/
def Tree.emit (t : Tree) : Except LayoutError String := (Buffer.empty.emit t).1

/-- Neither what a buffer holds nor the room for margins has a part in what is written once it has
been cleared. -/
theorem Buffer.emit_fst (b : Buffer) (t : Tree) :
  (b.emit t).1 = t.emit
  := by
  rw [Tree.emit, emit, emit]
  cases t.oddName? with
  | some name => rfl
  | none =>
    dsimp only
    rw [write_clear, write_clear, add, add]
    cases (whole t).result <;> rfl

/-- The text of a program in its standard form. -/
def Program.format (p : Program) : Except LayoutError String := p.toTree.emit

end Letter
