import Letter.Proofs.Printing.Positions

/-!
# Writing in place

A tree may also be written in place: each line is put into the buffer as soon as it is known, at
the indentation that the buffer has then, and the line that closes a block is taken back where
the word `else` continues it.
-/

namespace Letter

/-- Why writing in place ends. -/
inductive Mishap where
  /-- A tree has no text, or there is no margin for a line. -/
  | refused (e : LayoutError)
  /-- A line is to be taken back from a buffer that has none. -/
  | noLine
  deriving DecidableEq, Repr

/-- Writing in place: it changes a buffer, and gives a value or ends. -/
abbrev Writer := ExceptT Mishap (StateM Buffer)

namespace Writer

variable {α : Type}

/-- Ends with an error. -/
def refuse (e : LayoutError) : Writer α := throw (.refused e)

/-- A value, unless there is an error. -/
def need : Except LayoutError α → Writer α
  | .ok a => pure a
  | .error e => refuse e

/-- Writes a line. -/
def line (text : String) : Writer Unit := fun b =>
  match b.margin? with
  | .ok margin => (.ok (), { b with lines := b.lines ++ [margin ++ text] })
  | .error e => (.error (.refused e), b)

/-- Takes the last line back, without its margin. -/
def takeBack : Writer String := fun b =>
  match b.lines.getLast? with
  | none => (.error .noLine, b)
  | some l =>
    let b := { b with lines := b.lines.dropLast }
    match b.margin? with
    | .ok margin => (.ok (String.ofList (l.toList.drop margin.length)), b)
    | .error e => (.error (.refused e), b)

/-- Writes one level deeper, and goes back to the level before unless there is an error. -/
def deeper (x : Writer Unit) : Writer Unit := do
  modify fun b => { b with indent := b.indent + 1 }
  x
  modify fun b => { b with indent := b.indent - 1 }

/-- Writes statements between braces behind a header. -/
def braces (header : String) (isEmpty : Bool) (inner : Writer Unit) : Writer Unit := do
  let opener := if header = "" then "" else header ++ " "
  if isEmpty then line (opener ++ "\x7b\x7d")
  else
    line (opener ++ "\x7b")
    deeper inner
    line "\x7d"

end Writer

namespace Tree

open Writer

/-- Whether a tree is a block. -/
def isBlock : Tree → Bool
  | block _ => true
  | _ => false

/-- Whether a tree is a condition. -/
def isCondition : Tree → Bool
  | condition _ _ _ => true
  | _ => false

/-- Why a tree that is no statement cannot be written as one. -/
def statementError (t : Tree) : LayoutError :=
  match t.kind? with
  | some kind => .noStatement kind
  | none => .noField t.typeName "type"

/-- The word that begins an alternative, behind the line that closes a block before it. -/
def alternativeWord (consequent : Tree) : Writer String :=
  if consequent.isBlock then do return (← takeBack) ++ " else" else pure "else"

mutual

/-- Writes a statement. -/
def visit : Tree → Writer Unit
  | program body => visitBody body
  | block body => braces "" (!body.truth) (visitBody body)
  | empty => line ";"
  | expression e => do
    let text ← need e.exprWithin
    line (text ++ ";")
  | declare ds => do
    let texts ← need ds.declarationTexts
    line ("let " ++ ", ".intercalate texts ++ ";")
  | declaration id init => do
    let _ ← need (declaration id init).declarationText
  | condition test consequent alternate => writeCondition "" (condition test consequent alternate)
  | other => refuse other.statementError
  termination_by t => (sizeOf t, 1)

/-- Writes a statement or a block behind a header. -/
def writeClause (header : String) : Tree → Writer Unit
  | block body => braces header (!body.truth) (visitBody body)
  | other => do
    line header
    deeper (visit other)
  termination_by t => (sizeOf t, 2)

/-- Writes a condition behind the beginning of its line. -/
def writeCondition (start : String) : Tree → Writer Unit
  | condition test consequent alternate => do
    let text ← need test.exprWithin
    writeClause (start ++ "if (" ++ text ++ ")") consequent
    if alternate.isNull then return ()
    else
      let word ← consequent.alternativeWord
      if alternate.isCondition then writeCondition (word ++ " ") alternate
      else writeClause word alternate
  | other => refuse (.noField other.typeName "test")
  termination_by t => (sizeOf t, 0)

/-- Writes the statements of a program or block. -/
def visitBody : Tree → Writer Unit
  | list items => visitItems items
  | scalar (.text s) => if s = "" then pure () else refuse (.noField "str" "type")
  | other => refuse (.notList other.typeName)
  termination_by t => (sizeOf t, 0)

/-- Writes statements one after another. -/
def visitItems : List Tree → Writer Unit
  | [] => pure ()
  | s :: ss => do
    visit s
    visitItems ss
  termination_by ts => (sizeOf ts, 0)

end

end Tree

/-! ### What writing leaves of a buffer -/

/-- What a run of writing leaves of a buffer: the lines that were there are still there, the room
for margins is what it was, and the indentation is as before, unless there is an error, and then
it is no smaller. -/
structure Buffer.KeptBy {ε α : Type} (b : Buffer) (r : Except ε α × Buffer) : Prop where
  head : r.2.head? = b.head?
  lines : b.lines <+: r.2.lines
  indent_le : b.indent ≤ r.2.indent
  indent_eq : ∀ a, r.1 = .ok a → r.2.indent = b.indent
  room : r.2.room = b.room

namespace Writer

variable {α β : Type}

/-- One writer after another writes into what the first one leaves. -/
theorem bind_apply (x : Writer α) (f : α → Writer β) (b : Buffer) :
  (x >>= f) b = match x b with
    | (.ok a, b') => f a b'
    | (.error e, b') => (.error e, b')
  := by
  change (StateT.bind x (ExceptT.bindCont f)) b = _
  rw [StateT.bind]
  cases x b with
  | mk r b' => cases r <;> rfl

/-- Writing deeper raises the indentation, and lowers it again unless there is an error. -/
theorem deeper_apply (x : Writer Unit) (b : Buffer) :
  deeper x b = match x { b with indent := b.indent + 1 } with
    | (.ok _, b') => (.ok (), { b' with indent := b'.indent - 1 })
    | (.error e, b') => (.error e, b')
  := by
  rw [deeper, bind_apply]
  change (x >>= _) { b with indent := b.indent + 1 } = _
  rw [bind_apply]
  cases x { b with indent := b.indent + 1 } with
  | mk r b' => cases r <;> rfl

/-- A writer that leaves what is in the buffer, whatever it comes to, and that takes back no line
but its own. -/
def Appends (x : Writer α) : Prop :=
  ∀ b : Buffer, b.KeptBy (x b) ∧ (x b).1 ≠ .error .noLine

/-- What keeps a buffer that another one has grown to, keeps that one. -/
theorem keptBy_of_grown {ε : Type} {b b' : Buffer} {own : List String} {r : Except ε α × Buffer}
    (hb : b' = { b with lines := b.lines ++ own }) (h : b'.KeptBy r) :
  b.KeptBy r
  := by
  subst hb
  exact ⟨h.head, (List.prefix_append _ _).trans h.lines, h.indent_le, h.indent_eq, h.room⟩

/-- The error that ends one writer ends what it is a part of. -/
theorem keptBy_of_error {b b' : Buffer} {r : Except Mishap α × Buffer} {e : Mishap}
    (h : b.KeptBy r ∧ r.1 ≠ .error .noLine) (hr : r = (.error e, b')) :
  b.KeptBy ((.error e, b') : Except Mishap β × Buffer)
    ∧ (.error e : Except Mishap β) ≠ .error .noLine
  := by
  subst hr
  obtain ⟨h, hline⟩ := h
  exact ⟨⟨h.head, h.lines, h.indent_le, nofun, h.room⟩, by simpa using hline⟩

namespace Appends

theorem pure (a : α) :
  Appends (Pure.pure a)
  := fun _ => ⟨⟨rfl, List.prefix_rfl, Int.le_refl _, fun _ _ => rfl, rfl⟩, nofun⟩

theorem refuse (e : LayoutError) :
  Appends (Writer.refuse e : Writer α)
  := fun _ => ⟨⟨rfl, List.prefix_rfl, Int.le_refl _, nofun, rfl⟩, nofun⟩

theorem need (x : Except LayoutError α) :
  Appends (Writer.need x)
  := by
  cases x with
  | ok a => exact pure a
  | error e => exact refuse e

theorem line (text : String) :
  Appends (Writer.line text)
  := by
  intro b
  rw [Writer.line]
  split
  · exact ⟨⟨rfl, List.prefix_append _ _, Int.le_refl _, fun _ _ => rfl, rfl⟩, nofun⟩
  · exact ⟨⟨rfl, List.prefix_rfl, Int.le_refl _, nofun, rfl⟩, nofun⟩

/-- What is reached without an error differs from the buffer by the lines behind its own. -/
theorem exists_grown {x : Writer α} (hx : Appends x) {b b' : Buffer} {a : α}
    (h : x b = (.ok a, b')) :
  ∃ own, b' = { b with lines := b.lines ++ own }
  := by
  obtain ⟨hhead, ⟨own, hown⟩, -, hindent, hroom⟩ := (hx b).1
  rw [h] at hhead hown hindent hroom
  refine ⟨own, ?_⟩
  obtain ⟨head?, lines, indent, room⟩ := b'
  obtain rfl : head? = b.head? := hhead
  obtain rfl : indent = b.indent := hindent a rfl
  obtain rfl : room = b.room := hroom
  obtain rfl : b.lines ++ own = lines := hown
  rfl

theorem bind {x : Writer α} {f : α → Writer β} (hx : Appends x) (hf : ∀ a, Appends (f a)) :
  Appends (x >>= f)
  := by
  intro b
  rw [bind_apply]
  split
  · next a b' hrun =>
    obtain ⟨own, hb'⟩ := hx.exists_grown hrun
    obtain ⟨h, hline⟩ := hf a b'
    exact ⟨keptBy_of_grown hb' h, hline⟩
  · next e b' hrun =>
    exact keptBy_of_error (hx b) hrun

theorem deeper {x : Writer Unit} (hx : Appends x) :
  Appends (Writer.deeper x)
  := by
  intro b
  obtain ⟨h, hline⟩ := hx { b with indent := b.indent + 1 }
  rw [deeper_apply]
  split
  · next b' hrun =>
    rw [hrun] at h
    have hindent := h.indent_eq _ rfl
    refine ⟨⟨h.head, h.lines, ?_, fun _ _ => ?_, h.room⟩, nofun⟩ <;> dsimp only at hindent ⊢ <;> omega
  · next e b' hrun =>
    rw [hrun] at h hline
    have hindent := h.indent_le
    refine ⟨⟨h.head, h.lines, ?_, nofun, h.room⟩, by simpa using hline⟩
    dsimp only at hindent ⊢
    omega

theorem braces (header : String) (isEmpty : Bool) {inner : Writer Unit} (h : Appends inner) :
  Appends (Writer.braces header isEmpty inner)
  := by
  rw [Writer.braces]
  split
  · apply line
  · apply (line _).bind fun _ => ?_
    exact h.deeper.bind fun _ => line _

end Appends

/-! ### The line that is taken back -/

theorem bind_eq_ok {x : Writer α} {f : α → Writer β} {b b' : Buffer} {c : β}
    (h : (x >>= f) b = (.ok c, b')) :
  ∃ a b₁, x b = (.ok a, b₁) ∧ f a b₁ = (.ok c, b')
  := by
  rw [bind_apply] at h
  split at h
  · next a b₁ hrun => exact ⟨a, b₁, hrun, h⟩
  · cases h

/-- A line is written at the end, behind its margin. -/
theorem line_eq_ok {text : String} {b b' : Buffer} (h : line text b = (.ok (), b')) :
  ∃ m, b.margin? = .ok m ∧ b' = { b with lines := b.lines ++ [m ++ text] }
  := by
  rw [line] at h
  split at h
  · next m hm =>
    cases h
    exact ⟨m, hm, rfl⟩
  · cases h

/-- Taking a line back undoes writing it. -/
theorem takeBack_apply {b : Buffer} {m : String} (hm : b.margin? = .ok m) (ls : List String)
    (text : String) :
  takeBack { b with lines := ls ++ [m ++ text] } = (.ok text, { b with lines := ls })
  := by
  have hm' : Buffer.margin? { b with lines := ls } = .ok m := hm
  have hdrop : (m.toList ++ text.toList).drop m.length = text.toList := by
    rw [← String.length_toList, List.drop_left]
  rw [takeBack]
  simp only [List.getLast?_concat, List.dropLast_concat, hm', String.toList_append, hdrop,
    String.ofList_toList]

/-- Where no error is met, the last line is one that has been written since, and it can be taken
back. -/
def EndsInLine (x : Writer Unit) : Prop :=
  ∀ b b', x b = (.ok (), b') → ∃ own m text, b.margin? = .ok m
    ∧ b'.lines = b.lines ++ own ++ [m ++ text]
    ∧ takeBack b' = (.ok text, { b with lines := b.lines ++ own })

theorem endsInLine_line (text : String) :
  EndsInLine (line text)
  := by
  intro b b' h
  obtain ⟨m, hm, rfl⟩ := line_eq_ok h
  refine ⟨[], m, text, hm, by simp, ?_⟩
  rw [List.append_nil]
  exact takeBack_apply hm b.lines text

/-- A last line that is written after other ones. -/
theorem EndsInLine.after {x : Writer α} {f : α → Writer Unit} (hx : Appends x)
    (hf : ∀ a, EndsInLine (f a)) :
  EndsInLine (x >>= f)
  := by
  intro b b' h
  obtain ⟨a, b₁, hrun, h⟩ := bind_eq_ok h
  obtain ⟨own, rfl⟩ := hx.exists_grown hrun
  obtain ⟨own', m, text, hm, hlines, htake⟩ := hf a _ _ h
  refine ⟨own ++ own', m, text, hm, ?_, ?_⟩
  · rw [hlines, List.append_assoc b.lines]
  · rw [htake, List.append_assoc]

/-- The line that closes a block has been written with the block. -/
theorem endsInLine_braces (header : String) (isEmpty : Bool) {inner : Writer Unit}
    (h : Appends inner) :
  EndsInLine (braces header isEmpty inner)
  := by
  rw [braces]
  split
  · apply endsInLine_line
  · refine .after (.line _) fun _ => .after h.deeper fun _ => endsInLine_line _

/-- A writer that takes back a line which has been written just before it. -/
theorem Appends.takingBack {x : Writer Unit} {f : String → Writer α} (hx : Appends x)
    (hlast : EndsInLine x) (hf : ∀ text, Appends (f text)) :
  Appends (x >>= fun _ => takeBack >>= f)
  := by
  intro b
  rw [bind_apply]
  split
  · next b' hrun =>
    obtain ⟨own, m, text, -, -, htake⟩ := hlast b b' hrun
    rw [bind_apply, htake]
    obtain ⟨h, hline⟩ := hf text _
    exact ⟨keptBy_of_grown rfl h, hline⟩
  · next e b' hrun =>
    exact keptBy_of_error (hx b) hrun

end Writer

/-! ### Trees -/

namespace Tree

open Writer

theorem writeClause_of_not_isBlock {t : Tree} (h : t.isBlock = false) (header : String) :
  t.writeClause header = line header >>= fun _ => deeper t.visit
  := by
  rw [writeClause]
  rintro body rfl
  cases h

mutual

/-- Writing a statement only adds lines. -/
theorem appends_visit (t : Tree) :
  Appends t.visit
  := by
  cases t with
  | program body =>
    rw [visit]
    apply appends_visitBody body
  | block body =>
    rw [visit]
    apply Appends.braces _ _ (appends_visitBody body)
  | empty =>
    rw [visit]
    apply Appends.line
  | expression e =>
    rw [visit]
    exact (Appends.need _).bind fun text => .line _
  | declare ds =>
    rw [visit]
    exact (Appends.need _).bind fun texts => .line _
  | declaration id init =>
    rw [visit]
    exact (Appends.need _).bind fun _ => .pure ()
  | condition test consequent alternate =>
    rw [visit]
    apply appends_writeCondition "" (condition test consequent alternate)
  | _ =>
    rw [visit] <;> first | apply Appends.refuse | simp
  termination_by (sizeOf t, 1)

theorem appends_writeClause (header : String) (t : Tree) :
  Appends (t.writeClause header)
  := by
  cases hblock : t.isBlock with
  | true =>
    cases t with
    | block body =>
      rw [writeClause]
      apply Appends.braces _ _ (appends_visitBody body)
    | _ => cases hblock
  | false =>
    rw [writeClause_of_not_isBlock hblock]
    exact (Appends.line _).bind fun _ => (appends_visit t).deeper
  termination_by (sizeOf t, 2)

theorem appends_writeCondition (start : String) (t : Tree) :
  Appends (t.writeCondition start)
  := by
  cases t with
  | condition test consequent alternate =>
    have hconsequent (header : String) := appends_writeClause header consequent
    have halternate (word : String) : Appends
        (if alternate.isCondition then alternate.writeCondition (word ++ " ")
          else alternate.writeClause word) := by
      split
      · apply appends_writeCondition _ alternate
      · apply appends_writeClause _ alternate
    rw [writeCondition]
    apply (Appends.need _).bind fun text => ?_
    split
    · exact (hconsequent _).bind fun _ => .pure ()
    · cases consequent with
      | block body =>
        simp only [alternativeWord, isBlock, if_true, bind_assoc, pure_bind]
        refine (hconsequent _).takingBack ?_ fun text => halternate _
        rw [writeClause]
        apply endsInLine_braces _ _ (appends_visitBody body)
      | _ => exact (hconsequent _).bind fun _ => halternate "else"
  | _ =>
    rw [writeCondition] <;> first | apply Appends.refuse | simp
  termination_by (sizeOf t, 0)

theorem appends_visitBody (body : Tree) :
  Appends body.visitBody
  := by
  cases body with
  | list ts =>
    rw [visitBody]
    apply appends_visitItems ts
  | scalar v =>
    cases v with
    | text s =>
      rw [visitBody]
      split
      · apply Appends.pure
      · apply Appends.refuse
    | _ => rw [visitBody] <;> first | apply Appends.refuse | simp
  | _ => rw [visitBody] <;> first | apply Appends.refuse | simp
  termination_by (sizeOf body, 0)

theorem appends_visitItems (ts : List Tree) :
  Appends (visitItems ts)
  := by
  cases ts with
  | nil =>
    rw [visitItems]
    apply Appends.pure
  | cons t ts =>
    rw [visitItems]
    exact (appends_visit t).bind fun _ => appends_visitItems ts
  termination_by (sizeOf ts, 0)

end

/-- Where a block has been written without an error, its last line is the one that closes it. -/
theorem endsInLine_writeClause {t : Tree} (h : t.isBlock = true) (header : String) :
  EndsInLine (t.writeClause header)
  := by
  cases t with
  | block body =>
    rw [writeClause]
    apply endsInLine_braces _ _ (appends_visitBody body)
  | _ => cases h

end Tree

end Letter
