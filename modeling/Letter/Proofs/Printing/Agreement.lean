import Letter.Proofs.Printing.InPlace

/-!
# Layouts and writing in place

Laying a tree out and then writing the layout comes to the same as writing the tree in place, as
long as there are margins for the levels that it has.  Either way the lines that are there stay,
and writing a whole tree does not depend on them.

Main statement: `Buffer.only_grows`.
-/

namespace Letter

namespace Buffer

/-- Whether there are margins for a number of levels below that of a buffer. -/
def HasRoom (b : Buffer) (levels : Nat) : Prop :=
  ∀ d : Nat, d ≤ levels → ∃ m, { b with indent := b.indent + d }.margin? = .ok m

theorem HasRoom.mono {b : Buffer} {m n : Nat} (h : b.HasRoom n) (hle : m ≤ n) :
  b.HasRoom m
  := fun d hd => h d (Nat.le_trans hd hle)

/-- One level deeper there is room for one level less. -/
theorem HasRoom.deeper {b : Buffer} {n : Nat} (h : b.HasRoom (n + 1)) :
  { b with indent := b.indent + 1 }.HasRoom n
  := by
  intro d hd
  obtain ⟨m, hm⟩ := h (d + 1) (Nat.succ_le_succ hd)
  refine ⟨m, ?_⟩
  rw [← hm]
  congr 2
  push_cast
  omega

theorem width_of_margin? {b : Buffer} {m : String} (h : b.margin? = .ok m) :
  ∃ width, marginWidth b.room step b.indent = .ok width ∧ blanks width = m
  := by
  rw [margin?] at h
  cases hwidth : marginWidth b.room step b.indent with
  | error e =>
    rw [hwidth] at h
    cases h
  | ok width =>
    rw [hwidth] at h
    exact ⟨width, rfl, Except.ok.inj h⟩

/-- A margin is made of the blanks of its levels. -/
theorem eq_margin {b : Buffer} {m : String} (h : b.margin? = .ok m) :
  m = margin b.indent
  := by
  obtain ⟨width, hwidth, rfl⟩ := width_of_margin? h
  rw [(marginWidth_eq_ok_iff.1 hwidth).1, margin]

/-- Where there is room for a line there is its margin. -/
theorem HasRoom.margin?_eq {b : Buffer} {n : Nat} (h : b.HasRoom n) :
  b.margin? = .ok (margin b.indent)
  := by
  obtain ⟨m, hm⟩ := h 0 (Nat.zero_le n)
  have hm' : b.margin? = .ok m := by
    rw [← hm]
    congr 2
    simp
  rw [hm', eq_margin hm']

/-- Where there is room for a layout it is written as it is. -/
theorem HasRoom.write_eq_add {α : Type} {b : Buffer} {n : Nat} (h : b.HasRoom n) (x : Layout α) :
  b.write x = b.add x
  := by
  rw [write, h.margin?_eq]
  split <;> rfl

/-- There is room wherever the blanks of the deepest level are not too many. -/
theorem hasRoom_of_admits {b : Buffer} {n : Nat} (h : 0 ≤ b.indent)
    (hword : step * (b.indent + n).toNat < Nat.pow 2 63)
    (hroom : b.room.admits (step * (b.indent + n).toNat) = true) :
  b.HasRoom n
  := by
  intro d hd
  have hle : step * (b.indent + d).toNat ≤ step * (b.indent + n).toNat := by
    rw [step]
    omega
  have hfits : fitsWord (b.indent + d) = true := by
    simp only [fitsWord, step, Nat.pow_eq, Bool.and_eq_true, decide_eq_true_eq] at hle hword ⊢
    omega
  exact ⟨_, by
    rw [margin?, marginWidth_eq_ok hfits (Nat.lt_of_le_of_lt hle hword) (Room.admits_of_le hroom hle)]
    rfl⟩

end Buffer

namespace Writer

variable {α β : Type}

/-- Writes a layout whose lines have margins. -/
def perform (x : Layout α) : Writer α := fun b =>
  ((b.add x).1.mapError .refused, (b.add x).2)

theorem perform_ofExcept (x : Except LayoutError α) :
  perform (Layout.ofExcept x) = need x
  := by
  funext b
  cases x with
  | ok a => simp [perform, Buffer.add, Layout.ofExcept, need]; rfl
  | error e => simp [perform, Buffer.add, Layout.ofExcept, need]; rfl

/-- One layout after another is performed one after the other. -/
theorem perform_bind (x : Layout α) (f : α → Layout β) :
  perform (x >>= f) = perform x >>= fun a => perform (f a)
  := by
  funext b
  rw [bind_apply]
  change perform (Layout.bind x f) b = _
  obtain ⟨lines, result⟩ := x
  cases result with
  | error e => rfl
  | ok a =>
    cases hf : (f a).result <;> simp [perform, Layout.bind, Buffer.add, hf, Except.mapError]

theorem perform_continued (x : Layout α) :
  perform x.continued = perform x
  := by
  funext b
  obtain ⟨lines, result⟩ := x
  cases result <;> rfl

/-- A layout one level deeper is performed one level deeper. -/
theorem perform_nested (x : Layout Unit) :
  perform x.nested = deeper (perform x)
  := by
  have hindent (n : Int) (d : Nat) : n + ((d : Int) + 1) = n + 1 + d := by omega
  funext b
  rw [deeper_apply]
  obtain ⟨lines, result⟩ := x
  cases result <;>
    simp [perform, Layout.nested, Buffer.add, Except.mapError, Function.comp_def, hindent]

/-- A writer that writes a layout wherever there are margins for its levels. -/
def Writes (levels : Nat) (x : Writer α) (y : Layout α) : Prop :=
  ∀ b : Buffer, b.HasRoom levels → x b = perform y b

namespace Writes

variable {m n : Nat} {x : Writer α} {y : Layout α}

theorem mono (h : Writes m x y) (hle : m ≤ n) :
  Writes n x y
  := fun b hb => h b (hb.mono hle)

theorem need (e : Except LayoutError α) :
  Writes n (Writer.need e) (Layout.ofExcept e)
  := fun b _ => congrFun (perform_ofExcept e).symm b

theorem pure (a : α) :
  Writes n (Pure.pure a) (Pure.pure a)
  := need (.ok a)

theorem line (text : String) :
  Writes n (Writer.line text) (Layout.line text)
  := by
  intro b hb
  rw [Writer.line, hb.margin?_eq]
  simp [perform, Buffer.add, Layout.line, Except.mapError]

/-- Writing deeper takes room for one more level. -/
theorem nested {x : Writer Unit} {y : Layout Unit} (h : Writes n x y) :
  Writes (n + 1) (deeper x) y.nested
  := by
  intro b hb
  rw [perform_nested, deeper_apply, deeper_apply, h _ hb.deeper]

/-- Where a layout is written without an error, the indentation is as before. -/
theorem hasRoom_of_perform {b b' : Buffer} {a : α} (h : perform y b = (.ok a, b'))
    (hb : b.HasRoom n) :
  b'.HasRoom n
  := by
  obtain ⟨lines, result⟩ := y
  cases result <;> cases h
  exact hb

/-- One writer after another lays out one layout after the other. -/
theorem bind {f : α → Writer β} {g : α → Layout β} (h : Writes n x y)
    (hfg : ∀ a, Writes n (f a) (g a)) :
  Writes n (x >>= f) (y >>= g)
  := by
  intro b hb
  rw [perform_bind, bind_apply, bind_apply, h b hb]
  split
  · next a b' hrun => rw [hfg a b' (hasRoom_of_perform hrun hb)]
  · rfl

/-- A line that has been written and taken back need not have been written. -/
theorem takingBack {x : Writer Unit} {y : Layout String} {f : String → Writer β}
    {g : String → Layout β} (h : Writes n x (y >>= Layout.line))
    (hfg : ∀ text, Writes n (f text) (g text)) :
  Writes n (x >>= fun _ => takeBack >>= f) (y >>= g)
  := by
  intro b hb
  rw [bind_apply, h b hb, perform_bind, perform_bind, bind_apply, bind_apply]
  obtain ⟨r, b', hrun⟩ : ∃ r b', perform y b = (r, b') := ⟨_, _, rfl⟩
  rw [hrun]
  cases r with
  | error e => rfl
  | ok text =>
    have hb' := hasRoom_of_perform hrun hb
    dsimp only
    rw [← line text b' hb', Writer.line, hb'.margin?_eq]
    dsimp only
    rw [bind_apply, takeBack_apply hb'.margin?_eq]
    exact hfg text b' hb'

end Writes

end Writer

namespace Layout.Before

/-- The text that stands before a statement. -/
def header : Before → String
  | nothing => ""
  | governor text | otherwise text => text

theorem opener_eq (b : Before) :
  b.opener = if b.header = "" then "" else b.header ++ " "
  := by
  cases b <;> rfl

end Layout.Before

/-- With nothing before it, a statement stands as it is. -/
theorem Layout.close_below_nothing (x : Layout Unit) :
  (do close (← Before.nothing.below x)) = x
  := by
  simp only [Before.below, bind_assoc, pure_bind, close, bind_pure_unit]

namespace Tree

open Layout Writer

/-- How much deeper than its header a statement stands that is no block. -/
def clauseLevel (t : Tree) : Nat := if t.isBlock then 0 else 1

mutual

/-- The number of levels that the lines of a statement go below its first. -/
def height : Tree → Nat
  | program body => body.height
  | block body => if body.truth then body.height + 1 else 0
  | condition _ consequent alternate =>
    max (consequent.height + consequent.clauseLevel)
      (if alternate.isNull then 0
        else alternate.height + if alternate.isCondition then 0 else alternate.clauseLevel)
  | list items => heightOfItems items
  | _ => 0

/-- The number of levels that the lines of some statements go below the first. -/
def heightOfItems : List Tree → Nat
  | [] => 0
  | t :: ts => max t.height (heightOfItems ts)

end

/-! ### Statements behind a header -/

/-- Of a block the last line is handed back. -/
theorem exists_layoutAfter_block (b : Before) (body : Tree) :
  ∃ y : Layout String, (block body).layoutAfter b = y >>= fun text => pure (some text)
  := by
  rw [layoutAfter]
  split
  · refine ⟨do line (b.opener ++ "\x7b"); nested (layoutBody body); return "\x7d", ?_⟩
    simp only [bind_assoc, pure_bind]
  · exact ⟨pure (b.opener ++ "\x7b\x7d"), by rw [pure_bind]⟩

/-- Other statements stand below their header. -/
theorem layoutAfter_governor {t : Tree} (h : t.isBlock = false) (header : String) :
  t.layoutAfter (.governor header) = do
    line header
    nested t.layout
    return none
  := by
  cases t with
  | block body => cases h
  | _ => simp only [layout, layoutAfter, Before.beside, close_below_nothing]; rfl

/-- What is no condition stands behind the word for an alternative as behind a condition. -/
theorem layoutAfter_otherwise {t : Tree} (h : t.isCondition = false) (header : String) :
  t.layoutAfter (.otherwise header) = t.layoutAfter (.governor header)
  := by
  cases t with
  | condition test consequent alternate => cases h
  | _ => rfl

/-- A condition goes on the line of the word for an alternative. -/
theorem layoutAfter_otherwise_condition {t : Tree} (h : t.isCondition = true) (header : String) :
  t.layoutAfter (.otherwise header) = do
    t.layoutCondition (header ++ " ")
    return none
  := by
  cases t with
  | condition test consequent alternate => rfl
  | _ => cases h

theorem layoutClause_of_not_isBlock {t : Tree} (h : t.isBlock = false) (header : String) :
  t.layoutClause header = (do line header; nested t.layout)
  := by
  rw [layoutClause, layoutAfter_governor h]
  simp only [bind_assoc, pure_bind, close, bind_pure_unit]

/-! ### Trees -/

/-- A block is written as it is laid out if its body is. -/
theorem writes_block {body : Tree} (h : Writes body.height body.visitBody body.layoutBody)
    (b : Before) :
  Writes (block body).height (braces b.header (!body.truth) body.visitBody)
    ((block body).layoutAfter b >>= close)
  := by
  rw [height, layoutAfter, braces, ← b.opener_eq]
  cases body.truth with
  | true =>
    simp only [Bool.not_true, Bool.false_eq_true, if_false, if_true, bind_assoc, pure_bind, close]
    exact (Writes.line _).bind fun _ => h.nested.bind fun _ => Writes.line _
  | false =>
    simp only [Bool.not_false, Bool.false_eq_true, if_false, if_true, pure_bind, close]
    exact Writes.line _

/-- What a condition governs, with the word that begins the alternative. -/
theorem writes_consequent {n : Nat} {consequent : Tree} {header : String}
    {f : String → Writer Unit} {g : Option String → Layout Unit}
    (h : Writes n (consequent.writeClause header) (consequent.layoutClause header))
    (hnone : Writes n (f "else") (g none))
    (hsome : ∀ closing, Writes n (f (closing ++ " else")) (g (some closing))) :
  Writes n (do consequent.writeClause header; f (← consequent.alternativeWord))
    (do g (← consequent.layoutAfter (.governor header)))
  := by
  cases hblock : consequent.isBlock with
  | true =>
    obtain ⟨body, rfl⟩ : ∃ body, consequent = block body := by
      cases consequent <;> first | exact ⟨_, rfl⟩ | cases hblock
    obtain ⟨y, hy⟩ := exists_layoutAfter_block (.governor header) body
    rw [layoutClause, hy] at h
    rw [hy]
    simp only [bind_assoc, pure_bind, close] at h ⊢
    simp only [alternativeWord, isBlock, if_true, bind_assoc, pure_bind]
    exact h.takingBack hsome
  | false =>
    have hclause : (do g (← consequent.layoutAfter (.governor header)))
        = (do consequent.layoutClause header; g none) := by
      rw [layoutAfter_governor hblock, layoutClause_of_not_isBlock hblock]
      simp only [bind_assoc, pure_bind]
    rw [hclause, alternativeWord, hblock]
    exact h.bind fun _ => hnone

/-- What follows the word `else`. -/
theorem writes_alternative {alternate : Tree} {word : String}
    (hcondition : Writes alternate.height (alternate.writeCondition (word ++ " "))
      (alternate.layoutCondition (word ++ " ")))
    (hclause : Writes (alternate.height + alternate.clauseLevel) (alternate.writeClause word)
      (alternate.layoutClause word)) :
  Writes (alternate.height + if alternate.isCondition then 0 else alternate.clauseLevel)
    (if alternate.isCondition then alternate.writeCondition (word ++ " ")
      else alternate.writeClause word)
    (do close (← continued (alternate.layoutAfter (.otherwise word))))
  := by
  have hcontinued (x : Layout (Option String)) :
      perform (do close (← continued x)) = perform (do close (← x)) := by
    rw [perform_bind, perform_continued, perform_bind]
  rw [Writes, hcontinued]
  cases h : alternate.isCondition with
  | true =>
    rw [layoutAfter_otherwise_condition h]
    simp only [bind_assoc, pure_bind, close, bind_pure_unit, if_true]
    exact hcondition
  | false =>
    rw [layoutAfter_otherwise h]
    exact hclause

mutual

/-- A statement is written as it is laid out, if there is room for all its levels. -/
theorem writes_visit (t : Tree) :
  Writes t.height t.visit t.layout
  := by
  cases t with
  | program body =>
    rw [visit, layout, layoutAfter, close_below_nothing]
    apply writes_visitBody body
  | block body =>
    rw [visit]
    apply writes_block (writes_visitBody body) .nothing
  | empty =>
    rw [visit, layout, layoutAfter, close_below_nothing]
    apply Writes.line
  | expression e =>
    rw [visit, layout, layoutAfter, close_below_nothing]
    exact (Writes.need _).bind fun text => .line _
  | declare ds =>
    rw [visit, layout, layoutAfter, close_below_nothing]
    exact (Writes.need _).bind fun texts => .line _
  | declaration id init =>
    rw [visit, layout, layoutAfter, close_below_nothing]
    exact (Writes.need _).bind fun _ => .pure ()
  | condition test consequent alternate =>
    rw [visit, layout, layoutAfter, Before.beside, close_below_nothing]
    · apply writes_writeCondition "" (condition test consequent alternate)
    · simp
  | _ =>
    rw [visit, layout, layoutAfter, close_below_nothing]
    · apply Writes.need (.error _)
    all_goals simp
  termination_by (sizeOf t, 1)

theorem writes_writeClause (header : String) (t : Tree) :
  Writes (t.height + t.clauseLevel) (t.writeClause header) (t.layoutClause header)
  := by
  cases hblock : t.isBlock with
  | true =>
    cases t with
    | block body =>
      rw [writeClause]
      apply writes_block (writes_visitBody body) (.governor header)
    | _ => cases hblock
  | false =>
    rw [writeClause_of_not_isBlock hblock, layoutClause_of_not_isBlock hblock, clauseLevel, hblock]
    exact (Writes.line _).bind fun _ => (writes_visit t).nested
  termination_by (sizeOf t, 2)

theorem writes_writeCondition (start : String) (t : Tree) :
  Writes t.height (t.writeCondition start) (t.layoutCondition start)
  := by
  cases t with
  | condition test consequent alternate =>
    have hconsequent (header : String) :
        Writes (condition test consequent alternate).height (consequent.writeClause header)
          (consequent.layoutClause header) :=
      (writes_writeClause header consequent).mono (by rw [height]; exact Nat.le_max_left _ _)
    have halternate (word : String) := writes_alternative
      (writes_writeCondition (word ++ " ") alternate) (writes_writeClause word alternate)
    rw [writeCondition, layoutCondition, Layout.condition]
    apply (Writes.need _).bind fun text => ?_
    cases hnull : alternate.isNull with
    | true =>
      simp only [if_true, bind_pure_unit]
      apply hconsequent
    | false =>
      have hle : alternate.height + (if alternate.isCondition then 0 else alternate.clauseLevel)
          ≤ (condition test consequent alternate).height := by
        rw [height, hnull]
        exact Nat.le_max_right _ _
      exact writes_consequent (hconsequent _) ((halternate _).mono hle)
        fun closing => (halternate _).mono hle
  | _ =>
    rw [writeCondition, layoutCondition]
    · apply Writes.need (.error _)
    all_goals simp
  termination_by (sizeOf t, 0)

theorem writes_visitBody (body : Tree) :
  Writes body.height body.visitBody body.layoutBody
  := by
  cases body with
  | list ts =>
    rw [visitBody, layoutBody, height]
    apply writes_visitItems ts
  | scalar v =>
    cases v with
    | text s =>
      rw [visitBody, layoutBody]
      split
      · apply Writes.pure
      · apply Writes.need (.error _)
    | _ =>
      rw [visitBody, layoutBody]
      · apply Writes.need (.error _)
      all_goals simp
  | _ =>
    rw [visitBody, layoutBody]
    · apply Writes.need (.error _)
    all_goals simp
  termination_by (sizeOf body, 0)

theorem writes_visitItems (ts : List Tree) :
  Writes (heightOfItems ts) (visitItems ts) (layoutItems ts)
  := by
  cases ts with
  | nil =>
    rw [visitItems, layoutItems]
    apply Writes.pure
  | cons t ts =>
    have ht := (writes_visit t).mono (n := heightOfItems (t :: ts))
      (by rw [heightOfItems]; exact Nat.le_max_left _ _)
    have hts := (writes_visitItems ts).mono (n := heightOfItems (t :: ts))
      (by rw [heightOfItems]; exact Nat.le_max_right _ _)
    have hlayout : layoutItems (t :: ts) = (do t.layout; layoutItems ts) := by
      rw [layoutItems, layout, bind_assoc]
    rw [visitItems, hlayout]
    exact ht.bind fun _ => hts
  termination_by (sizeOf ts, 0)

end

end Tree

/-! ### Buffers only grow -/

namespace Buffer

theorem keptBy_add {α : Type} (b : Buffer) (x : Layout α) :
  b.KeptBy (b.add x)
  := by
  obtain ⟨lines, result⟩ := x
  cases result with
  | ok a => exact ⟨rfl, List.prefix_append _ _, Int.le_refl _, fun _ _ => rfl, rfl⟩
  | error e =>
    have hindent : b.indent ≤ b.indent + e.depth := by omega
    exact ⟨rfl, List.prefix_append _ _, hindent, (fun _ h => by cases h), rfl⟩

/-- Writing a layout leaves what is in the buffer. -/
theorem keptBy_write {α : Type} (b : Buffer) (x : Layout α) :
  b.KeptBy (b.write x)
  := by
  cases hbegins : x.beginsLine with
  | false =>
    rw [write, hbegins]
    exact b.keptBy_add x
  | true =>
    cases hmargin : b.margin? with
    | ok m =>
      rw [write, hbegins, hmargin]
      exact b.keptBy_add x
    | error e =>
      rw [write, hbegins, hmargin]
      exact ⟨rfl, List.prefix_rfl, Int.le_refl _, (fun _ h => by cases h), rfl⟩

/-- Writing a tree, with a text before it or none, leaves the lines of a buffer and its
indentation, and a fault leaves the lines and no smaller an indentation.  Writing in place, where
the line that closes a block is taken back, leaves them too: what is taken back has been written
since, and there is always such a line.  Where there are margins the two ways agree.  A whole tree
is written alike whatever is in the buffer. -/
theorem only_grows (b : Buffer) (t : Tree) (text : String) :
  (b.KeptBy (b.write t.layout) ∧ b.KeptBy (b.write (t.layoutClause text))
      ∧ b.KeptBy (b.write (t.layoutCondition text)))
    ∧ (b.KeptBy (t.visit b) ∧ b.KeptBy (t.writeClause text b)
      ∧ b.KeptBy (t.writeCondition text b))
    ∧ ((t.visit b).1 ≠ .error .noLine ∧ (t.writeClause text b).1 ≠ .error .noLine
      ∧ (t.writeCondition text b).1 ≠ .error .noLine)
    ∧ (∀ b', t.isBlock = true → t.writeClause text b = (.ok (), b') → ∃ own m rest,
      b.margin? = .ok m ∧ b'.lines = b.lines ++ own ++ [m ++ rest]
        ∧ Writer.takeBack b' = (.ok rest, { b with lines := b.lines ++ own }))
    ∧ (b.HasRoom t.height →
      t.visit b = ((b.write t.layout).1.mapError .refused, (b.write t.layout).2)
        ∧ t.writeCondition text b = ((b.write (t.layoutCondition text)).1.mapError .refused,
          (b.write (t.layoutCondition text)).2))
    ∧ (b.HasRoom (t.height + t.clauseLevel) →
      t.writeClause text b = ((b.write (t.layoutClause text)).1.mapError .refused,
        (b.write (t.layoutClause text)).2))
    ∧ (b.emit t).1 = t.emit
  := by
  obtain ⟨hvisit, hvisitLine⟩ := t.appends_visit b
  obtain ⟨hclause, hclauseLine⟩ := t.appends_writeClause text b
  obtain ⟨hcondition, hconditionLine⟩ := t.appends_writeCondition text b
  refine ⟨⟨b.keptBy_write _, b.keptBy_write _, b.keptBy_write _⟩, ⟨hvisit, hclause, hcondition⟩,
    ⟨hvisitLine, hclauseLine, hconditionLine⟩, ?_, fun hroom => ⟨?_, ?_⟩, fun hroom => ?_,
    b.emit_fst t⟩
  · intro b' hblock hrun
    exact Tree.endsInLine_writeClause hblock text b b' hrun
  · rw [hroom.write_eq_add]
    exact t.writes_visit b hroom
  · rw [hroom.write_eq_add]
    exact t.writes_writeCondition text b hroom
  · rw [hroom.write_eq_add]
    exact t.writes_writeClause text b hroom

/-- A block behind a condition, in a buffer that has a line at its own indentation. -/
theorem only_grows_indented :
  let b : Buffer := { lines := ["    a;"], indent := 1 }
  let t : Tree := .block (.list [.empty])
  (t.visit b).2.lines = ["    a;", "    \x7b", "        ;", "    \x7d"]
    ∧ ∃ own m rest, b.margin? = .ok m
      ∧ (t.writeClause "if (b)" b).2.lines = b.lines ++ own ++ [m ++ rest]
      ∧ Writer.takeBack (t.writeClause "if (b)" b).2
        = (.ok rest, { b with lines := b.lines ++ own })
  := by
  intro b t
  have hroom : b.HasRoom (t.height + t.clauseLevel) :=
    hasRoom_of_admits (by decide) (by decide) rfl
  obtain ⟨-, -, -, hlast, hvisit, hclause, -⟩ := only_grows b t "if (b)"
  refine ⟨?_, hlast _ rfl ?_⟩
  · rw [(hvisit hroom).1]
    rfl
  · rw [hclause hroom]
    rfl

end Buffer

end Letter
