import Letter.Proofs.Printing.Spells
import Letter.Tree.Layout

/-!
# Lines that spell tokens

Lines spell tokens if they are cut into them at any margins.  A layout that hands back the
line that closes a block spells tokens if its lines and that line do, one after the other.
-/

namespace Letter

/-- Lines as they are written below other ones, given the margin of each depth. -/
def written (margin : Nat → List Char) (ls : List Line) : List Char :=
  ls.flatMap fun l => '\n' :: (margin l.depth ++ l.text.toList)

/-- A word ends before lines, for they begin with an end of a line. -/
theorem endsWord_written (margin : Nat → List Char) (ls : List Line) {rest : List Char}
    (h : EndsWord rest) :
  EndsWord (written margin ls ++ rest)
  := by
  cases ls with
  | nil => exact h
  | cons l ls =>
    rw [written, List.flatMap_cons, List.cons_append, List.cons_append, endsWord_cons]
    decide

/-- Lines are cut into the tokens at all margins. -/
def LinesSpell (ls : List Line) (ts : List Token) : Prop :=
  ∀ margin : Nat → List Char, (∀ n, ∀ c ∈ margin n, isBlank c = true) →
    ∀ rest us, EndsWord rest → Cut rest us → Cut (written margin ls ++ rest) (ts ++ us)

namespace LinesSpell

theorem nil :
  LinesSpell [] []
  := fun _ _ _ _ _ hcut => hcut

theorem append {ls ls' : List Line} {ts ts' : List Token} (h : LinesSpell ls ts)
    (h' : LinesSpell ls' ts') :
  LinesSpell (ls ++ ls') (ts ++ ts')
  := by
  intro margin hm rest us hends hcut
  have hlater := h' margin hm rest us hends hcut
  have hall := h margin hm _ _ (endsWord_written margin ls' hends) hlater
  simpa [written] using hall

/-- A line whose text spells tokens. -/
theorem line {s : String} {ts : List Token} (h : Spells s ts) :
  LinesSpell [⟨0, s⟩] ts
  := by
  intro margin hm rest us hends hcut
  have htext := Cut.blanks (hm 0) (h.cut rest us hends hcut)
  have hbreak := (Cut.blank_iff (c := '\n') (by decide)).2 htext
  simpa [written] using hbreak

/-- The same lines one level deeper. -/
theorem deeper {ls : List Line} {ts : List Token} (h : LinesSpell ls ts) :
  LinesSpell (ls.map fun l => { l with depth := l.depth + 1 }) ts
  := by
  intro margin hm rest us hends hcut
  have hall := h (fun n => margin (n + 1)) (fun n => hm (n + 1)) rest us hends hcut
  simpa [written, List.flatMap_map] using hall

end LinesSpell

namespace Layout

variable {α β : Type}

theorem result_bind {x : Layout α} {a : α} (h : x.result = .ok a) (f : α → Layout β) :
  (x >>= f).result = (f a).result
  := by
  change (Layout.bind x f).result = _
  rw [Layout.bind, h]

theorem lines_bind {x : Layout α} {a : α} (h : x.result = .ok a) (f : α → Layout β) :
  (x >>= f).lines = x.lines ++ (f a).lines
  := by
  change (Layout.bind x f).lines = _
  rw [Layout.bind, h]

/-- A layout that comes to an end, and whose lines spell the tokens. -/
structure Spell (x : Layout Unit) (ts : List Token) : Prop where
  result : x.result = .ok ()
  lines : LinesSpell x.lines ts

/-- The line that closes a block, if there is one, spells the tokens. -/
def Closes : Option String → List Token → Prop
  | none, ts => ts = []
  | some s, ts => Spells s ts

/-- A layout that comes to an end, and whose lines and then the one that it hands back spell
the tokens. -/
def SpellUpTo (x : Layout (Option String)) (ts : List Token) : Prop :=
  ∃ closing us vs, ts = us ++ vs ∧ x.result = .ok closing ∧ LinesSpell x.lines us
    ∧ Closes closing vs

namespace Spell

theorem bind {x : Layout α} {a : α} {f : α → Layout Unit} {ts us : List Token}
    (h : x.result = .ok a) (hx : LinesSpell x.lines ts) (hf : (f a).Spell us) :
  (x >>= f).Spell (ts ++ us)
  where
    result := by rw [result_bind h, hf.result]
    lines := by
      rw [lines_bind h]
      apply hx.append hf.lines

theorem ofExcept {a : α} {f : α → Layout Unit} {ts : List Token} (h : (f a).Spell ts) :
  (Layout.ofExcept (.ok a) >>= f).Spell ts
  := by
  have hall := bind (x := Layout.ofExcept (.ok a)) rfl .nil h
  exact hall

theorem line {s : String} {ts : List Token} (h : Spells s ts) :
  (line s).Spell ts
  := ⟨rfl, .line h⟩

theorem deeper {x : Layout Unit} {ts : List Token} (h : x.Spell ts) :
  x.nested.Spell ts
  where
    result := by rw [nested, h.result]; rfl
    lines := h.lines.deeper

/-- A layout that hands nothing back. -/
theorem upTo {x : Layout Unit} {ts : List Token} (h : x.Spell ts) :
  (x >>= fun _ => pure none : Layout (Option String)).SpellUpTo ts
  := by
  refine ⟨none, ts, [], (List.append_nil ts).symm, ?_, ?_, rfl⟩
  · rw [result_bind h.result]
    rfl
  · rw [lines_bind h.result]
    exact (List.append_nil x.lines).symm ▸ h.lines

end Spell

/-- What follows a layout may hand back the line that closes a block. -/
theorem SpellUpTo.bind {x : Layout α} {a : α} {f : α → Layout (Option String)}
    {ts us : List Token} (h : x.result = .ok a) (hx : LinesSpell x.lines ts)
    (hf : (f a).SpellUpTo us) :
  (x >>= f).SpellUpTo (ts ++ us)
  := by
  obtain ⟨closing, us, vs, rfl, hresult, hlines, hcloses⟩ := hf
  refine ⟨closing, ts ++ us, vs, (List.append_assoc _ _ _).symm, ?_, ?_, hcloses⟩
  · rw [result_bind h, hresult]
  · rw [lines_bind h]
    apply hx.append hlines

theorem SpellUpTo.continued {x : Layout (Option String)} {ts : List Token}
    (h : x.SpellUpTo ts) :
  x.continued.SpellUpTo ts
  := by
  obtain ⟨closing, us, vs, rfl, hresult, hlines, hcloses⟩ := h
  refine ⟨closing, us, vs, rfl, ?_, hlines, hcloses⟩
  rw [Layout.continued, hresult]
  rfl

/-- Writing the line that closes a block spells its tokens. -/
theorem Closes.spell {closing : Option String} {ts : List Token} (h : Closes closing ts) :
  (close closing).Spell ts
  := by
  cases closing with
  | none =>
    obtain rfl : ts = [] := h
    exact ⟨rfl, .nil⟩
  | some s => exact .line h

/-- The line handed back is written where nothing continues it. -/
theorem SpellUpTo.close {x : Layout (Option String)} {ts : List Token} (h : x.SpellUpTo ts) :
  (x >>= close).Spell ts
  := by
  obtain ⟨closing, us, vs, rfl, hresult, hlines, hcloses⟩ := h
  exact .bind hresult hlines hcloses.spell

/-- Once the line that closes a block has been written, another layout may follow. -/
theorem SpellUpTo.close_bind {x : Layout (Option String)} {y : Layout Unit}
    {ts us : List Token} (h : x.SpellUpTo ts) (hy : y.Spell us) :
  (x >>= fun closing => Layout.close closing >>= fun _ => y).Spell (ts ++ us)
  := by
  obtain ⟨closing, ts, ts', rfl, hresult, hlines, hcloses⟩ := h
  rw [List.append_assoc]
  exact .bind hresult hlines (.bind hcloses.spell.result hcloses.spell.lines hy)

/-! ### What stands before a statement -/

/-- What stands before a statement spells the tokens. -/
def Before.Spell : Before → List Token → Prop
  | nothing, ts => ts = []
  | governor s, ts | otherwise s, ts => Spells s ts

/-- What stands before a brace spells its tokens before those of the brace. -/
theorem spells_opener {b : Before} {ts us : List Token} {s : String} (h : b.Spell ts)
    (hs : Spells s us) :
  Spells (b.opener ++ s) (ts ++ us)
  := by
  cases b with
  | nothing =>
    obtain rfl : ts = [] := h
    rw [Before.opener, String.empty_append, List.nil_append]
    exact hs
  | governor text | otherwise text =>
    have hne : text ≠ "" := Spells.ne_empty h
    rw [Before.opener, if_neg hne]
    apply Spells.spaced h hs

/-- A statement that goes on a line of its own. -/
theorem below_spellUpTo {b : Before} {ts us : List Token} {x : Layout Unit} (h : b.Spell ts)
    (hx : x.Spell us) :
  (b.below x).SpellUpTo (ts ++ us)
  := by
  cases b with
  | nothing =>
    obtain rfl : ts = [] := h
    apply hx.upTo
  | governor s | otherwise s => exact .bind rfl (.line h) hx.deeper.upTo

/-! ### Conditions -/

/-- What stands before a condition on its line. -/
def Starts (start : String) (ts : List Token) : Prop :=
  (start = "" ∧ ts = []) ∨ ∃ s, start = s ++ " " ∧ Spells s ts

theorem Starts.append {start s : String} {ts us : List Token} (h : Starts start ts)
    (hs : Spells s us) :
  Spells (start ++ s) (ts ++ us)
  := by
  obtain ⟨rfl, rfl⟩ | ⟨s', rfl, hs'⟩ := h
  · rw [String.empty_append, List.nil_append]
    exact hs
  · apply Spells.spaced hs' hs

/-- The beginning of a line and the test of a condition spell the tokens up to the statement that it
governs. -/
theorem Starts.governor {start s : String} {ts us : List Token} (h : Starts start ts)
    (hs : Spells s us) :
  Spells (start ++ "if (" ++ s ++ ")") (ts ++ .keyword .ifWord :: Token.inParens us)
  := by
  have hword : Spells "if" [.keyword .ifWord] :=
    .token (t := .keyword .ifWord) trivial (by simp)
  have hhead := h.append (hword.spaced hs.parens)
  rw [show "if (" = "if" ++ " " ++ "(" from rfl]
  simpa only [String.append_assoc, List.singleton_append] using hhead

/-- A condition, which goes on the line of the word that begins an alternative. -/
theorem beside_spellUpTo {b : Before} {ts us : List Token} {condition : String → Layout Unit}
    (h : b.Spell ts) (hc : ∀ start ws, Starts start ws → (condition start).Spell (ws ++ us)) :
  (b.beside condition).SpellUpTo (ts ++ us)
  := by
  cases b with
  | nothing => apply below_spellUpTo h (hc "" [] (.inl ⟨rfl, rfl⟩))
  | governor s => apply below_spellUpTo h (hc "" [] (.inl ⟨rfl, rfl⟩))
  | otherwise s => apply (hc (s ++ " ") ts (.inr ⟨s, rfl, h⟩)).upTo

section

variable {start text : String} {ts us vs : List Token}
  {consequent : Before → Layout (Option String)}

/-- A condition without an alternative. -/
theorem condition_spell {ws : List Token} (hstart : Starts start ws) (htext : Spells text ts)
    (hconsequent : ∀ b bs, b.Spell bs → (consequent b).SpellUpTo (bs ++ us)) :
  (condition start (.ok text) consequent none).Spell
    (ws ++ .keyword .ifWord :: (Token.inParens ts ++ us))
  := by
  have hc := hconsequent (.governor (start ++ "if (" ++ text ++ ")")) _
    (hstart.governor htext)
  have hall := hc.close
  rw [List.append_assoc, List.cons_append] at hall
  exact .ofExcept (a := text) (f := fun text =>
    consequent (.governor (start ++ "if (" ++ text ++ ")")) >>= close) hall

/-- The word that begins an alternative, after the line that closes the consequent. -/
theorem spells_elseWord {closing : Option String} {ts : List Token} :
  Closes closing ts →
    Spells (match closing with | none => "else" | some text => text ++ " else")
      (ts ++ [.keyword .elseWord])
  := by
  intro h
  have hword : Spells "else" [.keyword .elseWord] :=
    .token (t := .keyword .elseWord) trivial (by simp)
  cases closing with
  | none =>
    obtain rfl : ts = [] := h
    exact hword
  | some s =>
    have hs := Spells.spaced h hword
    rwa [String.append_assoc] at hs

/-- A condition with an alternative, which goes on after the line that closes the
consequent. -/
theorem condition_spell_otherwise {ws : List Token}
    {alternate : Before → Layout (Option String)} (hstart : Starts start ws)
    (htext : Spells text ts)
    (hconsequent : ∀ b bs, b.Spell bs → (consequent b).SpellUpTo (bs ++ us))
    (halternate : ∀ b bs, b.Spell bs → (alternate b).SpellUpTo (bs ++ vs)) :
  (condition start (.ok text) consequent (some alternate)).Spell
    (ws ++ .keyword .ifWord :: (Token.inParens ts ++ us ++ .keyword .elseWord :: vs))
  := by
  obtain ⟨closing, front, back, hc, hresult, hlines, hcloses⟩ :=
    hconsequent (.governor (start ++ "if (" ++ text ++ ")")) _ (hstart.governor htext)
  have ha := (halternate (.otherwise _) _ (spells_elseWord hcloses)).continued.close
  have hlater := Spell.bind (f := fun closing =>
    continued (alternate (.otherwise
      (match closing with | none => "else" | some text => text ++ " else"))) >>= close)
    hresult hlines ha
  have hsplit : ws ++ .keyword .ifWord :: (Token.inParens ts ++ us ++ .keyword .elseWord :: vs)
      = front ++ (back ++ [.keyword .elseWord] ++ vs) := by
    rw [← List.append_assoc front, ← List.append_assoc front, ← hc]
    simp
  rw [hsplit]
  exact .ofExcept (a := text) (f := fun text =>
    consequent (.governor (start ++ "if (" ++ text ++ ")")) >>= fun closing =>
      continued (alternate (.otherwise
        (match closing with | none => "else" | some text => text ++ " else"))) >>= close)
    hlater

end

end Layout

end Letter
