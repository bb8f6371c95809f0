import Letter.Proofs.Text.Coding
import Letter.Proofs.Token.Longest
import Letter.Token.Cursor

/-!
# Where reading gets stuck

From a place in a text, blanks and comments are passed over up to the next character that begins
none of them.  Whether a token begins there is told by that character and by what follows it: there
are four ways in which a character offends.  At such a character reading is stuck, and remains so
however often it is tried again.

Main statement: `Cursor.answer_next`.
-/

namespace Letter

/-- A text that begins with something to be passed over: a blank, a line comment, or a block
comment that is closed. -/
inductive BeginsGap : List Char → Prop where
  | blank {c : Char} {s : List Char} (h : isBlank c = true) : BeginsGap (c :: s)
  | lineComment (s : List Char) : BeginsGap ('/' :: '/' :: s)
  | blockComment (inside s : List Char) : BeginsGap ('/' :: '*' :: inside ++ '*' :: '/' :: s)

/-- The characters with which delimiters, operators and quoted texts begin. -/
def marks : List Char :=
  [';', '{', '}', '(', ')', ',', '.', '[', ']', '=', '!', '<', '>', '+', '-', '*', '/', '&', '|',
   '"', '\'']

/-- A character that begins no token, given the text that follows it. -/
inductive Offends : Char → List Char → Prop where
  | ampersand {later : List Char} (h : later.head? ≠ some '&') : Offends '&' later
  | bar {later : List Char} (h : later.head? ≠ some '|') : Offends '|' later
  | quote {q : Quote} {later : List Char} (h : q.char ∉ later) : Offends q.char later
  | foreign {c : Char} {later : List Char} (blank : isBlank c = false)
      (word : isWordChar c = false) (mark : c ∉ marks) : Offends c later

/-- The length of what is read. -/
def Scanner.Reading.length : Scanner.Reading → Nat
  | token t => t.text.length
  | finished | stuck _ => 0

/-- From the place `n` in a text blanks and comments reach up to the place `p`. -/
structure GapEnds (source : List Char) (n p : Nat) : Prop where
  /-- A gap is between the places, which may end the text. -/
  gap : ∃ g, source.drop n = g ++ source.drop p ∧ p = n + g.length
    ∧ (Gap g ∨ p = source.length ∧ LastGap g)
  /-- Behind the gap there is nothing more to be passed over. -/
  ended : ¬ BeginsGap (source.drop p)

/-! ### Where no rule applies -/

namespace Rule

variable {c : Char} {s : List Char}

theorem mem_table (rule : Rule) :
  rule ∈ table
  := by
  cases rule with
  | delimiter d => cases d <;> decide
  | keyword k => cases k <;> decide
  | operators c =>
    cases c with
    | binary level => cases level <;> decide
    | _ => decide
  | string q => cases q <;> decide
  | _ => decide

/-- No rule applies exactly if none of them does. -/
theorem first?_eq_none_iff_forall :
  first? s = none ↔ ∀ rule : Rule, rule.lexeme? s = none
  := by
  rw [first?, List.findSome?_eq_none_iff]
  exact ⟨fun h rule => h rule (mem_table rule), fun h rule _ => h rule⟩

/-- Where the text of an operator stands one is read. -/
theorem operator?_ne_none {os : List Operator} {o : Operator} (h : o ∈ os) (s : List Char) :
  operator? (o.text.toList ++ s) os ≠ none
  := by
  induction os with
  | nil => cases h
  | cons o' os ih =>
    rw [operator?]
    cases ha : after? o'.text.toList (o.text.toList ++ s) with
    | some rest => simp
    | none =>
      apply ih
      obtain rfl | h := List.mem_cons.1 h
      · rw [after?_append] at ha
        cases ha
      · exact h

theorem mem_marks_of_operator {o : Operator} (h : o.text.toList.head? = some c) :
  c ∈ marks
  := by
  cases o with
  | binary o =>
    cases o <;>
    · obtain rfl := Option.some.inj h
      decide
  | assign o =>
    cases o <;>
    · obtain rfl := Option.some.inj h
      decide
  | not =>
    obtain rfl := Option.some.inj h
    decide

theorem mem_operators (o : Operator) :
  o ∈ o.operatorClass.operators
  := by
  cases o with
  | binary o => cases o <;> decide
  | assign o => cases o <;> decide
  | not => decide

/-- Where an operator stands, some rule applies. -/
theorem first?_operator_ne_none (o : Operator) (s : List Char) :
  first? (o.text.toList ++ s) ≠ none
  := by
  intro h
  have hnone := first?_eq_none_iff_forall.1 h (operators o.operatorClass)
  rw [lexeme?_operators, Option.map_eq_none_iff] at hnone
  apply operator?_ne_none (mem_operators o) s hnone

/-- A quoted text goes on to the next quote of its form. -/
theorem after?_quote_eq_none_iff {q : Quote} :
  after? [q.char] (s.dropWhile (· ≠ q.char)) = none ↔ q.char ∉ s
  := by
  induction s with
  | nil => simp [after?]
  | cons d s ih =>
    by_cases hd : d = q.char
    · simp [hd, after?]
    · rw [List.dropWhile_cons_of_pos (by simpa using hd), ih, List.mem_cons, not_or]
      exact ⟨fun h => ⟨Ne.symm hd, h⟩, fun h => h.2⟩

/-- Where a quote stands, no rule applies exactly if no quote of its form follows. -/
theorem first?_quote_eq_none_iff {q : Quote} :
  first? (q.char :: s) = none ↔ q.char ∉ s
  := by
  have hopen : after? [q.char] (q.char :: s) = some s := after?_append [q.char] s
  rw [first?_quote, ← after?_quote_eq_none_iff]
  simp only [lexeme?, hopen, Option.bind_eq_bind, Option.bind_some]
  cases after? [q.char] (s.dropWhile (· ≠ q.char)) <;> simp

theorem operator?_singleton_eq_none_iff {o : Operator} :
  operator? s [o] = none ↔ after? o.text.toList s = none
  := by
  rw [operator?]
  cases after? o.text.toList s <;> simp [operator?]

theorem after?_pair_eq_none_iff {d : Char} :
  after? [c, d] (c :: s) = none ↔ s.head? ≠ some d
  := by
  cases s with
  | nil => simp [after?]
  | cons e s => simp [after?, eq_comm]

/-- The rule of one operator of two characters applies where both stand. -/
theorem lexeme?_operators_eq_none_iff {cl : OperatorClass} {o : Operator} {d : Char}
    (hoperators : cl.operators = [o]) (htext : o.text.toList = [c, d]) :
  (operators cl).lexeme? (c :: s) = none ↔ s.head? ≠ some d
  := by
  rw [lexeme?_operators, Option.map_eq_none_iff, hoperators, operator?_singleton_eq_none_iff,
    htext, after?_pair_eq_none_iff]

/-- A single sign of the conjunction is no token. -/
theorem first?_ampersand_eq_none_iff :
  first? ('&' :: s) = none ↔ s.head? ≠ some '&'
  := by
  rw [first?_eq_ofOperator '&' (by decide), ofOperator, List.findSome?_singleton]
  apply lexeme?_operators_eq_none_iff rfl rfl

/-- A single sign of the disjunction is no token. -/
theorem first?_bar_eq_none_iff :
  first? ('|' :: s) = none ↔ s.head? ≠ some '|'
  := by
  rw [first?_eq_ofOperator '|' (by decide), ofOperator, List.findSome?_singleton]
  apply lexeme?_operators_eq_none_iff rfl rfl

/-- No rule applies to a character that is neither a blank, nor a word character, nor a mark. -/
theorem first?_foreign (hblank : isBlank c = false) (hword : isWordChar c = false)
    (hmark : c ∉ marks) :
  first? (c :: s) = none
  := by
  apply first?_eq_none_iff_forall.2
  intro rule
  apply lexeme?_eq_none
  by_contra hm
  rw [Bool.not_eq_false] at hm
  cases rule with
  | blanks =>
    rw [mayTake, hblank] at hm
    cases hm
  | lineComment | blockComment =>
    obtain rfl := of_decide_eq_true hm
    apply hmark (by decide)
  | delimiter d =>
    obtain rfl := of_decide_eq_true hm
    cases d <;> exact hmark (by decide)
  | keyword k =>
    have hmem : c ∈ k.text.toList.head? := of_decide_eq_true hm
    rw [Keyword.isWordChar_of_mem (List.mem_of_mem_head? hmem)] at hword
    cases hword
  | operators cl =>
    obtain ⟨o, -, ho⟩ := List.any_eq_true.1 hm
    apply hmark (mem_marks_of_operator (of_decide_eq_true ho))
  | number =>
    rw [isWordChar_of_isDecimalDigit hm] at hword
    cases hword
  | string q =>
    obtain rfl := of_decide_eq_true hm
    cases q <;> exact hmark (by decide)
  | word =>
    rw [mayTake, hword] at hm
    cases hm

/-- No rule applies to a character for private use, as none does to the half of a pair for which it
may stand. -/
theorem first?_private {c : Char} (h : isPrivate c = true) (s : List Char) :
  first? (c :: s) = none
  := by
  refine first?_foreign (isBlank_eq_false_of_isPrivate h) (isWordChar_eq_false_of_isPrivate h) ?_
  intro hmark
  have hmarks : marks.all (fun c => !isPrivate c) = true := by decide
  have hc := List.all_eq_true.1 hmarks c hmark
  rw [h] at hc
  cases hc

/-- The operators of one character. -/
def shortOperators : List Operator :=
  [.assign .set, .not, .binary .lt, .binary .gt, .binary .add, .binary .sub, .binary .mul,
   .binary .div]

/-- At a mark some rule applies, except at a quote that is not closed and at half an operator. -/
theorem offends_of_mem_marks (hmark : c ∈ marks) (h : first? (c :: s) = none) :
  Offends c s
  := by
  have hmarks : marks = Delimiter.all.map Delimiter.char
      ++ shortOperators.flatMap (fun o => o.text.toList) ++ ['&', '|']
      ++ [Quote.double, Quote.single].map Quote.char := by decide
  rw [hmarks, List.mem_append, List.mem_append, List.mem_append] at hmark
  obtain ((hc | hc) | hc) | hc := hmark
  · obtain ⟨d, -, rfl⟩ := List.mem_map.1 hc
    rw [first?_delimiter] at h
    cases h
  · obtain ⟨o, ho, hc⟩ := List.mem_flatMap.1 hc
    have hone : ∀ o ∈ shortOperators, o.text.toList.length = 1 := by decide
    obtain ⟨d, htext⟩ := List.length_eq_one_iff.1 (hone o ho)
    rw [htext, List.mem_singleton] at hc
    subst hc
    have hsome := first?_operator_ne_none o s
    rw [htext] at hsome
    exact absurd h hsome
  · obtain rfl | hc := List.mem_cons.1 hc
    · exact .ampersand (first?_ampersand_eq_none_iff.1 h)
    · obtain rfl := List.mem_singleton.1 hc
      exact .bar (first?_bar_eq_none_iff.1 h)
  · obtain ⟨q, -, rfl⟩ := List.mem_map.1 hc
    exact .quote (first?_quote_eq_none_iff.1 h)

/-- No rule applies where a character offends, and there only. -/
theorem first?_eq_none_iff :
  first? (c :: s) = none ↔ Offends c s
  := by
  constructor
  · intro h
    by_cases hmark : c ∈ marks
    · apply offends_of_mem_marks hmark h
    · have hnone := first?_eq_none_iff_forall.1 h
      have hblank := run?_eq_none_iff.1 (Option.map_eq_none_iff.1 (hnone blanks))
      have hword := run?_eq_none_iff.1 (Option.map_eq_none_iff.1 (hnone word))
      exact .foreign (hblank c rfl) (hword c rfl) hmark
  · intro h
    cases h with
    | ampersand h => exact first?_ampersand_eq_none_iff.2 h
    | bar h => exact first?_bar_eq_none_iff.2 h
    | quote h => exact first?_quote_eq_none_iff.2 h
    | foreign hblank hword hmark => exact first?_foreign hblank hword hmark

/-- What is passed over begins a gap. -/
theorem beginsGap_of_skipped {text rest : List Char} (h : first? s = some (.skipped text, rest)) :
  BeginsGap s
  := by
  obtain ⟨rule, -, hl⟩ := exists_of_first? h
  have hne : text ≠ [] := text_ne_nil hl
  obtain rfl : text ++ rest = s := text_append hl
  obtain hblanks | ⟨inside, rfl, -⟩ | ⟨inside, rfl, -⟩ := first?_eq_some_skipped h
  · obtain ⟨c, text, rfl⟩ := List.exists_cons_of_ne_nil hne
    exact .blank (hblanks c List.mem_cons_self)
  · exact .lineComment _
  · rw [List.append_assoc]
    exact .blockComment inside rest

end Rule

/-! ### Gaps end -/

theorem Rule.blockEnd?_ne_none (inside s : List Char) :
  blockEnd? (inside ++ '*' :: '/' :: s) ≠ none
  := by
  induction inside with
  | nil => simp [blockEnd?]
  | cons c inside ih =>
    rw [List.cons_append]
    unfold blockEnd?
    split
    · simp
    · next hs =>
      obtain ⟨rfl, rfl⟩ := List.cons.inj hs
      rwa [ne_eq, Option.map_eq_none_iff]
    · next hs => cases hs

/-- What begins a gap is a gap that any text may follow, or one that ends the text. -/
theorem BeginsGap.exists_gap {s : List Char} (h : BeginsGap s) :
  ∃ g r, s = g ++ r ∧ g ≠ [] ∧ (Gap g ∨ r = [] ∧ LastGap g)
  := by
  cases h with
  | @blank c s hc => exact ⟨[c], s, rfl, by simp, .inl (.blank hc .nil)⟩
  | lineComment s =>
    by_cases hline : '\n' ∈ s
    · obtain ⟨inside, r, rfl, hinside⟩ := List.eq_append_cons_of_mem hline
      refine ⟨'/' :: '/' :: inside ++ ['\n'], r, by simp, by simp, .inl ?_⟩
      exact .lineComment hinside .nil
    · exact ⟨'/' :: '/' :: s, [], by simp, by simp, .inr ⟨rfl, .lineComment .nil hline⟩⟩
  | blockComment inside s =>
    obtain ⟨⟨i, r⟩, hend⟩ := Option.ne_none_iff_exists'.1 (Rule.blockEnd?_ne_none inside s)
    obtain ⟨htext, hinside⟩ := Rule.blockEnd?_eq_some_iff.1 hend
    refine ⟨'/' :: '*' :: i ++ ['*', '/'], r, ?_, by simp, .inl (.blockComment hinside .nil)⟩
    simp [← htext]

/-- What is passed over at the front of a text ends where nothing more is to be passed over. -/
theorem exists_gap (s : List Char) :
  ∃ g r, s = g ++ r ∧ (Gap g ∨ r = [] ∧ LastGap g) ∧ ¬ BeginsGap r
  := by
  induction hlength : s.length using Nat.strongRecOn generalizing s with
  | _ n ih =>
  subst hlength
  by_cases hs : BeginsGap s
  · obtain ⟨g, r, rfl, hne, hg | ⟨rfl, hg⟩⟩ := hs.exists_gap
    · have hlt : r.length < (g ++ r).length := by
        have hpos := List.length_pos_iff.2 hne
        rw [List.length_append]
        omega
      obtain ⟨g', r', rfl, hg', hend⟩ := ih r.length hlt r rfl
      refine ⟨g ++ g', r', by simp, ?_, hend⟩
      apply hg'.imp hg.append fun ⟨hnil, hlast⟩ => ⟨hnil, hg.append_last hlast⟩
    · exact ⟨g, [], rfl, .inr ⟨rfl, hg⟩, nofun⟩
  · exact ⟨[], s, rfl, .inl .nil, hs⟩

/-! ### Reading passes over gaps -/

namespace Scanner

variable {c : Char} {g s rest : List Char} {n : Nat} {t : Token}

theorem next_nil :
  next ⟨[], n⟩ = (.finished, ⟨[], n⟩)
  := by rw [next]

/-- What is read is told by what the first rule that applies takes. -/
theorem next_cons (c : Char) (s : List Char) (n : Nat) :
  next ⟨c :: s, n⟩
    = match Rule.first? (c :: s) with
      | none => (.stuck ⟨c, n⟩, ⟨c :: s, n⟩)
      | some (.skipped text, rest) => next ⟨rest, n + text.length⟩
      | some (.token t, rest) => (.token t, ⟨rest, n + t.text.length⟩)
  := by
  rw [next]
  dsimp only
  split
  all_goals
    next h => rw [h]

theorem next_of_skipped {text : List Char} (h : Rule.first? s = some (.skipped text, rest)) :
  next ⟨s, n⟩ = next ⟨rest, n + text.length⟩
  := by
  cases s with
  | nil => cases Cut.first?_nil.symm.trans h
  | cons c s => rw [next_cons, h]

theorem next_of_token (h : Rule.first? (c :: s) = some (.token t, rest)) :
  next ⟨c :: s, n⟩ = (.token t, ⟨rest, n + t.text.length⟩)
  := by rw [next_cons, h]

theorem next_of_stuck (h : Rule.first? (c :: s) = none) :
  next ⟨c :: s, n⟩ = (.stuck ⟨c, n⟩, ⟨c :: s, n⟩)
  := by rw [next_cons, h]

/-- Reading from a blank is reading from behind it. -/
theorem next_blank (hc : isBlank c = true) :
  next ⟨c :: s, n⟩ = next ⟨s, n + 1⟩
  := by
  rw [next_of_skipped (Rule.first?_of_isBlank hc)]
  cases s with
  | nil => rfl
  | cons d s =>
    by_cases hd : isBlank d = true
    · rw [next_of_skipped (Rule.first?_of_isBlank hd), List.dropWhile_cons_of_pos hd,
        List.takeWhile_cons_of_pos hd]
      congr 2
      simp only [List.length_cons]
      omega
    · rw [List.dropWhile_cons_of_neg hd, List.takeWhile_cons_of_neg hd]
      rfl

/-- Reading from a gap is reading from behind it. -/
theorem next_gap (hg : Gap g) :
  next ⟨g ++ s, n⟩ = next ⟨s, n + g.length⟩
  := by
  induction hg generalizing n with
  | nil => rfl
  | @blank c g hc _ ih =>
    rw [List.cons_append, next_blank hc, ih, List.length_cons]
    congr 2
    omega
  | @lineComment inside g hline _ ih =>
    have hfirst : Rule.first? ('/' :: '/' :: inside ++ '\n' :: (g ++ s))
        = some (.skipped ('/' :: '/' :: inside), '\n' :: (g ++ s)) :=
      Rule.first?_lineComment hline (by simp)
    have htext : '/' :: '/' :: inside ++ '\n' :: g ++ s
        = '/' :: '/' :: inside ++ '\n' :: (g ++ s) := List.append_assoc ..
    rw [htext, next_of_skipped hfirst, next_blank (by decide), ih]
    congr 2
    simp only [List.length_append, List.length_cons]
    omega
  | @blockComment inside g hinside _ ih =>
    have hfirst := Rule.first?_blockComment hinside (g ++ s)
    have htext : '/' :: '*' :: inside ++ '*' :: '/' :: g ++ s
        = '/' :: '*' :: inside ++ '*' :: '/' :: (g ++ s) := List.append_assoc ..
    rw [htext, next_of_skipped hfirst, ih]
    congr 2
    simp only [List.length_append, List.length_cons, List.length_nil]
    omega

theorem next_lastGap (hg : LastGap g) :
  next ⟨g, n⟩ = (.finished, ⟨[], n + g.length⟩)
  := by
  cases hg with
  | closed hg =>
    have hnext := next_gap (s := []) (n := n) hg
    rwa [List.append_nil, next_nil] at hnext
  | @lineComment g inside hg hline =>
    have hfirst : Rule.first? ('/' :: '/' :: inside ++ [])
        = some (.skipped ('/' :: '/' :: inside), []) := Rule.first?_lineComment hline nofun
    rw [List.append_nil] at hfirst
    rw [next_gap hg, next_of_skipped hfirst, next_nil, List.length_append]
    congr 2
    omega

end Scanner

namespace GapEnds

variable {source : List Char} {n p : Nat}

/-- From every place in a text a gap reaches up to some place. -/
theorem exists_of_le (h : n ≤ source.length) :
  ∃ p, GapEnds source n p
  := by
  obtain ⟨g, r, hg, hgap, hend⟩ := exists_gap (source.drop n)
  have hrest : source.drop (n + g.length) = r := by rw [← List.drop_drop, hg, List.drop_left]
  have hlast : r = [] → n + g.length = source.length := by
    rintro rfl
    have hlength := congrArg List.length hg
    rw [List.append_nil, List.length_drop] at hlength
    omega
  refine ⟨n + g.length, ⟨g, ?_, rfl, hgap.imp_right fun h => ⟨hlast h.1, h.2⟩⟩, ?_⟩
  · rw [hrest, hg]
  · rwa [hrest]

/-- Reading from a place is reading from the end of the gap there. -/
theorem next_eq (h : GapEnds source n p) :
  (Scanner.seek source n).next = (Scanner.seek source p).next
  := by
  obtain ⟨g, hdrop, rfl, hg | ⟨hp, hg⟩⟩ := h.gap
  · rw [Scanner.seek, hdrop, Scanner.next_gap hg, Scanner.seek]
  · rw [hp, List.drop_length, List.append_nil] at hdrop
    rw [Scanner.seek, hdrop, Scanner.next_lastGap hg, Scanner.seek, hp, List.drop_length,
      Scanner.next_nil]

theorem le_length (h : GapEnds source n p) (hn : n ≤ source.length) :
  p ≤ source.length
  := by
  obtain ⟨g, hdrop, rfl, -⟩ := h.gap
  have hlength := congrArg List.length hdrop
  rw [List.length_append, List.length_drop, List.length_drop] at hlength
  omega

/-- At the end of a gap reading stops, at a character that offends, or goes on with a token. -/
theorem next_cases (h : GapEnds source n p) :
  (source.drop p = [] ∧ (Scanner.seek source n).next = (.finished, Scanner.seek source p))
    ∨ (∃ a later, source.drop p = a :: later ∧ Offends a later
      ∧ (Scanner.seek source n).next = (.stuck ⟨a, p⟩, Scanner.seek source p))
    ∨ ∃ a later t rest, source.drop p = a :: later ∧ ¬ Offends a later
      ∧ source.drop p = t.text.toList ++ rest
      ∧ (Scanner.seek source n).next = (.token t, Scanner.seek source (p + t.text.length))
  := by
  rw [h.next_eq, Scanner.seek]
  cases hdrop : source.drop p with
  | nil => exact .inl ⟨rfl, Scanner.next_nil⟩
  | cons a later =>
    cases hfirst : Rule.first? (a :: later) with
    | none =>
      refine .inr (.inl ⟨a, later, rfl, Rule.first?_eq_none_iff.1 hfirst, ?_⟩)
      apply Scanner.next_of_stuck hfirst
    | some x =>
      obtain ⟨l, rest⟩ := x
      have hoffends : ¬ Offends a later := by
        rw [← Rule.first?_eq_none_iff, hfirst]
        nofun
      cases l with
      | skipped text =>
        have hbegins := Rule.beginsGap_of_skipped hfirst
        rw [← hdrop] at hbegins
        exact absurd hbegins h.ended
      | token t =>
        obtain ⟨_, -, hl⟩ := Rule.exists_of_first? hfirst
        have htext : t.text.toList ++ rest = a :: later := Rule.text_append hl
        refine .inr (.inr ⟨a, later, t, rest, rfl, hoffends, htext.symm, ?_⟩)
        rw [Scanner.next_of_token hfirst, Scanner.seek, ← List.drop_drop, hdrop, ← htext,
          ← String.length_toList, List.drop_left]

/-- Reading ends as far behind the gap as what is read is long. -/
theorem next_offset (h : GapEnds source n p) :
  (Scanner.seek source n).next.2.offset = p + (Scanner.seek source n).next.1.length
  := by
  obtain ⟨-, hnext⟩ | ⟨_, _, -, -, hnext⟩ | ⟨_, _, _, _, -, -, -, hnext⟩ := h.next_cases
  all_goals
    rw [hnext]
    rfl

/-- A gap ends at one place only. -/
theorem unique {q : Nat} (h : GapEnds source n p) (h' : GapEnds source n q) :
  p = q
  := by
  have hp := h.next_offset
  rw [h'.next_offset] at hp
  exact (Nat.add_right_cancel hp).symm

end GapEnds

/-! ### What a cursor answers -/

namespace Cursor

variable {c : Cursor} {n p : Nat}

/-- A request that changes nothing is answered in the same way however often it is made. -/
theorem answers_replicate {r : Request} {a : Answer} (h : c.answer r = (a, c)) (k : Nat) :
  c.answers (List.replicate k r) = (List.replicate k a, c)
  := by
  induction k with
  | zero => rfl
  | succ k ih => simp only [List.replicate_succ, answers, h, ih]

/-- A cursor answers what the scanner at its place reads. -/
theorem answer_next_of_scanner {s s' : Scanner} {r : Scanner.Reading}
    (hplace : c.place = .within s) (h : s.next = (r, s')) :
  c.answer .next = (.reading (Place.ofScanner (r, s')).1, { c with place := .within s' })
  := by
  rw [answer, hplace, Place.next, h]
  cases r <;> rfl

/-- Where reading is stuck at the place that it stops at, every further attempt is answered in the
same way, and leaves the cursor there. -/
theorem answers_of_stuck {s s' : Scanner} {e : Stuck} (hplace : c.place = .within s)
    (h : s.next = (.stuck e, s')) (hstops : s'.next = (.stuck e, s')) (k : Nat) :
  c.answers (List.replicate (k + 1) .next)
    = (List.replicate (k + 1) (.reading (.stuck e)), { c with place := .within s' })
  := by
  have hagain := answer_next_of_scanner (c := { c with place := .within s' }) rfl hstops
  rw [List.replicate_succ, answers, answer_next_of_scanner hplace h]
  simp only [Place.ofScanner, answers_replicate hagain, List.replicate_succ]

/-- From a place in a text, blanks and comments reach up to one place only, and what stands there
tells what reading comes to.  If a character offends there, that character and its place are told,
and told again by every further attempt, which leaves the cursor where it is.  At the end of the
text reading has finished; otherwise a token is read. -/
theorem answer_next (hplace : c.place = .within (Scanner.seek c.source n))
    (hn : n ≤ c.source.length) :
  ∃ p ≤ c.source.length, (∀ q, GapEnds c.source n q ↔ q = p)
    ∧ ((∃ e, (c.answer .next).1 = .reading (.stuck e))
      ↔ ∃ a later, c.source.drop p = a :: later ∧ Offends a later)
    ∧ (∀ a later, c.source.drop p = a :: later → Offends a later → ∀ k,
      c.answers (List.replicate (k + 1) .next)
        = (List.replicate (k + 1) (.reading (.stuck ⟨a, p⟩)),
          { c with place := .within (Scanner.seek c.source p) }))
    ∧ (c.source.drop p = [] → c.answer .next
      = (.reading .finished, { c with place := .within (Scanner.seek c.source c.source.length) }))
    ∧ ∀ a later, c.source.drop p = a :: later → ¬ Offends a later →
      ∃ t rest, c.source.drop p = t.text.toList ++ rest ∧ c.answer .next
        = (.reading (.token t),
          { c with place := .within (Scanner.seek c.source (p + t.text.length)) })
  := by
  obtain ⟨p, hp⟩ := GapEnds.exists_of_le hn
  have hunique (q : Nat) : GapEnds c.source n q ↔ q = p := by
    constructor
    · exact fun hq => hq.unique hp
    · rintro rfl
      exact hp
  refine ⟨p, hp.le_length hn, hunique, ?_⟩
  obtain ⟨hdrop, hnext⟩ | ⟨a, later, hdrop, hoffends, hnext⟩
    | ⟨a, later, t, rest, hdrop, hoffends, htext, hnext⟩ := hp.next_cases
  · have hanswer := answer_next_of_scanner hplace hnext
    have hend : p = c.source.length :=
      Nat.le_antisymm (hp.le_length hn) (List.drop_eq_nil_iff.1 hdrop)
    rw [hdrop, hanswer]
    refine ⟨⟨nofun, nofun⟩, nofun, fun _ => ?_, nofun⟩
    rw [← hend]
    rfl
  · have hanswer := answer_next_of_scanner hplace hnext
    rw [hdrop]
    refine ⟨⟨fun _ => ⟨a, later, rfl, hoffends⟩, fun _ => ⟨⟨a, p⟩, ?_⟩⟩, ?_, nofun, ?_⟩
    · rw [hanswer]
      rfl
    · intro a' later' ha _ k
      obtain ⟨rfl, rfl⟩ := List.cons.inj ha
      apply answers_of_stuck hplace hnext (hp.next_eq.symm.trans hnext)
    · intro a' later' ha hnot
      obtain ⟨rfl, rfl⟩ := List.cons.inj ha
      exact absurd hoffends hnot
  · have hanswer := answer_next_of_scanner hplace hnext
    rw [hanswer, hdrop]
    refine ⟨⟨?_, ?_⟩, ?_, nofun, fun _ _ _ _ => ⟨t, rest, ?_, rfl⟩⟩
    · rintro ⟨e, he⟩
      cases he
    · rintro ⟨a', later', ha, hoffends'⟩
      obtain ⟨rfl, rfl⟩ := List.cons.inj ha
      exact absurd hoffends' hoffends
    · intro a' later' ha hoffends'
      obtain ⟨rfl, rfl⟩ := List.cons.inj ha
      exact absurd hoffends' hoffends
    · rw [← hdrop, htext]

/-- Over blanks and two comments up to a sign that is no token, at which reading stays stuck. -/
theorem answer_next_samples :
  ∃ c : Cursor, c.source = "x // '\n/**/ &|".toList
    ∧ c.place = .within (Scanner.seek c.source 1) ∧ 1 ≤ c.source.length
    ∧ GapEnds c.source 1 12
    ∧ ∀ k, c.answers (List.replicate (k + 1) .next)
      = (List.replicate (k + 1) (.reading (.stuck ⟨'&', 12⟩)),
        { c with place := .within (Scanner.seek c.source 12) })
  := by
  let source := "x // '\n/**/ &|".toList
  have hends : GapEnds source 1 12 := by
    refine ⟨⟨" // '\n/**/ ".toList, by decide, by decide, .inl ?_⟩, ?_⟩
    · have hblank : Gap [' '] := .blank (by decide) .nil
      have hblock : Gap ('/' :: '*' :: [] ++ '*' :: '/' :: [' ']) := .blockComment (by simp) hblank
      have hline : Gap ('/' :: '/' :: " '".toList ++ '\n' :: "/**/ ".toList) :=
        .lineComment (by decide) hblock
      exact .blank (by decide) hline
    · rintro (h | _ | _)
      revert h
      decide
  obtain ⟨p, -, hunique, -, hstuck, -⟩ := answer_next
    (c := ⟨source, .within (Scanner.seek source 1), []⟩) rfl (by decide)
  obtain rfl := (hunique 12).1 hends
  exact ⟨_, rfl, rfl, by decide, hends, hstuck '&' ['|'] rfl (.ampersand (by decide))⟩

end Cursor

end Letter
