import Mathlib
import Letter.Proofs.Token.Gap
import Letter.Session.Entry

/-!
# Where entries end

An entry goes on while more braces have been opened than closed.  They are counted line by
line, each line up to its first two slashes in a row, as the characters they are.  Where no
slash is followed by another but in a line comment, what is counted is the text without its
line comments: the braces that are tokens, and those that stand in string literals and in
block comments, on whatever lines.

Main statement: `continues_iff`.
-/

namespace Letter

/-! ### Lexemes outside line comments -/

namespace Lexeme

/-- Whether a lexeme is a line comment. -/
def isLineComment : Lexeme → Bool
  | skipped ('/' :: '/' :: _) => true
  | _ => false

/-- The text of a lexeme, unless it is a line comment. -/
def code (l : Lexeme) : List Char := if l.isLineComment then [] else l.text

/-- Outside line comments no slash is followed by another. -/
def SlashesApart : List Lexeme → Prop
  | [] => True
  | l :: ls =>
    (l.isLineComment = true ∨ ¬ ['/', '/'] <:+: l.text ++ (ls.flatMap text).take 1)
      ∧ SlashesApart ls

/-- How often a character stands in a lexeme that is a string literal or a block comment. -/
def enclosed (c : Char) : Lexeme → Nat
  | token (.string _ contents) => contents.toList.count c
  | skipped ('/' :: '*' :: inside) => inside.count c
  | _ => 0

/-- How often a character stands in the string literals and block comments among lexemes. -/
def allEnclosed (c : Char) (ls : List Lexeme) : Nat := (ls.map (enclosed c)).sum

end Lexeme

/-! ### The text that is counted -/

/-- Two slashes in a row do not stand on both sides of the end of a line. -/
theorem uncommented_newline (inside : Bool) (a b : List Char) :
  uncommented inside (a ++ '\n' :: b) = uncommented inside a ++ '\n' :: uncommented false b
  := by
  fun_induction uncommented inside a with
  | case1 inside => cases inside <;> rfl
  | case2 s ih => rw [List.cons_append, uncommented, ih, List.cons_append]
  | case3 c s hc ih => rw [List.cons_append, uncommented.eq_3 _ _ hc, ih]
  | case4 s ih => rw [List.cons_append, List.cons_append, uncommented, ih]
  | case5 c s hc ih =>
    rw [List.cons_append, uncommented.eq_5, ih, List.cons_append]
    intro r hslash hr
    cases s with
    | nil => cases hr
    | cons d s =>
      obtain ⟨rfl, -⟩ := List.cons.inj hr
      exact hc s hslash rfl

/-- A line comment is left out up to the end of its line. -/
theorem uncommented_lineComment {inside rest : List Char} (h : '\n' ∉ inside)
    (hrest : ∀ c ∈ rest.head?, c = '\n') :
  uncommented false ('/' :: '/' :: inside ++ rest) = uncommented false rest
  := by
  rw [List.cons_append, List.cons_append, uncommented]
  induction inside with
  | nil =>
    cases rest with
    | nil => rfl
    | cons c r =>
      obtain rfl := hrest c rfl
      rfl
  | cons c inside ih =>
    rw [List.mem_cons, not_or] at h
    rw [List.cons_append, uncommented.eq_3 _ _ (Ne.symm h.1), ih h.2]

/-- A text in which no slash is followed by another is kept. -/
theorem uncommented_append {text rest : List Char}
    (h : ¬ ['/', '/'] <:+: text ++ rest.take 1) :
  uncommented false (text ++ rest) = text ++ uncommented false rest
  := by
  induction text with
  | nil => rfl
  | cons c text ih =>
    have hlater : ¬ ['/', '/'] <:+: text ++ rest.take 1 :=
      fun h' => h (h'.trans (List.suffix_cons _ _).isInfix)
    rw [List.cons_append, uncommented.eq_5, ih hlater, List.cons_append]
    rintro r rfl hr
    apply h
    apply List.IsPrefix.isInfix
    rw [List.cons_append, List.prefix_cons_inj]
    have hfirst : ['/'] <+: (text ++ rest).take (text.length + 1) := by
      rw [hr, List.take_succ_cons]
      exact ⟨_, rfl⟩
    rwa [List.take_length_add_append] at hfirst

/-- A line comment ends with its line. -/
theorem Lexeme.lineComment_of_first? {s rest : List Char} {l : Lexeme}
    (h : Rule.first? s = some (l, rest)) (hl : l.isLineComment = true) :
  ∃ inside, l.text = '/' :: '/' :: inside ∧ '\n' ∉ inside ∧ ∀ c ∈ rest.head?, c = '\n'
  := by
  revert hl h
  fun_cases isLineComment l with
  | case1 inside =>
    intro h _
    obtain hblanks | hline | ⟨_, hblock, _⟩ := Rule.first?_eq_some_skipped h
    · exact absurd (hblanks '/' List.mem_cons_self) (by decide)
    · exact hline
    · simp at hblock
  | case2 => exact nofun

/-- A text is counted as its lexemes without the line comments. -/
theorem Lexed.uncommented {s : List Char} {ls : List Lexeme} (h : Lexed s ls [])
    (hslashes : Lexeme.SlashesApart ls) :
  uncommented false s = ls.flatMap Lexeme.code
  := by
  generalize hend : ([] : List Char) = rest at h
  induction h with
  | nil =>
    subst hend
    rfl
  | @cons s later rest l ls first others ih =>
    subst hend
    obtain ⟨hl, hls⟩ := hslashes
    have hlater : ls.flatMap Lexeme.text = later := by
      rw [← others.texts_append, List.append_nil]
    obtain ⟨rule, -, hrule⟩ := Rule.exists_of_first? first
    rw [← Rule.text_append hrule, List.flatMap_cons, Lexeme.code]
    cases hcomment : l.isLineComment with
    | true =>
      obtain ⟨inside, htext, hinside, hnewline⟩ := Lexeme.lineComment_of_first? first hcomment
      rw [htext, uncommented_lineComment hinside hnewline]
      exact ih hls rfl
    | false =>
      rw [hcomment, hlater] at hl
      obtain ⟨⟨⟩⟩ | hl := hl
      rw [uncommented_append hl, ih hls rfl]
      rfl

/-! ### The braces in it -/

namespace Delimiter

theorem mem_all (d : Delimiter) :
  d ∈ all
  := by cases d <;> decide

theorem char_injective :
  Function.Injective char
  := by
  have hall : ∀ d ∈ all, ∀ d' ∈ all, d.char = d'.char → d = d' := by decide
  exact fun d d' => hall d d.mem_all d' d'.mem_all

variable (d : Delimiter)

theorem isBlank_char :
  isBlank d.char = false
  := by cases d <;> decide

theorem char_ne_quote (q : Quote) :
  q.char ≠ d.char
  := by cases q <;> cases d <;> decide

/-- No operator holds the character of a delimiter. -/
theorem char_notMem_operator (o : Operator) :
  d.char ∉ o.text.toList
  := by
  have hall : (o.text.toList.all fun c => Delimiter.all.all fun d => c != d.char) = true := by
    cases o with
    | binary o => cases o <;> decide
    | assign o => cases o <;> decide
    | not => decide
  intro h
  have hne := List.all_eq_true.1 (List.all_eq_true.1 hall d.char h) d d.mem_all
  simp at hne

/-- A delimiter does not stand among characters of a class that it is not in. -/
theorem count_eq_zero {p : Char → Bool} (hd : p d.char = false) {s : List Char}
    (hs : ∀ c ∈ s, p c = true) :
  s.count d.char = 0
  := by
  apply List.count_eq_zero_of_not_mem
  intro hmem
  exact Bool.false_ne_true (hd.symm.trans (hs _ hmem))

/-- In the text of a token a delimiter stands as the token itself, or in a string literal. -/
theorem count_text {t : Token} (h : t.Valid) :
  t.text.toList.count d.char = [t].count (.delimiter d) + (Lexeme.token t).enclosed d.char
  := by
  cases t with
  | delimiter d' =>
    by_cases hd : d' = d
    · subst hd
      simp [Token.text, Lexeme.enclosed]
    · have hchar : d'.char ≠ d.char := fun he => hd (char_injective he)
      simp [Token.text, Lexeme.enclosed, hd, hchar]
  | keyword k => exact d.count_eq_zero d.isWordChar_char fun _ => Keyword.isWordChar_of_mem
  | operator o => exact List.count_eq_zero_of_not_mem (d.char_notMem_operator o)
  | number digits =>
    exact d.count_eq_zero d.isWordChar_char fun c hc => isWordChar_of_isDecimalDigit (h.2 c hc)
  | string q contents => simp [Token.text, Lexeme.enclosed, d.char_ne_quote q]
  | identifier name => exact d.count_eq_zero d.isWordChar_char h.word

/-- In what is passed over a delimiter stands in a block comment, or in a line comment. -/
theorem count_code_skipped {s text rest : List Char}
    (h : Rule.first? s = some (.skipped text, rest)) :
  (Lexeme.skipped text).code.count d.char = (Lexeme.skipped text).enclosed d.char
  := by
  obtain hblanks | ⟨inside, rfl, -⟩ | ⟨inside, rfl, -⟩ := Rule.first?_eq_some_skipped h
  · cases text with
    | nil => rfl
    | cons c text =>
      have hslash : '/' ≠ c := by
        rintro rfl
        exact absurd (hblanks '/' List.mem_cons_self) (by decide)
      have hcode : (Lexeme.skipped (c :: text)).code = c :: text := by
        simp [Lexeme.code, Lexeme.isLineComment, Lexeme.text, hslash.symm]
      rw [hcode, d.count_eq_zero d.isBlank_char hblanks]
      simp [Lexeme.enclosed, hslash.symm]
  · rfl
  · have hslash : '/' ≠ d.char := by cases d <;> decide
    have hasterisk : '*' ≠ d.char := by cases d <;> decide
    simp [Lexeme.code, Lexeme.isLineComment, Lexeme.text, Lexeme.enclosed, hslash, hasterisk]

/-- Outside line comments, a delimiter stands as a token, in a string literal or in a block
comment. -/
theorem count_code {s rest : List Char} {ls : List Lexeme} (h : Lexed s ls rest) :
  (ls.flatMap Lexeme.code).count d.char
    = (Lexeme.tokens ls).count (.delimiter d) + Lexeme.allEnclosed d.char ls
  := by
  induction h with
  | nil => rfl
  | @cons s later rest l ls first others ih =>
    have hsum : Lexeme.allEnclosed d.char (l :: ls)
        = l.enclosed d.char + Lexeme.allEnclosed d.char ls := List.sum_cons
    rw [List.flatMap_cons, List.count_append, ih, hsum]
    cases l with
    | skipped text =>
      change _ = (Lexeme.tokens ls).count (.delimiter d) + _
      rw [d.count_code_skipped first]
      omega
    | token t =>
      change t.text.toList.count d.char + _ = ([t] ++ Lexeme.tokens ls).count (.delimiter d) + _
      rw [List.count_append, d.count_text (Rule.valid_of_first? first)]
      omega

end Delimiter

/-! ### Entries that have begun -/

/-- Lines are counted one by one, or joined. -/
theorem braceBalance_append (a b : String) :
  braceBalance (a ++ "\n" ++ b) = braceBalance a + braceBalance b
  := by
  have htext : (a ++ "\n" ++ b).toList = a.toList ++ '\n' :: b.toList := by simp
  simp only [braceBalance, htext, uncommented_newline, List.count_append,
    List.count_cons_of_ne (show '\n' ≠ '{' by decide),
    List.count_cons_of_ne (show '\n' ≠ '}' by decide)]
  omega

namespace Pending

/-- What has been typed of an entry that has not ended. -/
inductive Reached : Pending → Prop where
  | empty : Reached .empty
  | more {p q : Pending} {line : String} (begun : Reached p) (goes : p.add line = .more q) :
      Reached q

/-- The lines of an entry and one more, joined. -/
def textWith (p : Pending) (line : String) : String := "\n".intercalate (p.lines ++ [line])

variable {p q : Pending} {line : String}

/-- A line is asked for after another one if that does not leave, and braces are still open. -/
theorem add_eq_more_iff :
  p.add line = .more q
    ↔ ¬ (isFarewell line = true ∧ p.lines = []) ∧ 0 < p.depth + braceBalance line
      ∧ q = ⟨p.lines ++ [line], p.depth + braceBalance line⟩
  := by
  by_cases hleave : isFarewell line = true ∧ p.lines = []
  · simp [add, hleave]
  · have hadd : (isFarewell line && p.lines.isEmpty) = false := by simpa using hleave
    rw [add, hadd, if_neg Bool.false_ne_true, eq_comm (a := q)]
    by_cases hdepth : p.depth + braceBalance line ≤ 0
    · simp [hdepth]
    · simp [hdepth, hleave, Int.not_le.1 hdepth]

/-- A line is counted like the last one of a text. -/
theorem braceBalance_textWith (h : p.depth = braceBalance ("\n".intercalate p.lines)) :
  braceBalance (p.textWith line) = p.depth + braceBalance line
  := by
  rw [textWith, h]
  cases hlines : p.lines with
  | nil =>
    rw [List.nil_append, String.intercalate_singleton, String.intercalate_nil]
    exact (Int.zero_add _).symm
  | cons l ls =>
    rw [String.intercalate_append_of_ne_nil (List.cons_ne_nil _ _) (List.cons_ne_nil _ _),
      String.intercalate_singleton, braceBalance_append]

/-- The braces of an entry are those of its lines, joined. -/
theorem Reached.depth_eq (h : p.Reached) :
  p.depth = braceBalance ("\n".intercalate p.lines)
  := by
  induction h with
  | empty => rfl
  | more _ goes ih =>
    obtain ⟨-, -, rfl⟩ := add_eq_more_iff.1 goes
    exact (braceBalance_textWith ih).symm

/-- An entry goes on while braces have been opened that have not been closed: as tokens, in
string literals or in block comments, so far as outside line comments no slash is followed by
another. -/
theorem continues_iff (hp : p.Reached) (hstays : ¬ (isFarewell line = true ∧ p.lines = []))
    {ts : List Token} (h : tokenize (p.textWith line) = .ok ts) :
  ∃ ls, Lexed (p.textWith line).toList ls [] ∧ Lexeme.tokens ls = ts
    ∧ (Lexeme.SlashesApart ls →
      ((∃ q, p.add line = .more q)
        ↔ ts.count (.delimiter .rightBrace) + Lexeme.allEnclosed '}' ls
          < ts.count (.delimiter .leftBrace) + Lexeme.allEnclosed '{' ls))
  := by
  obtain ⟨ls, hls, rfl⟩ := (tokenize_eq_ok_iff.1 h).exists_lexed
  refine ⟨ls, hls, rfl, fun hslashes => ?_⟩
  have hopened := Delimiter.leftBrace.count_code hls
  have hclosed := Delimiter.rightBrace.count_code hls
  have hmore : (∃ q, p.add line = .more q) ↔ 0 < braceBalance (p.textWith line) := by
    rw [braceBalance_textWith hp.depth_eq]
    simp [add_eq_more_iff, hstays]
  rw [hmore, braceBalance, hls.uncommented hslashes]
  change (ls.flatMap Lexeme.code).count '{' = _ + Lexeme.allEnclosed '{' ls at hopened
  change (ls.flatMap Lexeme.code).count '}' = _ + Lexeme.allEnclosed '}' ls at hclosed
  omega

/-- A brace in a string, and braces in a comment, count, so that no further line is asked for. -/
theorem continues_iff_sample :
  (Reached ⟨["\x7b//\x7d"], 1⟩
      ∧ ¬ (isFarewell "'\x7d'/*\x7d\x7b*/;" = true ∧ ["\x7b//\x7d"] = [])
      ∧ tokenize (textWith ⟨["\x7b//\x7d"], 1⟩ "'\x7d'/*\x7d\x7b*/;")
        = .ok [.delimiter .leftBrace, .string .single "\x7d", .delimiter .semicolon])
    ∧ ¬ ∃ q, add ⟨["\x7b//\x7d"], 1⟩ "'\x7d'/*\x7d\x7b*/;" = .more q
  := by
  have hreached : Reached ⟨["\x7b//\x7d"], 1⟩ :=
    .more .empty (add_eq_more_iff.2 ⟨by decide, by decide, rfl⟩)
  have hstays : ¬ (isFarewell "'\x7d'/*\x7d\x7b*/;" = true ∧ ["\x7b//\x7d"] = []) := by simp
  have hlexed : Lexed (textWith ⟨["\x7b//\x7d"], 1⟩ "'\x7d'/*\x7d\x7b*/;").toList
      [.token (.delimiter .leftBrace), .skipped "//\x7d".toList, .skipped ['\n'],
        .token (.string .single "\x7d"), .skipped "/*\x7d\x7b*/".toList,
        .token (.delimiter .semicolon)] [] :=
    .cons rfl (.cons rfl (.cons rfl (.cons rfl (.cons rfl (.cons rfl .nil)))))
  have hread := tokenize_eq_ok_iff.2 hlexed.cut
  obtain ⟨ls, hls, -, hiff⟩ := continues_iff hreached hstays hread
  obtain rfl := hls.unique hlexed
  have hcount := hiff (by
    simp only [Lexeme.SlashesApart]
    decide +kernel)
  refine ⟨⟨hreached, hstays, hread⟩, ?_⟩
  rw [hcount]
  decide

/-- The tokens alone do not tell whether an entry goes on. -/
theorem not_continues_iff_tokens :
  ¬ ∀ (p : Pending) (line : String) (ts : List Token), p.Reached →
      ¬ (isFarewell line = true ∧ p.lines = []) → tokenize (p.textWith line) = .ok ts →
      ((∃ q, p.add line = .more q)
        ↔ ts.count (.delimiter .rightBrace) < ts.count (.delimiter .leftBrace))
  := by
  intro h
  have hread : tokenize (textWith .empty "'\x7b';")
      = .ok [.string .single "\x7b", .delimiter .semicolon] :=
    tokenize_eq_ok_iff.2 (.token rfl (.token rfl .nil))
  have hiff := h .empty "'\x7b';" _ .empty (by decide) hread
  have hmore : ∃ q, add .empty "'\x7b';" = .more q :=
    ⟨_, add_eq_more_iff.2 ⟨by decide, by decide, rfl⟩⟩
  exact absurd (hiff.1 hmore) (by decide)

end Pending

end Letter
