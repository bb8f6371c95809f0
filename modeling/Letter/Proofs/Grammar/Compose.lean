import Letter.Proofs.Grammar.CompleteProgram
import Letter.Proofs.Printing.Spells
import Letter.Proofs.Token.Join

/-!
# Programs one after another

Two programs that stand one under the other are read as the statements of the first and
then those of the second, and a program in braces is read as a block of its statements.  The
line between them keeps words, operators and a comment on the last line apart.  A slash and
an asterisk could still begin a comment that ends in the second program; but the asterisk
is an operator with a left operand, so that no program has it behind a slash.
-/

namespace Letter

open Token

/-- Tokens in which no block comment begins, and with which none begins if they stand
between others. -/
structure Uncommented (ts : List Token) : Prop where
  inside : ts.IsChain fun t u => ¬ t.OpensComment u
  head : ∀ t ∈ ts.head?, ¬ t.Asterisk
  last : ∀ t ∈ ts.getLast?, t ≠ operator (.binary .div)

namespace Uncommented

variable {ts us : List Token}

theorem nil :
  Uncommented []
  := ⟨List.isChain_nil, nofun, nofun⟩

theorem append (h : Uncommented ts) (h' : Uncommented us) :
  Uncommented (ts ++ us)
  := by
  constructor
  · apply List.isChain_append.2
    exact ⟨h.inside, h'.inside, fun t ht _ _ hopens => h.last t ht hopens.1⟩
  · rw [List.head?_append]
    intro t ht
    obtain ht | ⟨-, ht⟩ := Option.or_eq_some_iff.1 ht
    · apply h.head t ht
    · apply h'.head t ht
  · rw [List.getLast?_append]
    intro t ht
    obtain ht | ⟨-, ht⟩ := Option.or_eq_some_iff.1 ht
    · apply h'.last t ht
    · apply h.last t ht

/-- A token that is no operator. -/
theorem cons {t : Token} (ht : ∀ o, t ≠ operator o) (h : Uncommented ts) :
  Uncommented (t :: ts)
  := by
  have hone : Uncommented [t] := by
    refine ⟨List.isChain_singleton t, ?_, ?_⟩
    · simp only [List.head?_cons, Option.mem_some_iff]
      rintro _ rfl hasterisk
      cases t with
      | operator o => exact ht o rfl
      | _ => exact hasterisk
    · simp only [List.getLast?_singleton, Option.mem_some_iff]
      rintro _ rfl
      apply ht
  apply hone.append h

theorem enclosed (left right : Delimiter) (h : Uncommented ts) :
  Uncommented (Token.enclosed left right ts)
  := .cons nofun (h.append (.cons nofun .nil))

/-- An operator between operands. -/
theorem between (o : Operator) (h : Uncommented ts) (hne : ts ≠ []) (h' : Uncommented us)
    (hne' : us ≠ []) :
  Uncommented (ts ++ operator o :: us)
  := by
  constructor
  · apply List.isChain_append.2
    refine ⟨h.inside, List.isChain_cons.2 ⟨?_, h'.inside⟩, ?_⟩
    · exact fun u hu hopens => h'.head u hu hopens.2
    · exact fun t ht _ _ hopens => h.last t ht hopens.1
  · rw [List.head?_append_of_ne_nil _ hne]
    apply h.head
  · rw [List.getLast?_append_of_ne_nil _ (List.cons_ne_nil _ _), List.getLast?_cons_of_ne_nil hne']
    apply h'.last

/-- An operator before an operand. -/
theorem before (op : UnaryOp) (h : Uncommented ts) (hne : ts ≠ []) :
  Uncommented (operator op.operator :: ts)
  := by
  constructor
  · apply List.isChain_cons.2
    exact ⟨fun t ht hopens => h.head t ht hopens.2, h.inside⟩
  · simp only [List.head?_cons, Option.mem_some_iff]
    rintro _ rfl
    change op.operator.text.toList.head? ≠ some '*'
    cases op <;> decide
  · rw [List.getLast?_cons_of_ne_nil hne]
    apply h.last

end Uncommented

/-- In what is derived, no asterisk follows a slash. -/
theorem Derives.uncommented {ts : List Token} {p : Phrase} (h : Derives ts p) :
  Uncommented ts
  := by
  induction h with
  | program _ ih | lastStatement _ ih | lastDeclaration _ ih | noAssignment _ ih | noBinary _ ih
  | noUnary _ ih | noCall _ ih | lastExpression _ ih | noMember _ ih => exact ih
  | nextStatement _ _ ih ih' | call _ _ ih ih' => apply ih.append ih'
  | empty | bareName | identifier | number | string | trueWord | falseWord | nullWord =>
    exact .cons nofun .nil
  | emptyBlock | noArguments => apply Uncommented.nil.enclosed
  | block _ ih | someArguments _ ih | parenthesized _ ih => apply ih.enclosed
  | declare _ ih => exact .cons nofun (ih.append (.cons nofun .nil))
  | ifThen _ _ ih ih' => exact .cons nofun ((ih.enclosed _ _).append ih')
  | ifElse _ _ _ _ ih ih' ih'' =>
    exact .cons nofun (((ih.enclosed _ _).append ih').append (.cons nofun ih''))
  | expressionStatement _ ih => exact ih.append (.cons nofun .nil)
  | nextDeclaration _ _ ih ih' | nextExpression _ _ ih ih' =>
    exact ih.append (.cons nofun ih')
  | assignment h _ h' ih ih' | binary h _ h' ih ih' => apply ih.between _ h.ne_nil ih' h'.ne_nil
  | @initialized name _ _ h ih =>
    have hname : Uncommented [Token.identifier name] := .cons nofun .nil
    apply hname.between _ (List.cons_ne_nil _ _) ih h.ne_nil
  | unary h ih => apply ih.before _ h.ne_nil
  | superCall _ ih => exact .cons nofun ih
  | member _ ih => exact ih.append (.cons nofun (.cons nofun .nil))
  | index _ _ ih ih' => apply ih.append (ih'.enclosed _ _)

/-- Statements one after another are derived from the tokens of the first ones and then
those of the others. -/
theorem Derives.append {ts us : List Token} {ss ss' : List Stmt}
    (h : Derives ts (.statements ss)) (h' : Derives us (.statements ss')) :
  Derives (ts ++ us) (.statements (ss ++ ss'))
  := by
  generalize hp : Phrase.statements ss = p at h
  induction h generalizing ss with
  | lastStatement statement =>
    cases hp
    exact .nextStatement statement h'
  | nextStatement statement _ _ ih =>
    cases hp
    rw [List.append_assoc]
    exact .nextStatement statement (ih rfl)
  | _ => cases hp

/-- A text that is continued on a new line is cut into its own tokens and the others, if a
program is derived from its own. -/
theorem Derives.cut_newline {s later : List Char} {ts us : List Token} {p : Phrase}
    (hts : Derives ts p) (h : Cut s ts) (hlater : Cut later us) :
  Cut (s ++ '\n' :: later) (ts ++ us)
  := h.newline hts.uncommented.inside hlater

/-- A text that ends its last line is read as the same program. -/
theorem parse_ended {source : String} {p : Program} (h : parse source = .ok p) :
  parse (source ++ "\n") = .ok p
  := by
  obtain ⟨ts, hcut, hts, hshort⟩ := parse_eq_ok_iff.1 h
  rw [tokenize_eq_ok_iff] at hcut
  refine parse_eq_ok_iff.2 ⟨ts, tokenize_eq_ok_iff.2 ?_, hts, hshort⟩
  simpa using hts.cut_newline hcut .nil

/-- Two programs, one under the other, are read as the statements of the first and then
those of the second, and a program in braces is read as a block of its statements. -/
theorem parse_newline {a b : String} {p q : Program} (ha : parse a = .ok p)
    (hb : parse b = .ok q) :
  parse (a ++ "\n" ++ b) = .ok ⟨p.body ++ q.body⟩
    ∧ parse ("\x7b" ++ "\n" ++ a ++ "\n" ++ "\x7d") = .ok ⟨[.block p.body]⟩
  := by
  obtain ⟨ts, hcut, hts, hshort⟩ := parse_eq_ok_iff.1 ha
  obtain ⟨us, hcut', hus, hshort'⟩ := parse_eq_ok_iff.1 hb
  rw [tokenize_eq_ok_iff] at hcut hcut'
  cases hts with
  | @program _ ss hss =>
  cases hus with
  | @program _ ss' hss' =>
  constructor
  · apply parse_eq_ok_iff.2
    refine ⟨ts ++ us, ?_, .program (hss.append hss'), ?_⟩
    · apply tokenize_eq_ok_iff.2
      simpa using hss.cut_newline hcut hcut'
    · exact List.forall_mem_append.2 ⟨hshort, hshort'⟩
  · apply parse_eq_ok_iff.2
    refine ⟨inBraces ts, ?_, .program (.lastStatement (.block hss)), ?_⟩
    · apply tokenize_eq_ok_iff.2
      have hright : Cut ['}'] [delimiter .rightBrace] := Cut.nil.delimiter .rightBrace
      have hinside : Cut ('\n' :: (a.toList ++ '\n' :: ['}'])) (ts ++ [delimiter .rightBrace]) :=
        (Cut.blank_iff (by decide)).2 (hss.cut_newline hcut hright)
      simpa [inBraces, enclosed, Delimiter.char] using hinside.delimiter .leftBrace
    · exact forall_short_enclosed.2 hshort

/-- A program followed by itself, and the same program inside a block. -/
theorem parse_newline_sampleSource :
  parse sampleSource = .ok sampleProgram
    ∧ parse (sampleSource ++ "\n" ++ sampleSource)
      = .ok ⟨sampleProgram.body ++ sampleProgram.body⟩
    ∧ parse ("\x7b" ++ "\n" ++ sampleSource ++ "\n" ++ "\x7d") = .ok ⟨[.block sampleProgram.body]⟩
  := ⟨parse_sampleSource, parse_newline parse_sampleSource parse_sampleSource⟩

end Letter
