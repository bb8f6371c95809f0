import Letter.Proofs.Grammar.CompleteProgram
import Letter.Proofs.Printing.Derived
import Letter.Proofs.Printing.Statement
import Letter.Proofs.Tree.Typed

/-!
# Formatting and reading again

A program that has been read can be written, and all its alternatives are attached to the
conditions that its text attaches them to.  The text of such a program is read as that same
program, so that formatting a second time changes nothing.

A typed tree that comes from elsewhere has a text as well.  The text is read as the same
tree exactly if the tree does not dangle.
-/

namespace Letter

/-- What has been read can be written. -/
theorem valid_of_parse {source : String} {p : Program} (h : parse source = .ok p) :
  p.Valid ∧ p.Attached
  := by
  obtain ⟨ts, hcut, hts, hshort⟩ := parse_eq_ok_iff.1 h
  have hvalid := (tokenize_eq_ok_iff.1 hcut).valid
  apply hts.writable fun t ht => ⟨hvalid t ht, hshort t ht⟩

/-- The text of a program is read as the program, if this can be written and its
alternatives are attached as the text attaches them. -/
theorem Program.Valid.parse_format {p : Program} (h : p.Valid) (hattached : p.Attached) :
  ∃ text, p.format = .ok text ∧ tokenize text = .ok p.tokens ∧ parse text = .ok p
  := by
  obtain ⟨text, hformat, hcut⟩ := h.exists_format
  exact ⟨text, hformat, hcut, parse_eq_ok_iff.2 ⟨p.tokens, hcut, h.derives hattached, h.short⟩⟩

/-- A text between double quotes is read as a string literal, if it holds no such quote. -/
theorem parse_doubleQuoted {text : String} (h : '"' ∉ text.toList) :
  parse ("\"" ++ text ++ "\";") = .ok ⟨[.expression (.string text)]⟩
  := by
  have hsource : ("\"" ++ text ++ "\";").toList
      = (Token.string .double text).text.toList ++ [Delimiter.semicolon.char] := by
    simp [Token.text, Quote.char, Delimiter.char]
  have hcut : Cut ("\"" ++ text ++ "\";").toList
      [.string .double text, .delimiter .semicolon] := by
    rw [hsource]
    exact .token (Rule.first?_string h _) (.token (Rule.first?_delimiter _ _) .nil)
  refine parse_eq_ok_iff.2 ⟨_, tokenize_eq_ok_iff.2 hcut, ?_, by simp [Token.Short]⟩
  exact .program (.lastStatement (.expressionStatement (.loosen .string (by decide))))

/-- A program that has been read has a text, the text is read as the same program, and
that has the same text. -/
theorem format_roundtrip {source : String} {p : Program} (h : parse source = .ok p) :
  ∃ text, p.format = .ok text ∧ ∃ q, parse text = .ok q ∧ q = p ∧ q.format = .ok text
  := by
  obtain ⟨hvalid, hattached⟩ := valid_of_parse h
  obtain ⟨text, hformat, -, hparse⟩ := hvalid.parse_format hattached
  exact ⟨text, hformat, p, hparse, rfl, hformat⟩

/-- An assignment with parentheses to spare, its standard form, and the program read from that. -/
theorem format_roundtrip_sampleSource :
  parse sampleSource = .ok sampleProgram ∧ ∃ text, sampleProgram.format = .ok text
    ∧ ∃ q, parse text = .ok q ∧ q = sampleProgram ∧ q.format = .ok text
  := ⟨parse_sampleSource, format_roundtrip parse_sampleSource⟩

/-- A typed program has a text, which is read as the same tree exactly if no condition inside
it has an alternative together with an open consequent. -/
theorem emit_roundtrip_iff {t : Tree} (h : t.IsProgram) :
  ∃ text, t.emit = .ok text
    ∧ ((∃ p, parse text = .ok p ∧ t.same p.toTree = true) ↔ ¬ t.Dangles)
  := by
  obtain ⟨p, hvalid, rfl⟩ := h.exists_toTree
  obtain ⟨text, hformat, -⟩ := hvalid.exists_format
  refine ⟨text, hformat, ?_, fun hnot => ?_⟩
  · rintro ⟨q, hparse, hsame⟩ hdangles
    obtain ⟨hq, hattached⟩ := valid_of_parse hparse
    apply (Tree.not_dangles_program_iff hq).2 hattached
    apply hdangles.of_same hsame
  · have hattached := (Tree.not_dangles_program_iff hvalid).1 hnot
    obtain ⟨text', hformat', -, hparse⟩ := hvalid.parse_format hattached
    cases hformat.symm.trans hformat'
    exact ⟨p, hparse, Tree.same_refl _⟩

/-- A condition with an alternative, and with a condition without one as its consequent. -/
def sampleTree : Tree :=
  .program (.list [.condition .null (.condition .null .empty (.scalar .null)) .empty])

theorem isProgram_sampleTree :
  sampleTree.IsProgram
  := by
  refine .body (List.forall_mem_singleton.2 ?_) (by simp)
  exact .ifElse .null (.ifThen .null .empty) .empty

/-- The same of a tree whose text puts the alternative with the inner condition. -/
theorem emit_roundtrip_iff_sampleTree :
  sampleTree.IsProgram ∧ ∃ text, sampleTree.emit = .ok text
    ∧ ((∃ p, parse text = .ok p ∧ sampleTree.same p.toTree = true) ↔ ¬ sampleTree.Dangles)
  := ⟨isProgram_sampleTree, emit_roundtrip_iff isProgram_sampleTree⟩

end Letter
