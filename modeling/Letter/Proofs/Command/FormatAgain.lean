import Mathlib
import Letter.Proofs.Command.AllOrNothing
import Letter.Proofs.Grammar.Compose
import Letter.Proofs.Printing.LineEnds
import Letter.Proofs.Text.Utf8

/-!
# Files in the standard form

A program is formatted into a file, and the file is read.  That gives the program again, with
line feeds for the ends of the lines in its string literals: the text of the file has all its
line ends unified, and those in string literals are the only ones that are no line feeds.  So
a program without carriage returns in its string literals is what it was, and its file stays
as it is when it is formatted again.

Main statement: `Job.prints_formatted_again`.
-/

namespace Letter

open Event

/-- What has been written to the file of a program is read as the program with line feeds in
its string literals. -/
theorem Program.parse_unified {source : String} {p : Program} (h : parse source = .ok p) :
  ∃ text, p.format = .ok text ∧ p.unified.format = .ok (withLineFeeds text)
    ∧ parse (withLineFeeds (text ++ "\n")) = .ok p.unified
  := by
  obtain ⟨hvalid, hattached⟩ := valid_of_parse h
  obtain ⟨text, text', hformat, hformat', hunifies⟩ := hvalid.format_unifies
  have hvalid' : p.unified.Valid := hvalid.mapTexts Expr.keepsQuotable_withLineFeeds
  obtain ⟨text'', hformat'', -, hparse⟩ := hvalid'.parse_format hattached.mapTexts
  cases hformat'.symm.trans hformat''
  refine ⟨text, hformat, hunifies.withLineFeeds_eq ▸ hformat', ?_⟩
  rw [(hunifies.append (.of_notMem (s := "\n") (by decide))).withLineFeeds_eq]
  exact parse_ended hparse

/-- The text of a program has no carriage returns if its string literals have none, and only
then. -/
theorem Program.withLineFeeds_format_iff {source text : String} {p : Program}
    (h : parse source = .ok p) (hformat : p.format = .ok text) :
  withLineFeeds text = text ↔ p.unified = p
  := by
  obtain ⟨text', htext', hunified, -⟩ := Program.parse_unified h
  cases hformat.symm.trans htext'
  constructor
  · intro hsame
    obtain ⟨hvalid, hattached⟩ := valid_of_parse h
    obtain ⟨_, htext, -, hparse⟩ := hvalid.parse_format hattached
    obtain ⟨_, htext', -, hparse'⟩ :=
      (hvalid.mapTexts Expr.keepsQuotable_withLineFeeds).parse_format hattached.mapTexts
    rw [hsame] at hunified
    cases hformat.symm.trans htext
    cases hunified.symm.trans htext'
    exact Except.ok.inj (hparse'.symm.trans hparse)
  · intro hsame
    rw [hsame, hformat] at hunified
    exact (Except.ok.inj hunified).symm

namespace Job

variable {σ : Type} {access : FileAccess (StateM σ)}

/-- The text that a file holds after a text has been written to it. -/
theorem textOf_toUTF8 (s : String) :
  textOf s.toUTF8.toList = .ok (withLineFeeds s)
  := by rw [textOf, Utf8.decode_toUTF8, withLineFeeds]

/-- The job that formats a program into a file. -/
def intoFile (source name : String) : Job := { ofText source .source with out := name }

/-- The job that reads a program from a file, and writes it to the output. -/
def ofFile (name : String) (f : Format) : Job := { ofText name f with isText := false }

/-- A job comes to an output, which it prints, and leaves everything as it is. -/
def Prints (access : FileAccess (StateM σ)) (job : Job) (s : σ) (output : String) : Prop :=
  ∃ told, (job.run access).run s = ((.ok output, told), s) ∧ printed told = output ++ "\n"

/-- A job prints but one output. -/
theorem Prints.unique {job : Job} {s : σ} {output output' : String}
    (h : job.Prints access s output) (h' : job.Prints access s output') :
  output = output'
  := by
  obtain ⟨told, hrun, -⟩ := h
  obtain ⟨told', hrun', -⟩ := h'
  cases hrun.symm.trans hrun'
  rfl

/-- A job that reads the text of a program, and asks for no file, prints the program. -/
theorem Reads.prints (haccess : access.Lawful) {job : Job} {s : σ} {text output : String}
    {p : Program} (h : job.Reads access s text) (hout : job.out = "") (hparse : parse text = .ok p)
    (hplain : job.textCoding = .plain)
    (hrender : p.render job.format job.indentation job.room = .ok output) :
  job.Prints access s output
  := by
  obtain ⟨log, hinput, hlog⟩ := h.run_input haccess
  have hprocess : job.process text = (.ok output, readingLog text (.ok p)) := by
    rw [process_of_ok hparse, hplain, hrender]
    rfl
  have hdeliver : (job.deliver access output).run s = ((.ok output, [.printLine output]), s) := by
    rw [run_deliver_of_printed hout, print_of_ok (encode_of_plain hplain output)]
  refine ⟨_, run_of_processed hinput hprocess hdeliver, ?_⟩
  rw [printed_append, printed_append, hlog]
  simp [printed, readingLog]

section

variable {source name output : String} {p : Program} {told : List Event} {s s' : σ}
  (haccess : access.Lawful) (hparse : parse source = .ok p)
  (hname : name.endsWith ".letter" = true) (hback : access.ReadsBack name s)
  (hrun : ((intoFile source name).run access).run s = ((.ok output, told), s'))

include haccess hparse hname hback hrun

/-- A file into which a program has been formatted holds its text in the standard form, whose
line ends are unified when it is read. -/
theorem reads_formatted :
  p.format = .ok output
    ∧ ∀ f, (ofFile name f).Reads access s' (withLineFeeds (output ++ "\n"))
  := by
  obtain ⟨_, _, _, hcases, ⟨e, rfl, -⟩ | ⟨output', rfl, hrenders, hdelivered⟩⟩ :=
    run_cases haccess (intoFile source name) s
  · cases hcases.symm.trans hrun
  · cases hcases.symm.trans hrun
    obtain ⟨text, q, hreads, hq, hrender⟩ := hrenders
    obtain rfl : text = source := hreads
    cases hparse.symm.trans hq
    refine ⟨mapError_eq_ok.1 hrender, fun f => ?_⟩
    obtain ⟨hempty, -⟩ | ⟨-, handle, s₁, bytes, ⟨-, hnull, hcreate⟩, hencode, hwrite⟩ := hdelivered
    · obtain rfl : name = "" := hempty
      exact absurd hname (by decide)
    · cases hencode.symm.trans (encode_of_plain rfl output)
      exact ⟨hname, hnull, _, hback _ _ _ _ hcreate hwrite, textOf_toUTF8 _⟩

/-- Such a file is printed as the program with line feeds in its string literals. -/
theorem prints_formatted (f : Format) :
  ∃ text, p.unified.render f.name (.blanks 2) = .ok text ∧ (ofFile name f).Prints access s' text
  := by
  obtain ⟨hformat, hreads⟩ := reads_formatted haccess hparse hname hback hrun
  obtain ⟨text, htext, -, hunified⟩ := Program.parse_unified hparse
  cases hformat.symm.trans htext
  obtain ⟨text, hrender⟩ := Program.exists_render hunified f
  exact ⟨text, hrender, (hreads f).prints haccess rfl hunified rfl hrender⟩

/-- Formatting such a file again changes nothing exactly if no string literal of the program
holds a carriage return. -/
theorem prints_output_iff :
  (ofFile name .source).Prints access s' output ↔ ∀ t ∈ p.texts, '\r' ∉ t.toList
  := by
  obtain ⟨hformat, -⟩ := reads_formatted haccess hparse hname hback hrun
  obtain ⟨text, hrender, hprints⟩ := prints_formatted haccess hparse hname hback hrun .source
  obtain ⟨_, htext, hunified, -⟩ := Program.parse_unified hparse
  cases hformat.symm.trans htext
  cases hunified.symm.trans (mapError_eq_ok.1 hrender)
  rw [← Program.unified_eq_self_iff, ← Program.withLineFeeds_format_iff hparse hformat]
  constructor
  · exact hprints.unique
  · intro hsame
    rwa [hsame] at hprints

/-- After a program has been formatted into a file, the file can be written in every format, as
the program with line feeds in its string literals.  That is the very text of the file, and of
the program in every format, if no string literal of the program holds a carriage return. -/
theorem prints_formatted_again :
  p.format = .ok output
    ∧ (∀ f : Format, ∃ text text', p.render f.name (.blanks 2) = .ok text
      ∧ p.unified.render f.name (.blanks 2) = .ok text'
      ∧ (ofText source f).Prints access s' text ∧ (ofFile name f).Prints access s' text')
    ∧ ((ofFile name .source).Prints access s' output ↔ ∀ t ∈ p.texts, '\r' ∉ t.toList)
    ∧ ((∀ t ∈ p.texts, '\r' ∉ t.toList) → ∀ (f : Format) (text : String),
      (ofText source f).Prints access s' text → (ofFile name f).Prints access s' text)
  := by
  have htexts (f : Format) : ∃ text text', p.render f.name (.blanks 2) = .ok text
      ∧ p.unified.render f.name (.blanks 2) = .ok text'
      ∧ (ofText source f).Prints access s' text ∧ (ofFile name f).Prints access s' text' := by
    obtain ⟨text, hrender⟩ := Program.exists_render hparse f
    obtain ⟨text', hrender', hprints'⟩ := prints_formatted haccess hparse hname hback hrun f
    have hreads : (ofText source f).Reads access s' source := rfl
    exact ⟨text, text', hrender, hrender', hreads.prints haccess rfl hparse rfl hrender, hprints'⟩
  obtain ⟨hformat, -⟩ := reads_formatted haccess hparse hname hback hrun
  refine ⟨hformat, htexts, prints_output_iff haccess hparse hname hback hrun, ?_⟩
  intro hplain f text hprints
  obtain ⟨text, text', hrender, hrender', hprints'', hprints'⟩ := htexts f
  rw [Program.unified_eq_self_iff.2 hplain] at hrender'
  cases hrender.symm.trans hrender'
  rwa [hprints.unique hprints'']

end

theorem endsWith_sampleName :
  "p.letter".endsWith ".letter" = true
  := by cbv

/-- A file in an empty working directory gives back what is written to it. -/
theorem readsBack_sampleName :
  Files.access.ReadsBack "p.letter" ⟨[]⟩
  := Files.access_readsBack (place_sampleName _) (by decide)

/-- A program is formatted into a file of an empty directory. -/
theorem exists_run_intoFile {source : String} {p : Program} (hparse : parse source = .ok p) :
  ∃ output told s', ((intoFile source "p.letter").run Files.access).run ⟨[]⟩
    = ((.ok output, told), s')
  := by
  obtain ⟨output, hrender⟩ := Program.exists_render hparse .source
  have hprocess : (intoFile source "p.letter").process source
      = (.ok output, readingLog source (.ok p)) := by
    rw [process_of_ok hparse]
    exact congrArg (fun result => (Except.mapError JobError.notWritten result, _)) hrender
  have hwrite (bytes : List UInt8) : Files.write ⟨[]⟩ "p.letter" bytes
      = .ok ⟨[(["p.letter"], .file bytes)]⟩ := by
    rw [Files.write, place_sampleName]
    rfl
  have hlater (bytes : List UInt8) := (Files.write_write (hwrite []) bytes).trans (hwrite bytes)
  have hopens : (intoFile source "p.letter").Opens Files.access ⟨[]⟩ "p.letter"
      ⟨[(["p.letter"], .file [])]⟩ :=
    ⟨(by decide : "p.letter" ≠ ""), (by decide : "p.letter".toList.contains '\x00' = false),
      Files.run_create_of_ok (hwrite [])⟩
  exact ⟨_, _, _, run_of_processed (run_input_of_text rfl _) hprocess
    (hopens.run_deliver_of_ok (encode_of_plain rfl output) (Files.run_write_of_ok (hlater _)))⟩

/-- A string literal with a line break, whose line feed comes back as it was. -/
theorem prints_formatted_again_lineBreak :
  Files.access.Lawful
    ∧ parse ("\"" ++ "a\nb" ++ "\";") = .ok ⟨[.expression (.string "a\nb")]⟩
    ∧ "p.letter".endsWith ".letter" = true ∧ Files.access.ReadsBack "p.letter" ⟨[]⟩
    ∧ ∃ output told s',
      ((intoFile ("\"" ++ "a\nb" ++ "\";") "p.letter").run Files.access).run ⟨[]⟩
        = ((.ok output, told), s')
      ∧ (ofFile "p.letter" .source).Prints Files.access s' output
      ∧ ∃ json, (ofText ("\"" ++ "a\nb" ++ "\";") .json).Prints Files.access s' json
        ∧ (ofFile "p.letter" .json).Prints Files.access s' json
  := by
  have hparse : parse ("\"" ++ "a\nb" ++ "\";") = .ok ⟨[.expression (.string "a\nb")]⟩ :=
    parse_doubleQuoted (by decide)
  obtain ⟨output, told, s', hrun⟩ := exists_run_intoFile hparse
  obtain ⟨-, htexts, hsame, hjson⟩ := prints_formatted_again Files.access_lawful hparse
    endsWith_sampleName readsBack_sampleName hrun
  have hplain : ∀ t ∈ Program.texts ⟨[.expression (.string "a\nb")]⟩, '\r' ∉ t.toList := by
    intro t ht
    rw [List.mem_singleton.1 ht]
    decide
  obtain ⟨json, -, -, -, hprints, -⟩ := htexts .json
  exact ⟨Files.access_lawful, hparse, endsWith_sampleName, readsBack_sampleName,
    output, told, s', hrun, hsame.2 hplain, json, hprints, hjson hplain .json json hprints⟩

/-- A carriage return in a string literal becomes a line feed. -/
theorem not_forall_prints_again :
  ¬ ∀ (source name : String) (p : Program) (files files' : Files) (output : String)
      (told : List Event), parse source = .ok p → name.endsWith ".letter" = true →
    Files.access.ReadsBack name files →
    ((intoFile source name).run Files.access).run files = ((.ok output, told), files') →
    (ofFile name .source).Prints Files.access files' output
      ∧ ∃ json, (ofText source .json).Prints Files.access files' json
        ∧ (ofFile name .json).Prints Files.access files' json
  := by
  intro h
  have hparse : parse ("\"" ++ "\r" ++ "\";") = .ok ⟨[.expression (.string "\r")]⟩ :=
    parse_doubleQuoted (by decide)
  obtain ⟨output, told, files', hrun⟩ := exists_run_intoFile hparse
  obtain ⟨hprints, -⟩ := h _ _ _ _ _ _ _ hparse endsWith_sampleName readsBack_sampleName hrun
  have hplain := (prints_output_iff Files.access_lawful hparse endsWith_sampleName
    readsBack_sampleName hrun).1 hprints
  exact hplain "\r" (List.mem_singleton_self _) (by decide)

end Job

end Letter
