import Letter.Grammar.Statement
import Letter.Severity

/-!
# What the program tells

While it works, the program prints results, reports errors and keeps a log.  Records of the
log whose severity is below a threshold are not shown.
-/

namespace Letter

/-- A record of the log. -/
structure Record where
  /-- How much the record matters. -/
  severity : Severity
  /-- The part of the program that keeps the record. -/
  origin : String
  /-- What is recorded. -/
  message : String
  deriving DecidableEq, Repr

namespace Record

/-- The line of a record. -/
def text (r : Record) : String :=
  r.severity.name ++ " " ++ r.origin ++ ": " ++ r.message ++ "\n"

/-- A text is about to be read token by token. -/
def scanning (source : String) : Record :=
  ⟨.debug, "letter.letter_lexer",
    "tokenizer initialized with " ++ toString source.length ++ " characters"⟩

/-- A program has been read. -/
def parsed (p : Program) : Record :=
  ⟨.debug, "letter.letter_parser",
    "parsed program with " ++ toString p.body.length ++ " statement(s)"⟩

/-- A file is about to be read. -/
def reading (file : String) : Record := ⟨.debug, "letter.letter_cli", "reading " ++ file⟩

/-- Output has been written to a file. -/
def wrote (format file : String) : Record :=
  ⟨.info, "letter.letter_cli", "wrote " ++ format ++ " output to " ++ file⟩

/-- What was typed is no program. -/
def rejected (source : String) : Record :=
  ⟨.debug, "letter.letter_repl", "rejected input " ++ quoted source⟩

end Record

/-- Something that the program tells. -/
inductive Event where
  /-- A result, or part of the dialogue. -/
  | print (text : String)
  /-- An error. -/
  | report (text : String)
  /-- A record of the log. -/
  | log (record : Record)
  deriving DecidableEq, Repr

namespace Event

/-- A result on lines of its own. -/
def printLine (text : String) : Event := print (text ++ "\n")

/-- What an event adds to the output. -/
def output : Event → String
  | print text => text
  | _ => ""

/-- What events add to the output, one after another. -/
def printed : List Event → String
  | [] => ""
  | e :: later => e.output ++ printed later

/-- What an event adds to the errors, when records are shown from a rank on. -/
def errors (threshold : Nat) : Event → String
  | print _ => ""
  | report text => text
  | log r => if threshold ≤ r.severity.rank then r.text else ""

@[simp]
theorem output_printLine (text : String) :
  (printLine text).output = text ++ "\n"
  := rfl

@[simp]
theorem output_log (r : Record) :
  (log r).output = ""
  := rfl

theorem printed_append (as bs : List Event) :
  printed (as ++ bs) = printed as ++ printed bs
  := by
  induction as with
  | nil => rw [List.nil_append, printed, String.empty_append]
  | cons e later ih => rw [List.cons_append, printed, printed, ih, String.append_assoc]

end Event

/-- The log of reading a program from a text. -/
def readingLog (source : String) : Except SyntaxError Program → List Event
  | .ok p => [.log (.scanning source), .log (.parsed p)]
  | .error _ => [.log (.scanning source)]

/-- The program of a text, and the log of reading it. -/
def parseLogged (source : String) : Except SyntaxError Program × List Event :=
  let result := parse source
  (result, readingLog source result)

end Letter
