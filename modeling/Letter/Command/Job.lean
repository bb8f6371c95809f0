import Letter.Files
import Letter.Format
import Letter.Output
import Letter.Text.Lines
import Letter.Text.Utf8

/-!
# Jobs

A job reads a program, from a file or from the command line itself, and writes it in a
format, to a file or to the output.  It writes nothing unless all before has succeeded.

A file that is to be written is opened before its bytes are known, and a text that holds half
of a pair has none: then the file is left empty.
-/

namespace Letter

/-- What a job is to do. -/
structure Job where
  /-- The name of the file to read, or the text of the program. -/
  source : String
  /-- Whether `source` is the text of the program. -/
  isText : Bool
  /-- The name of the format to write. -/
  format : String
  /-- The name of the file to write; if empty, the program goes to the output. -/
  out : String
  /-- The indentation of JSON. -/
  indentation : Indentation
  /-- How many blanks a margin may have. -/
  room : Room := .unbounded
  /-- How the characters of `source` are read, if it is the text of the program. -/
  coding : Coding := .plain

/-- Why a job fails. -/
inductive JobError where
  /-- The name of the file to read has another ending than it should have. -/
  | notLetterFile
  /-- The name of a file holds a null character. -/
  | nullInName
  /-- A file is not read or written. -/
  | file (e : FileError)
  /-- A file holds no text. -/
  | notText (e : Utf8Error)
  /-- The text is no program. -/
  | notProgram (e : SyntaxError)
  /-- The program is not written in the format. -/
  | notWritten (e : FormatError)
  /-- What should be written to a file has no bytes. -/
  | notEncoded (e : HalfError)
  deriving DecidableEq, Repr

/-- The text of an error. -/
def JobError.message : JobError → String
  | notLetterFile => "Only .letter files are supported."
  | nullInName => "embedded null byte"
  | file e => e.message
  | notText e => e.message
  | notProgram e => e.message
  | notWritten e => e.message
  | notEncoded e => e.message

namespace Job

variable {m : Type → Type} [Monad m]

/-- Does something with a file unless its name is none. -/
def withName {α : Type} (name : String) (action : m (Except FileError α)) :
    m (Except JobError α) := do
  if name.toList.contains '\x00' then return .error .nullInName
  else return (← action).mapError .file

/-- The text that bytes of a file hold. -/
def textOf (bytes : List UInt8) : Except JobError String :=
  match Utf8.decode bytes with
  | .ok s => .ok (String.ofList (unifyLineEnds s))
  | .error e => .error (.notText e)

/-- How the characters of the program are read; those of a file stand for themselves. -/
def textCoding (job : Job) : Coding := if job.isText then job.coding else .plain

/-- The text of the program, and the log of reading it. -/
def input (access : FileAccess m) (job : Job) : m (Except JobError String × List Event) := do
  if job.isText then return (.ok job.source, [])
  else if !job.source.endsWith ".letter" then return (.error .notLetterFile, [])
  else
    let bytes ← withName job.source (access.read job.source)
    return (bytes.bind textOf, [.log (.reading job.source)])

/-- The program of a text written in the format, and the log of reading it. -/
def process (job : Job) (text : String) : Except JobError String × List Event :=
  match parseLogged text with
  | (.error e, log) => (.error (.notProgram e), log)
  | (.ok p, log) =>
    ((p.render job.format job.indentation job.room job.textCoding).mapError .notWritten, log)

/-- The bytes of the line or lines that are written. -/
def encode (job : Job) (output : String) : Except JobError (List UInt8) :=
  (Utf8.encode job.textCoding (output ++ "\n")).mapError .notEncoded

/-- Prints the output, unless it has no bytes. -/
def print (job : Job) (output : String) : Except JobError String × List Event :=
  match job.encode output with
  | .error e => (.error e, [])
  | .ok _ => (.ok output, [.printLine output])

/-- Writes the output to a file that has been opened. -/
def store (access : FileAccess m) (job : Job) (handle : access.Handle) (output : String) :
    m (Except JobError Unit) := do
  match job.encode output with
  | .error e => return .error e
  | .ok bytes => return (← access.write handle bytes).mapError .file

/-- Writes the output where it belongs. -/
def deliver (access : FileAccess m) (job : Job) (output : String) :
    m (Except JobError String × List Event) := do
  if job.out.isEmpty then return job.print output
  else
    match ← withName job.out (access.create job.out) with
    | .error e => return (.error e, [])
    | .ok handle =>
      match ← job.store access handle output with
      | .error e => return (.error e, [])
      | .ok () => return (.ok output, [.log (.wrote job.format job.out)])

/-- Does a job; its output, and what is told. -/
def run (access : FileAccess m) (job : Job) : m (Except JobError String × List Event) := do
  match ← job.input access with
  | (.error e, log) => return (.error e, log)
  | (.ok text, log) =>
    match job.process text with
    | (.error e, log') => return (.error e, log ++ log')
    | (.ok output, log') =>
      let (result, log'') ← job.deliver access output
      return (result, log ++ log' ++ log'')

end Job

end Letter
