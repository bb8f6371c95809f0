import Letter.Format
import Letter.Output
import Letter.Session.Entry
import Letter.Text.LetterCase

/-!
# The dialogue

Each entry is answered by the program it holds, written in the format of the session, or
by why it is none.  In verbose mode the tokens of the entry come first.

All entries are read from one front and shown in one buffer, so that reading an entry begins
where reading the last one was left, whether that was at its end or at an error.
-/

namespace Letter

/-- The state of a dialogue. -/
structure Session where
  /-- The name of the format in which programs are written; other names than that of the
  source format stand for JSON. -/
  format : String
  /-- Whether the tokens of an entry are shown. -/
  verbose : Bool
  /-- The entry that is being typed. -/
  pending : Pending := .empty
  /-- Where reading the last entry has ended. -/
  front : Front := .empty
  /-- The lines in which programs are shown as source text. -/
  buffer : Buffer := .empty

namespace Session

/-- What is told of an entry that holds no program. -/
def rejection (source : String) (message : String) : List Event :=
  [.log (.rejected source), .printLine ("[error] >>> " ++ message)]

/-- What is told of a fault that is not in the grammar of an entry, given the word for its kind. -/
def failure (kindName message : String) : List Event :=
  let fault := if message = "" then kindName else kindName ++ ": " ++ message
  [.printLine "[error] >>>", .printLine ("Traceback (most recent call last):\n" ++ fault ++ "\n")]

/-- What is told of a text that the grammar does not read. -/
def complaint (source : String) : SyntaxError → List Event
  | .numeralTooLong digits => failure "ValueError" (SyntaxError.numeralTooLong digits).message
  | e => rejection source e.message

/-- Shows the program of an entry. -/
def showProgram (s : Session) (p : Program) : List Event × Session :=
  if s.format = Format.source.name then
    match s.buffer.emit p.toTree with
    | (.ok text, buffer) => ([.printLine text], { s with buffer })
    | (.error e, buffer) => (failure e.kindName e.message, { s with buffer })
  else ([.printLine (p.json (.lines (blanks 2)))], s)

/-- The answer to an entry that should hold a program, its tokens aside, and the dialogue
afterwards. -/
def answerProgram (s : Session) (source : String) : List Event × Session :=
  match Parse.source source.toList s.front with
  | .ok p front =>
    let (shown, s) := showProgram { s with front } p
    (readingLog source (.ok p) ++ shown, s)
  | .error e front => (readingLog source (.error e) ++ complaint source e, { s with front })

/-- The answer to an entry, and the dialogue afterwards. -/
def respond (s : Session) (source : String) : List Event × Session :=
  if source.toList.isEmpty || source.toList.take 2 = ['/', '/'] then ([], s)
  else if lowercase source.toList = "verbose-mode".toList then
    ([.printLine ("[mode] >>> Verbose mode " ++ (if s.verbose then "OFF" else "ON"))],
      { s with verbose := !s.verbose })
  else if s.verbose then
    match tokenize source with
    | .ok ts =>
      let (events, s) := s.answerProgram source
      (.log (.scanning source)
        :: .printLine ("[tokens] >>> " ++ bracketed (ts.map Token.shown)) :: events, s)
    | .error e => (.log (.scanning source) :: rejection source e.message, s)
  else s.answerProgram source

/-- What is told when a dialogue begins. -/
def greeting (s : Session) : List Event :=
  [.printLine ("Letter REPL [format=" ++ s.format ++ "]. Type 'exit' or 'quit' to leave.")]

/-- What is told when a dialogue is left. -/
def farewell : List Event := [.printLine "Exiting Letter REPL."]

/-- What is told when a dialogue breaks off. -/
def breakOff : List Event := [.printLine "\nExiting Letter REPL."]

/-- The answer to a line, and the dialogue afterwards, unless it has ended. -/
def hear (s : Session) (line : String) : List Event × Option Session :=
  match s.pending.add line with
  | .more pending => ([], some { s with pending })
  | .leave => (farewell, none)
  | .entry source =>
    let (events, s) := respond { s with pending := .empty } source
    (events, some s)

/-- A dialogue over some inputs: what is told, and the inputs that were not asked for. -/
def converse (s : Session) : List Input → List Event × List Input
  | [] => (.print s.pending.prompt :: breakOff, [])
  | .interrupt :: later => (.print s.pending.prompt :: breakOff, later)
  | .line l :: later =>
    match s.hear l with
    | (events, none) => (.print s.pending.prompt :: events, later)
    | (events, some s') =>
      let (rest, unread) := s'.converse later
      (.print s.pending.prompt :: (events ++ rest), unread)

/-- A whole dialogue: what is told, and the inputs that were not asked for. -/
def run (s : Session) (inputs : List Input) : List Event × List Input :=
  let (events, unread) := s.converse inputs
  (s.greeting ++ events, unread)

end Session

end Letter
