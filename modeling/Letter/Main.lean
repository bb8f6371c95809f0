import Letter.Command.Plan

/-!
# The command line

Carries out the command of the arguments, with the files of the system and a dialogue on
the standard streams.
-/

namespace Letter

/-- Shows an event. -/
def showEvent (threshold : Nat) (e : Event) : IO Unit := do
  IO.print e.output
  IO.eprint (e.errors threshold)
  (← IO.getStdout).flush

/-- The number and the words of an error of the system; some of its parts give the number with a
minus sign. -/
def systemReason : IO.Error → Nat × String
  | .alreadyExists _ code words | .otherError code words | .resourceBusy code words
  | .resourceVanished code words | .unsupportedOperation code words | .hardwareFault code words
  | .unsatisfiedConstraints code words | .illegalOperation code words
  | .protocolError code words | .timeExpired code words | .interrupted _ code words
  | .noFileOrDirectory _ code words | .invalidArgument _ code words
  | .permissionDenied _ code words | .resourceExhausted _ code words
  | .inappropriateType _ code words | .noSuchThing _ code words =>
    (if code.toNat < Nat.pow 2 31 then code.toNat else Nat.pow 2 32 - code.toNat, words)
  | .unexpectedEof => (5, "Input/output error")
  | .userError words => (5, words)

/-- Why the system does not read or write a file. -/
def systemError (name : String) (e : IO.Error) : FileError :=
  match systemReason e with
  | (2, _) => .missing name
  | (20, _) => .notDirectory name
  | (21, _) => .isDirectory name
  | (36, _) => .tooLong name
  | (number, words) => .refused number words name

/-- What comes of using the file of a name. -/
def withSystem {α : Type} (name : String) (action : IO α) : IO (Except FileError α) := do
  try return .ok (← action)
  catch e => return .error (systemError name e)

/-- The way to the files of the system; a file that has been opened is kept with its name. -/
def systemFiles : FileAccess IO where
  Handle := String × IO.FS.Handle
  read name := withSystem name do
    return (← (← IO.FS.Handle.mk name .read).readBinToEnd).toList
  create name := withSystem name do
    return (name, ← IO.FS.Handle.mk name .write)
  write file bytes := withSystem file.1 do
    file.2.write ⟨bytes.toArray⟩
    file.2.flush

/-- Holds a dialogue; `waiting` are lines that have come and were not asked for yet. -/
partial def hold (threshold : Nat) (s : Session) (waiting : List String) : IO Unit := do
  showEvent threshold (.print s.pending.prompt)
  let lines ←
    if waiting.isEmpty then
      pure ((splitLines (← (← IO.getStdin).getLine).toList).map String.ofList)
    else pure waiting
  match lines with
  | [] => Session.breakOff.forM (showEvent threshold)
  | line :: waiting =>
    let (events, next?) := s.hear line
    events.forM (showEvent threshold)
    match next? with
    | none => return
    | some s => hold threshold s waiting

/-- The command line. -/
def commandLine (arguments : List String) : IO UInt32 := do
  let environment := (← IO.getEnv "LETTER_LOG_LEVEL").getD ""
  let command := Command.ofArguments arguments environment
  match command.plan with
  | .dialogue s =>
    s.greeting.forM (showEvent command.threshold)
    hold command.threshold s []
    return 0
  | plan =>
    let outcome ← plan.run systemFiles []
    outcome.events.forM (showEvent command.threshold)
    match outcome.ending with
    | .exit status => return status.toUInt32
    | .crash c =>
      IO.eprintln c.message
      return 1

end Letter

/-- Runs the command line. -/
def main (arguments : List String) : IO UInt32 := Letter.commandLine arguments
