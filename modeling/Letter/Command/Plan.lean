import Letter.Command.Job
import Letter.Command.Settings
import Letter.Session.Dialogue

/-!
# The command

The arguments decide what the command does: it shows its help, refuses the arguments, holds
a dialogue or does a job.  Without a source there is a dialogue.

A job that fails is reported and gives an exit status.  Two faults are not foreseen, an
indentation that JSON cannot have and an environment that misuses a name of the log; they
break the command off.
-/

namespace Letter

/-- How the command is used. -/
def usageText : String :=
  "usage: letter [-h] [-s] [-f \x7bjson,source\x7d] [-o OUTFILE] [--indent INDENT]\n"
    ++ "              [--repl] [--verbose] [--log-level \x7bDEBUG,INFO,WARNING,ERROR\x7d]\n"
    ++ "              [source]\n"

/-- The help on the command. -/
def helpText : String :=
  usageText
    ++ "\n"
    ++ "positional arguments:\n"
    ++ "  source                Filename or raw source (with -s)\n"
    ++ "\n"
    ++ "options:\n"
    ++ "  -h, --help            show this help message and exit\n"
    ++ "  -s, --string          Interpret source as literal string\n"
    ++ "  -f \x7bjson,source\x7d, --format \x7bjson,source\x7d\n"
    ++ "                        Output format (default: json)\n"
    ++ "  -o OUTFILE, --out OUTFILE\n"
    ++ "                        Output to file\n"
    ++ "  --indent INDENT       JSON indentation width (default: 2)\n"
    ++ "  --repl                Launch interactive REPL instead of parsing a source\n"
    ++ "  --verbose             Show tokens in the REPL (if --repl)\n"
    ++ "  --log-level \x7bDEBUG,INFO,WARNING,ERROR\x7d\n"
    ++ "                        Logging level (default: $LETTER_LOG_LEVEL or WARNING)\n"

/-- What the command is to do. -/
inductive Plan where
  /-- Show the help. -/
  | help
  /-- Refuse the arguments. -/
  | refuse (e : UsageError)
  /-- Hold a dialogue. -/
  | dialogue (s : Session)
  /-- Do a job. -/
  | job (j : Job)
  /-- Break off, for the environment names no severity. -/
  | breakOff (e : ThresholdError)

/-- A plan, and the rank from which records are shown. -/
structure Command where
  /-- What is to be done. -/
  plan : Plan
  /-- The rank from which records are shown. -/
  threshold : Nat

/-- A fault that breaks the command off. -/
inductive Crash where
  /-- JSON cannot be indented as asked for. -/
  | indentation (e : MarginError)
  /-- The environment names no severity. -/
  | threshold (e : ThresholdError)
  deriving DecidableEq, Repr

/-- The text of a fault. -/
def Crash.message : Crash → String
  | indentation e => e.message
  | threshold e => e.message

/-- How the command ends. -/
inductive Ending where
  /-- With an exit status: 0 for success, 1 for a failed job, 2 for refused arguments. -/
  | exit (status : Nat)
  /-- With a fault. -/
  | crash (c : Crash)
  deriving DecidableEq, Repr

/-- What the command tells, and how it ends. -/
structure Outcome where
  /-- What is told, in order. -/
  events : List Event
  /-- The end of the command. -/
  ending : Ending

namespace Command

/-- The rank from which records are shown: that of the severity asked for, else of the one
that the environment names, else of warnings. -/
def thresholdOf (asked : Option Severity) (environment : String) :
    Except ThresholdError Nat :=
  match asked with
  | some severity => .ok severity.rank
  | none => Severity.thresholdOf (String.ofList (uppercase environment.toList))

/-- The plan that settings ask for, given the room for a margin and how the arguments are read. -/
def planOf (s : Settings) (room : Room) (coding : Coding) : Plan :=
  match s.source? with
  | some source =>
    if s.repl then .dialogue { format := s.format, verbose := s.verbose }
    else
      .job
        { source, isText := s.isText, format := s.format, out := s.out,
          indentation := s.indentation, room, coding }
  | none => .dialogue { format := s.format, verbose := s.verbose }

/-- The command that settings ask for. -/
def ofSettings (s : Settings) (environment : String) (room : Room) (coding : Coding) : Command :=
  match thresholdOf s.severity? environment with
  | .ok threshold => ⟨planOf s room coding, threshold⟩
  | .error e => ⟨.breakOff e, 0⟩

/-- The command of some arguments, where the environment may name a severity. -/
def ofArguments (arguments : List String) (environment : String) (room : Room := .unbounded)
    (coding : Coding := .plain) : Command :=
  match Request.ofArguments arguments with
  | .ok (.settings s) => ofSettings s environment room coding
  | .ok .help => ⟨.help, 0⟩
  | .error e => ⟨.refuse e, 0⟩

end Command

namespace Plan

/-- The outcome of refusing arguments. -/
def refusal (e : UsageError) : Outcome :=
  ⟨[.report (usageText ++ "letter: error: " ++ e.message ++ "\n")], .exit 2⟩

/-- The outcome of a job. -/
def jobOutcome : Except JobError String × List Event → Outcome
  | (.ok _, events) => ⟨events, .exit 0⟩
  | (.error (.notWritten (.indentation e)), events) => ⟨events, .crash (.indentation e)⟩
  | (.error e, events) =>
    ⟨events ++ [.report ("error: " ++ e.message ++ "\n")], .exit 1⟩

/-- Carries out a plan, with the inputs that come when a dialogue asks for them. -/
def run {m : Type → Type} [Monad m] (access : FileAccess m) (inputs : List Input) :
    Plan → m Outcome
  | help => return ⟨[.print helpText], .exit 0⟩
  | refuse e => return refusal e
  | dialogue s => return ⟨(s.run inputs).1, .exit 0⟩
  | job j => do return jobOutcome (← j.run access)
  | breakOff e => return ⟨[], .crash (.threshold e)⟩

end Plan

end Letter
