import Letter.Text.Quoted

/-!
# Options

The options of the command have long names, and some of them a letter.  Those that have a
value say by a label which option is at fault when the value is.
-/

namespace Letter

/-- The options. -/
inductive Opt where
  | help
  | string
  | format
  | out
  | indent
  | repl
  | verbose
  | logLevel
  deriving DecidableEq, Repr

namespace Opt

/-- The options, in the order of the help text. -/
def all : List Opt := [help, string, format, out, indent, repl, verbose, logLevel]

/-- The letter of an option, for those that have one. -/
def letter? : Opt → Option Char
  | help => some 'h'
  | string => some 's'
  | format => some 'f'
  | out => some 'o'
  | _ => none

/-- The long name of an option. -/
def longName : Opt → String
  | help => "--help"
  | string => "--string"
  | format => "--format"
  | out => "--out"
  | indent => "--indent"
  | repl => "--repl"
  | verbose => "--verbose"
  | logLevel => "--log-level"

/-- How messages name an option. -/
def label (o : Opt) : String :=
  match o.letter? with
  | some c => "-" ++ String.singleton c ++ "/" ++ o.longName
  | none => o.longName

/-- Whether an option has a value. -/
def takesValue : Opt → Bool
  | format | out | indent | logLevel => true
  | help | string | repl | verbose => false

/-- The option of a given letter. -/
def ofLetter? (c : Char) : Option Opt := all.find? fun o => o.letter? == some c

/-- The option of a given long name. -/
def ofLongName? (s : String) : Option Opt := all.find? fun o => o.longName == s

/-- The options whose long name begins with a text. -/
def beginningWith (s : String) : List Opt :=
  all.filter fun o => s.toList.isPrefixOf o.longName.toList

end Opt

/-- Why arguments are not understood. -/
inductive UsageError where
  /-- A shortened option is the beginning of several. -/
  | ambiguous (argument : String) (options : List Opt)
  /-- A value is none of those from which an option chooses. -/
  | invalidChoice (o : Opt) (value : String) (choices : List String)
  /-- A value that should be an integer is none. -/
  | invalidInteger (o : Opt) (value : String)
  /-- An option that has a value comes without one. -/
  | missingValue (o : Opt)
  /-- A value is attached to an option that has none. -/
  | attachedValue (o : Opt) (value : String)
  /-- Arguments are neither options nor the source. -/
  | unrecognized (arguments : List String)
  deriving DecidableEq, Repr

/-- The text of an error. -/
def UsageError.message : UsageError → String
  | ambiguous argument options =>
    "ambiguous option: " ++ argument ++ " could match "
      ++ ", ".intercalate (options.map Opt.longName)
  | invalidChoice o value choices =>
    "argument " ++ o.label ++ ": invalid choice: " ++ quoted value ++ " (choose from "
      ++ ", ".intercalate (choices.map quoted) ++ ")"
  | invalidInteger o value =>
    "argument " ++ o.label ++ ": invalid int value: " ++ quoted value
  | missingValue o => "argument " ++ o.label ++ ": expected one argument"
  | attachedValue o value =>
    "argument " ++ o.label ++ ": ignored explicit argument " ++ quoted value
  | unrecognized arguments => "unrecognized arguments: " ++ " ".intercalate arguments

end Letter
