import Letter.Command.Argument
import Letter.Format
import Letter.Severity
import Letter.Text.Integer
import Letter.Text.LetterCase

/-!
# Settings

The arguments are taken in order, each option with its value, until one is at fault or asks
for help.  One argument that belongs to no option is the source; what is left over is
refused in the end.

The separator is no value: an option to which it is attached is left with an empty list of
values, which nothing checks.
-/

namespace Letter

/-- What the arguments ask for. -/
structure Settings where
  /-- The source, if one is given. -/
  source? : Option String
  /-- Whether the source is the text of the program. -/
  isText : Bool
  /-- The name of the format to write. -/
  format : String
  /-- The name of the file to write; none if empty. -/
  out : String
  /-- The indentation of JSON. -/
  indentation : Indentation
  /-- Whether a dialogue is asked for. -/
  repl : Bool
  /-- Whether the dialogue shows tokens. -/
  verbose : Bool
  /-- The severity from which records are shown, if one is asked for. -/
  severity? : Option Severity
  deriving DecidableEq, Repr

namespace Settings

/-- The settings without arguments. -/
def default : Settings where
  source? := none
  isText := false
  format := Format.json.name
  out := ""
  indentation := .blanks 2
  repl := false
  verbose := false
  severity? := none

/-- The settings with the value of an option. -/
def withValue (s : Settings) (o : Opt) (value : String) : Except UsageError Settings :=
  match o with
  | .format =>
    match Format.ofName? value with
    | some format => .ok { s with format := format.name }
    | none => .error (.invalidChoice o value (Format.all.map Format.name))
  | .out => .ok { s with out := value }
  | .indent =>
    match readInteger? value.toList with
    | some n => .ok { s with indentation := .blanks n }
    | none => .error (.invalidInteger o value)
  | .logLevel =>
    let name := String.ofList (uppercase value.toList)
    match Severity.ofChoice? name with
    | some severity => .ok { s with severity? := some severity }
    | none => .error (.invalidChoice o name (Severity.choices.map Severity.name))
  | _ => .ok s

/-- The settings with an option whose values are an empty list: it names no format, no file
and no severity, and is no number of blanks. -/
def withoutValue (s : Settings) : Opt → Settings
  | .format => { s with format := bracketed [] }
  | .out => { s with out := "" }
  | .indent => { s with indentation := .notInteger "list" }
  | .logLevel => { s with severity? := none }
  | _ => s

/-- The settings with an option and what is given for its value. -/
def withGiven (s : Settings) (o : Opt) (value : String) : Except UsageError Settings :=
  if value = separatorText then .ok (s.withoutValue o) else s.withValue o value

/-- The settings with an option that has no value. -/
def withFlag (s : Settings) : Opt → Settings
  | .string => { s with isText := true }
  | .repl => { s with repl := true }
  | .verbose => { s with verbose := true }
  | _ => s

end Settings

/-! ### Options with their values -/

/-- Options joined in one argument: those without a value, and then perhaps one with a
value, which is attached to it or follows in the next argument. -/
structure Cluster where
  /-- The options without a value. -/
  flags : List Opt
  /-- The option with a value, and the value attached to it. -/
  last? : Option (Opt × Option String)

namespace Cluster

/-- The options that begin with one given by its letter, joined with those in what is
attached to it. -/
def ofLetters (o : Opt) : List Char → Except UsageError Cluster
  | [] => .ok (if o.takesValue then ⟨[], some (o, none)⟩ else ⟨[o], none⟩)
  | c :: attached =>
    if o.takesValue then .ok ⟨[], some (o, some (String.ofList (c :: attached)))⟩
    else
      match Opt.ofLetter? c with
      | none => .error (.attachedValue o (String.ofList (c :: attached)))
      | some o' => do
        let joined ← ofLetters o' attached
        return { joined with flags := o :: joined.flags }

/-- The options of an argument that begins with one, which is given by its name or by its
letter. -/
def ofOption (o : Opt) (named : Bool) (attached : Option String) :
    Except UsageError Cluster :=
  match attached with
  | none => ofLetters o []
  | some value =>
    if o.takesValue then .ok ⟨[], some (o, some value)⟩
    else if named || value.isEmpty then .error (.attachedValue o value)
    else ofLetters o value.toList

end Cluster

/-- What is asked for, one thing after another. -/
inductive Item where
  /-- An option without a value. -/
  | flag (o : Opt)
  /-- An option and its value. -/
  | valued (o : Opt) (value : String)
  /-- An argument that belongs to no option. -/
  | plain (s : String)
  /-- `--`. -/
  | separator
  /-- What has the form of an option and is none. -/
  | unknown (s : String)
  /-- An option that is at fault; what follows is not looked at. -/
  | fault (e : UsageError)
  deriving DecidableEq, Repr

/-- The arguments with each option joined to its value. -/
def Item.ofArguments : List Argument → List Item
  | [] => []
  | .plain s :: later => .plain s :: ofArguments later
  | .separator :: later => .separator :: ofArguments later
  | .unknown s :: later => .unknown s :: ofArguments later
  | .option o named attached :: later =>
    match Cluster.ofOption o named attached with
    | .error e => [.fault e]
    | .ok ⟨flags, none⟩ => flags.map .flag ++ ofArguments later
    | .ok ⟨flags, some (o, some value)⟩ =>
      flags.map .flag ++ .valued o value :: ofArguments later
    | .ok ⟨flags, some (o, none)⟩ =>
      match later with
      | .plain value :: later => flags.map .flag ++ .valued o value :: ofArguments later
      | _ => [.fault (.missingValue o)]

/-! ### Taking what is asked for -/

/-- What arguments come to. -/
inductive Request where
  /-- The help is asked for. -/
  | help
  /-- Something is to be done. -/
  | settings (s : Settings)
  deriving DecidableEq, Repr

namespace Request

/-- Takes what is asked for in order, given whether the source may still come and the
arguments left over so far, last first.  The separator next to the source belongs to
it. -/
def ofItems (s : Settings) (mayCome : Bool) (left : List String) :
    List Item → Except UsageError Request
  | [] => if left.isEmpty then .ok (.settings s) else .error (.unrecognized left.reverse)
  | .fault e :: _ => .error e
  | .flag .help :: _ => .ok .help
  | .flag o :: later => ofItems (s.withFlag o) mayCome left later
  | .valued o value :: later =>
    match s.withGiven o value with
    | .error e => .error e
    | .ok s => ofItems s mayCome left later
  | .unknown a :: later => ofItems s mayCome (a :: left) later
  | .plain a :: later =>
    if mayCome then
      match later with
      | .separator :: later => ofItems { s with source? := some a } false left later
      | later => ofItems { s with source? := some a } false left later
    else ofItems s false (a :: left) later
  | .separator :: later =>
    if mayCome then
      match later with
      | .plain a :: later => ofItems { s with source? := some a } false left later
      | later => ofItems s false left later
    else ofItems s false (separatorText :: left) later

/-- What the arguments of the command come to. -/
def ofArguments (arguments : List String) : Except UsageError Request := do
  ofItems .default true [] (Item.ofArguments (← Argument.ofStrings arguments))

end Request

end Letter
