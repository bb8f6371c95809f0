import Letter.Command.Opt
import Letter.Text.DecimalDigit

/-!
# Arguments

The arguments of the command are told apart by their form.  An option may be shortened to a
beginning that no other option has, and a value may be attached to it.  Numbers and
arguments with a space are no options, and after `--` none is.
-/

namespace Letter

/-- What separates the options from the other arguments. -/
def separatorText : String := "--"

/-- An argument, told apart from others by its form. -/
inductive Argument where
  /-- The source, or the value of the option before. -/
  | plain (s : String)
  /-- The separator, after which no argument is an option. -/
  | separator
  /-- An option, by its letter or by its name, with what is attached to it. -/
  | option (o : Opt) (named : Bool) (attached : Option String)
  /-- What has the form of an option and is none. -/
  | unknown (s : String)
  deriving DecidableEq, Repr

namespace Argument

/-- Whether the text after a sign is a number, whole or with a decimal point. -/
def isNumber (s : List Char) : Bool :=
  let s := if s.getLast? = some '\n' then s.dropLast else s
  match s.dropWhile isDecimalDigit with
  | [] => !s.isEmpty
  | '.' :: places => !places.isEmpty && places.all isDecimalDigit
  | _ => false

/-- What stands before the first equals sign, and after it. -/
def splitValue (s : String) : String × Option String :=
  match s.toList.dropWhile (· ≠ '=') with
  | [] => (s, none)
  | _ :: attached =>
    (String.ofList (s.toList.takeWhile (· ≠ '=')), some (String.ofList attached))

/-- An argument that begins with a dash, but not with an option. -/
def dashed (s : String) : Argument :=
  if isNumber (s.toList.drop 1) || s.toList.contains ' ' then plain s else unknown s

/-- An argument that begins with two dashes. -/
def ofName (s : String) : Except UsageError Argument :=
  let (name, attached) := splitValue s
  match Opt.ofLongName? name with
  | some o => .ok (option o true attached)
  | none =>
    match Opt.beginningWith name with
    | [] => .ok (dashed s)
    | [o] => .ok (option o true attached)
    | options => .error (.ambiguous s options)

/-- An argument that begins with a dash and a letter, given what is attached to it. -/
def ofLetter (s : String) (letter : Char) (attached : List Char) : Argument :=
  match Opt.ofLetter? letter with
  | none => dashed s
  | some o =>
    match attached with
    | [] => option o false none
    | '=' :: attached => option o false (some (String.ofList attached))
    | attached => option o false (some (String.ofList attached))

/-- Tells an argument apart. -/
def ofString (s : String) : Except UsageError Argument :=
  match s.toList with
  | '-' :: '-' :: _ => ofName s
  | '-' :: letter :: attached => .ok (ofLetter s letter attached)
  | _ => .ok (plain s)

/-- Tells arguments apart. -/
def ofStrings : List String → Except UsageError (List Argument)
  | [] => .ok []
  | s :: later =>
    if s = separatorText then .ok (separator :: later.map plain)
    else do
      let a ← ofString s
      return a :: (← ofStrings later)

end Argument

end Letter
