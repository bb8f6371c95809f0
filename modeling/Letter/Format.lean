import Letter.Grammar.Statement
import Letter.Tree.Buffer
import Letter.Tree.Interchange

/-!
# Output formats

A program is written as JSON, which shows its tree, or as source text in its standard
form.  JSON stands on one line or is indented, by blanks or by a text; a margin of one level
has to be made of the blanks, even where no line needs it.
-/

namespace Letter

/-- The formats in which a program is written. -/
inductive Format where
  | json
  | source
  deriving DecidableEq, Repr

namespace Format

/-- The name of a format. -/
def name : Format → String
  | json => "json"
  | source => "source"

/-- All formats. -/
def all : List Format := [json, source]

/-- The format of a given name. -/
def ofName? (s : String) : Option Format := all.find? fun f => f.name == s

end Format

/-- How JSON is indented. -/
inductive Indentation where
  /-- All stands on one line. -/
  | oneLine
  /-- Each item stands on a line of its own, with so many blanks for each level. -/
  | blanks (n : Int)
  /-- Each item stands on a line of its own, with a text for each level. -/
  | text (step : String)
  /-- What is given for the number of blanks is neither an integer nor a text. -/
  | notInteger (typeName : String)
  deriving DecidableEq, Repr

/-- Where the items stand, if there is a margin of one level. -/
def Indentation.spacing? (room : Room) : Indentation → Except MarginError Json.Spacing
  | oneLine => .ok .oneLine
  | blanks n => (marginWidth room 1 n).map fun width => .lines (Letter.blanks width)
  | text step => .ok (.lines step)
  | notInteger typeName => .error (.notInteger typeName)

/-- Why a program is not written. -/
inductive FormatError where
  /-- No format has the name. -/
  | unknownFormat (name : String)
  /-- The program has no source text. -/
  | layout (e : LayoutError)
  /-- JSON cannot be indented as asked for. -/
  | indentation (e : MarginError)
  deriving DecidableEq, Repr

/-- The text of an error. -/
def FormatError.message : FormatError → String
  | unknownFormat name => "Unknown output format: " ++ name
  | layout e => e.message
  | indentation e => e.message

namespace Program

/-- The JSON text of a program. -/
def json (p : Program) (spacing : Json.Spacing) (coding : Coding := .plain) : String :=
  p.toTree.toJson.render spacing coding

/-- The text of a program in the format of a given name, given the room for a margin and how the
texts in the program are read. -/
def render (p : Program) (format : String) (indentation : Indentation)
    (room : Room := .unbounded) (coding : Coding := .plain) : Except FormatError String :=
  match Format.ofName? format with
  | some .json =>
    ((indentation.spacing? room).mapError .indentation).map fun spacing => p.json spacing coding
  | some .source => p.format.mapError .layout
  | none => .error (.unknownFormat format)

end Program

end Letter
