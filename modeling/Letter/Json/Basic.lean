import Letter.Json.Scalar

/-!
# JSON values

Values of the interchange form, with the members of an object in order.  `Json.render`
writes a value on one line, or with each item on a line of its own.  Its texts are read as a
coding says.
-/

namespace Letter

/-- A JSON value. -/
inductive Json where
  | scalar (v : Scalar)
  | list (items : List Json)
  | object (members : List (String × Json))

namespace Json

/-- The word for the type of a value. -/
def typeName : Json → String
  | scalar v => v.typeName
  | list _ => "list"
  | object _ => "dict"

mutual

/-- The literal form of a value. -/
def literal : Json → String
  | scalar v => v.literal
  | list items => bracketed (literals items)
  | object members => "\x7b" ++ ", ".intercalate (memberLiterals members) ++ "\x7d"

/-- The literal forms of values. -/
def literals : List Json → List String
  | [] => []
  | v :: later => literal v :: literals later

/-- The literal forms of members. -/
def memberLiterals : List (String × Json) → List String
  | [] => []
  | (name, v) :: later => (quoted name ++ ": " ++ literal v) :: memberLiterals later

end

/-- Where the items of a value stand: all on one line, or each on a line of its own, behind a
text that is repeated for each value around it. -/
inductive Spacing where
  | oneLine
  | lines (step : String)
  deriving DecidableEq, Repr

namespace Spacing

/-- What stands before an item inside `depth` values, before the end of the last. -/
def lineBreak (spacing : Spacing) (depth : Nat) : String :=
  match spacing with
  | .oneLine => ""
  | .lines step => String.ofList ('\n' :: (List.replicate depth step.toList).flatten)

/-- What separates two items. -/
def separator (spacing : Spacing) (depth : Nat) : String :=
  match spacing with
  | .oneLine => ", "
  | .lines _ => "," ++ spacing.lineBreak depth

/-- Items inside `depth` values between an opening and a closing bracket. -/
def enclose (spacing : Spacing) (depth : Nat) (opening closing : String) :
    List String → String
  | [] => opening ++ closing
  | items =>
    opening ++ spacing.lineBreak (depth + 1)
      ++ (spacing.separator (depth + 1)).intercalate items
      ++ spacing.lineBreak depth ++ closing

end Spacing

mutual

/-- A value written inside `depth` others. -/
def renderAt (coding : Coding) (spacing : Spacing) (depth : Nat) : Json → String
  | scalar v => v.json coding
  | list items => spacing.enclose depth "[" "]" (renderItems coding spacing (depth + 1) items)
  | object members =>
    spacing.enclose depth "\x7b" "\x7d" (renderMembers coding spacing (depth + 1) members)

/-- The items of a list written inside `depth` values. -/
def renderItems (coding : Coding) (spacing : Spacing) (depth : Nat) : List Json → List String
  | [] => []
  | v :: later => renderAt coding spacing depth v :: renderItems coding spacing depth later

/-- The members of an object written inside `depth` values. -/
def renderMembers (coding : Coding) (spacing : Spacing) (depth : Nat) :
    List (String × Json) → List String
  | [] => []
  | (name, v) :: later =>
    (Scalar.jsonText coding name ++ ": " ++ renderAt coding spacing depth v)
      :: renderMembers coding spacing depth later

end

/-- The text of a value. -/
def render (v : Json) (spacing : Spacing) (coding : Coding := .plain) : String :=
  renderAt coding spacing 0 v

end Json

end Letter
