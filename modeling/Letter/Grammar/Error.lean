import Letter.Token.Scanner

/-!
# Errors of the grammar

The grammar reads a text up to the first token that does not fit.  An error says what was
found there and what was expected.
-/

namespace Letter

/-- Why a text is not read by the grammar. -/
inductive SyntaxError where
  /-- No lexical rule applies. -/
  | stuck (e : Stuck)
  /-- The text ends where a token is expected. -/
  | missingToken (expected : TokenKind)
  /-- A token of another kind is expected. -/
  | unexpectedToken (found : Token) (expected : TokenKind)
  /-- The text ends where an operand is expected. -/
  | missingOperand
  /-- A token that begins no operand stands where one is expected. -/
  | unexpectedOperand (found : Token)
  /-- A value is assigned to something that is neither a variable nor a member. -/
  | invalidTarget
  /-- A literal of a kind that has none is asked for. -/
  | notLiteral
  /-- A numeral has more digits than are read. -/
  | numeralTooLong (digits : Nat)
  deriving DecidableEq, Repr

/-- The text of an error. -/
def SyntaxError.message : SyntaxError → String
  | stuck e => e.message
  | missingToken expected =>
    "Unexpected end of input, expected \"" ++ expected.label ++ "\""
  | unexpectedToken found expected =>
    "Unexpected token: \"" ++ found.text ++ "\", expected \"" ++ expected.label ++ "\""
  | missingOperand => "Unexpected end of input, expected primary expression"
  | unexpectedOperand found =>
    "Unexpected primary expression: \"" ++ found.text ++ "\""
  | invalidTarget => "Invalid left-hand side in assignment expression"
  | notLiteral => "Literal: unexpected literal production"
  | numeralTooLong digits =>
    "Exceeds the limit (" ++ toString maxDigits
      ++ " digits) for integer string conversion: value has " ++ toString digits
      ++ " digits; use sys.set_int_max_str_digits() to increase the limit"

end Letter
