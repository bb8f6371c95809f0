import Letter.Text.SnakeCase
import Letter.Tree.Basic

/-!
# The names of writers

A node is written by what is found under a name that is made of its tag: one name where a statement
is expected, and another one where an expression is.  `Kind.statementWriter` and
`Kind.expressionWriter` make these names, and `writers` are those under which there is something.
-/

namespace Letter

/-- The names under which nodes are written. -/
def writers : List String :=
  ["emit_program", "emit_block_statement", "emit_empty_statement", "emit_expression_statement",
   "emit_variable_statement", "emit_variable_declaration", "emit_if_statement", "emit_expr",
   "emit_expr_assignment_expression", "emit_expr_binary_expression",
   "emit_expr_logical_expression", "emit_expr_unary_expression", "emit_expr_member_expression",
   "emit_expr_call_expression", "emit_expr_super", "emit_expr_identifier",
   "emit_expr_numeric_literal", "emit_expr_string_literal", "emit_expr_boolean_literal",
   "emit_expr_null_literal"]

namespace Kind

/-- The name under which nodes of a kind are written where a statement is expected. -/
def statementWriter (kind : Kind) : String :=
  "emit_" ++ String.ofList (snakeCase kind.tag.toList)

/-- The name under which nodes of a kind are written where an expression is expected. -/
def expressionWriter (kind : Kind) : String :=
  "emit_expr_" ++ String.ofList (snakeCase kind.tag.toList)

end Kind

end Letter
