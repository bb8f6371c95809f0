import Letter.Operator
import Letter.Text.Quoted

/-!
# Tokens

A token is a delimiter, a reserved word, an operator, a numeral, a quoted text or a name.
Its *text* is what stands in the source; its *kind* is what the grammar asks for.
-/

namespace Letter

/-- The delimiters. -/
inductive Delimiter where
  | semicolon
  | leftBrace
  | rightBrace
  | leftParen
  | rightParen
  | comma
  | dot
  | leftBracket
  | rightBracket
  deriving DecidableEq, Repr

namespace Delimiter

/-- The delimiters, in the order in which they are tried. -/
def all : List Delimiter :=
  [semicolon, leftBrace, rightBrace, leftParen, rightParen, comma, dot, leftBracket,
   rightBracket]

/-- The character of a delimiter. -/
def char : Delimiter → Char
  | semicolon => ';'
  | leftBrace => '{'
  | rightBrace => '}'
  | leftParen => '('
  | rightParen => ')'
  | comma => ','
  | dot => '.'
  | leftBracket => '['
  | rightBracket => ']'

/-- The name of a delimiter. -/
def name : Delimiter → String
  | semicolon => "SEMICOLON"
  | leftBrace => "LBRACE"
  | rightBrace => "RBRACE"
  | leftParen => "LPAREN"
  | rightParen => "RPAREN"
  | comma => "COMMA"
  | dot => "DOT"
  | leftBracket => "LBRACKET"
  | rightBracket => "RBRACKET"

end Delimiter

/-- The reserved words, those included for which the grammar has no use yet. -/
inductive Keyword where
  | letWord
  | ifWord
  | elseWord
  | trueWord
  | falseWord
  | nullWord
  | whileWord
  | doWord
  | forWord
  | defWord
  | returnWord
  | classWord
  | extendsWord
  | superWord
  | newWord
  | thisWord
  deriving DecidableEq, Repr

namespace Keyword

/-- The reserved words, in the order in which they are tried. -/
def all : List Keyword :=
  [letWord, ifWord, elseWord, trueWord, falseWord, nullWord, whileWord, doWord, forWord,
   defWord, returnWord, classWord, extendsWord, superWord, newWord, thisWord]

/-- The spelling of a reserved word. -/
def text : Keyword → String
  | letWord => "let"
  | ifWord => "if"
  | elseWord => "else"
  | trueWord => "true"
  | falseWord => "false"
  | nullWord => "null"
  | whileWord => "while"
  | doWord => "do"
  | forWord => "for"
  | defWord => "def"
  | returnWord => "return"
  | classWord => "class"
  | extendsWord => "extends"
  | superWord => "super"
  | newWord => "new"
  | thisWord => "this"

/-- The name of a reserved word: its spelling in capitals. -/
def name (k : Keyword) : String := k.text.toUpper

end Keyword

/-- The two characters that enclose a quoted text. -/
inductive Quote where
  | double
  | single
  deriving DecidableEq, Repr

/-- The character of a quote. -/
def Quote.char : Quote → Char
  | double => '"'
  | single => '\''

/-- A token of the source. -/
inductive Token where
  | delimiter (d : Delimiter)
  | keyword (k : Keyword)
  | operator (o : Operator)
  | number (digits : String)
  | string (quote : Quote) (contents : String)
  | identifier (name : String)
  deriving DecidableEq, Repr

/-- What the grammar tells apart about tokens. -/
inductive TokenKind where
  | delimiter (d : Delimiter)
  | keyword (k : Keyword)
  | operators (c : OperatorClass)
  | number
  | string
  | identifier
  deriving DecidableEq, Repr

namespace Token

/-- What stands in the source for a token. -/
def text : Token → String
  | delimiter d => String.singleton d.char
  | keyword k => k.text
  | operator o => o.text
  | number digits => digits
  | string quote contents =>
    String.singleton quote.char ++ contents ++ String.singleton quote.char
  | identifier name => name

/-- The kind of a token. -/
def kind : Token → TokenKind
  | delimiter d => .delimiter d
  | keyword k => .keyword k
  | operator o => .operators o.operatorClass
  | number _ => .number
  | string _ _ => .string
  | identifier _ => .identifier

end Token

namespace TokenKind

/-- All kinds of tokens. -/
def all : List TokenKind :=
  Delimiter.all.map delimiter ++ Keyword.all.map keyword ++ OperatorClass.all.map operators
    ++ [number, string, identifier]

/-- How messages and token lists write a kind: the spelling of its tokens if they have but
one, a name in capitals otherwise. -/
def label : TokenKind → String
  | delimiter d => String.singleton d.char
  | keyword k => k.text
  | operators c => c.name
  | number => "NUMBER"
  | string => "STRING"
  | identifier => "IDENTIFIER"

/-- The name of a kind, always in capitals. -/
def name : TokenKind → String
  | delimiter d => d.name
  | keyword k => k.name
  | kind => kind.label

/-- The kind written by a label. -/
def ofLabel? (s : String) : Option TokenKind := all.find? fun k => k.label == s

/-- Whether the tokens of a kind are expressions of their own. -/
def isLiteral : TokenKind → Bool
  | number | string => true
  | keyword .trueWord | keyword .falseWord | keyword .nullWord => true
  | _ => false

/-- Whether the tokens of a kind are reserved words. -/
def isKeyword : TokenKind → Bool
  | keyword _ => true
  | _ => false

end TokenKind

/-- How a token is shown in a list of tokens. -/
def Token.shown (t : Token) : String :=
  "Token(" ++ t.kind.label ++ ", " ++ quoted t.text ++ ")"

end Letter
