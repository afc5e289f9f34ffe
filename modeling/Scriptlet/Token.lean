import Scriptlet.Span

/-!
# Tokens

A token is a kind, its place in the source and its text. The text of a string token is what stands
between the quotes; every other token's text is the source under its span.
-/

namespace Scriptlet

/-- The kinds of tokens. -/
inductive TokenKind where
  | integer
  | float
  | text
  | null
  | identifier
  | varWord
  | declareWord
  | constWord
  | defWord
  | ifWord
  | elseWord
  | whileWord
  | andWord
  | orWord
  | notWord
  | unaryPlus
  | unaryMinus
  | operator
  | equals
  | doubleEquals
  | notEquals
  | less
  | lessOrEqual
  | greater
  | greaterOrEqual
  | comma
  | dot
  | colon
  | semicolon
  | openParen
  | closeParen
  | openBrace
  | closeBrace
  | openBracket
  | closeBracket
  | endOfInput
  deriving DecidableEq, Inhabited, Repr

namespace TokenKind

/-- Every kind, in the order of declaration. -/
def all : List TokenKind :=
  [integer, float, text, null, identifier, varWord, declareWord, constWord, defWord, ifWord,
   elseWord, whileWord, andWord, orWord, notWord, unaryPlus, unaryMinus, operator, equals,
   doubleEquals, notEquals, less, lessOrEqual, greater, greaterOrEqual, comma, dot, colon,
   semicolon, openParen, closeParen, openBrace, closeBrace, openBracket, closeBracket, endOfInput]

/-- The comparison signs. -/
def isComparison : TokenKind → Bool
  | doubleEquals | notEquals | less | lessOrEqual | greater | greaterOrEqual => true
  | _ => false

/-- How messages name a token that has no text of its own. -/
def display : TokenKind → String
  | integer => "integer"
  | float => "float"
  | text => "string"
  | null => "null"
  | identifier => "identifier"
  | varWord => "var"
  | declareWord => "declare"
  | constWord => "const"
  | defWord => "def"
  | ifWord => "if"
  | elseWord => "else"
  | whileWord => "while"
  | andWord => "and"
  | orWord => "or"
  | notWord => "not"
  | unaryPlus => "unary +"
  | unaryMinus => "unary -"
  | operator => "operator"
  | equals => "="
  | doubleEquals => "=="
  | notEquals => "!="
  | less => "<"
  | lessOrEqual => "<="
  | greater => ">"
  | greaterOrEqual => ">="
  | comma => ","
  | dot => "."
  | colon => ":"
  | semicolon => ";"
  | openParen => "("
  | closeParen => ")"
  | openBrace => "\x7b"
  | closeBrace => "\x7d"
  | openBracket => "["
  | closeBracket => "]"
  | endOfInput => "end of input"

/-- The label of a kind in listings of tokens. -/
def label : TokenKind → String
  | integer => "Int"
  | float => "Float"
  | text => "String"
  | null => "Null"
  | identifier => "Identifier"
  | varWord => "Var"
  | declareWord => "Declare"
  | constWord => "Const"
  | defWord => "Def"
  | ifWord => "If"
  | elseWord => "Else"
  | whileWord => "While"
  | andWord => "And"
  | orWord => "Or"
  | notWord => "Not"
  | unaryPlus => "UnaryPlus"
  | unaryMinus => "UnaryMinus"
  | operator => "BinaryOperator"
  | equals => "Equals"
  | doubleEquals => "DoubleEquals"
  | notEquals => "NotEquals"
  | less => "LessThan"
  | lessOrEqual => "LessThanOrEquals"
  | greater => "GreaterThan"
  | greaterOrEqual => "GreaterThanOrEquals"
  | comma => "Comma"
  | dot => "Dot"
  | colon => "Colon"
  | semicolon => "Semicolon"
  | openParen => "OpenParen"
  | closeParen => "CloseParen"
  | openBrace => "OpenBrace"
  | closeBrace => "CloseBrace"
  | openBracket => "OpenBracket"
  | closeBracket => "CloseBracket"
  | endOfInput => "Eof"

/-- The kind with a label. -/
def ofLabel? (label : String) : Option TokenKind := all.find? (·.label = label)

/-- The kind of a reserved word. -/
def keyword? : String → Option TokenKind
  | "var" => some varWord
  | "declare" => some declareWord
  | "const" => some constWord
  | "def" => some defWord
  | "null" => some null
  | "and" => some andWord
  | "or" => some orWord
  | "not" => some notWord
  | "if" => some ifWord
  | "else" => some elseWord
  | "while" => some whileWord
  | _ => none

end TokenKind

/-- A token: what it is, where it stands and what it reads. -/
structure Token where
  kind : TokenKind
  span : Span
  lexeme : String
  deriving DecidableEq, Inhabited, Repr

/-- How messages name a token: by its text or, if that is empty, by its kind. -/
def Token.describe (token : Token) : String :=
  if token.lexeme.isEmpty then token.kind.display else token.lexeme

end Scriptlet
