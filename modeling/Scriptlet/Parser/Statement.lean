import Scriptlet.Parser.Expression
import Scriptlet.Token.Scan

/-!
# Reading programs

A program is a list of statements. Semicolons may stand before, between and after statements, in any
number; where the text of a statement ends they are not needed.

As with expressions, each form of statement is given the parser `inner` of the statements nested in
it, and `statement` ties the knot.
-/

namespace Scriptlet.Parser

/-- Takes the semicolons ahead. -/
def skipSemicolons : Parser Unit := do
  let _ ← many do
    if ← accept .semicolon then return some () else return none

/-- Statements up to a closing token, which stays ahead, or to the end of input. -/
def statements (close : TokenKind) (inner : Parser Stmt) : Parser (List Stmt) := do
  skipSemicolons
  upTo close do
    let stmt ← inner
    skipSemicolons
    return stmt

/-- A body in braces. The requirements name the braces in messages. -/
def block (opening closing : Expectation) (inner : Parser Stmt) : Parser (Block Stmt) := do
  let brace ← expect .openBrace opening
  let body ← statements .closeBrace inner
  let _ ← expect .closeBrace closing
  return ⟨body, brace.span⟩

/-! ## Declarations -/

/-- One variable and its first value, which a constant must have. -/
def declarator (constant : Bool) (expr : Parser Expr) : Parser Declarator := do
  let name ← expect .identifier .variableName
  if ← accept .equals then
    return ⟨name.lexeme, some (← expr), name.span⟩
  else if constant then
    throw (Failure.located name.span (.constWithoutInitializer name.lexeme))
  else
    return ⟨name.lexeme, none, name.span⟩

/-- The word that declares. -/
def declarationWord : Parser DeclarationWord := do
  if ← accept .varWord then return .var
  else if ← accept .declareWord then return .declare
  else expected .declarationKeyword

/-- A declaration of variables or constants. -/
def declaration (expr : Parser Expr) : Parser Stmt := do
  let first ← peek
  let constant ← accept .constWord
  let word ← declarationWord
  let declarators ← separated (declarator constant expr)
  return .declaration declarators word constant first.span

/-- The name that an expression consists of. -/
def parameter : Expr → Parser String
  | .identifier name _ => return name
  | expr => throw (Failure.located expr.span .invalidParameter)

/-- A declaration of a function. Parameters are read like arguments and checked after the closing
parenthesis. -/
def function (expr : Parser Expr) (inner : Parser Stmt) : Parser Stmt := do
  let first ← advance
  let name ← expect .identifier .functionName
  let _ ← expect .openParen .parametersOpen
  let args ← arguments expr
  let _ ← expect .closeParen .parametersClose
  let params ← args.mapM parameter
  let body ← block .functionBodyOpen .functionBodyClose inner
  return .function name.lexeme params body first.span

/-! ## Control flow -/

/-- What follows a first body: nothing, another conditional, or a last body. -/
def alternate (inner : Parser Stmt) : Parser (Option Stmt) := do
  if ← accept .elseWord then
    if (← peek).kind = .ifWord then some <$> inner
    else return some (.block (← block .alternateOpen .alternateClose inner))
  else
    return none

/-- A conditional. -/
def conditional (expr : Parser Expr) (inner : Parser Stmt) : Parser Stmt := do
  let first ← advance
  let condition ← expr
  let consequent ← block .consequentOpen .consequentClose inner
  return .conditional condition consequent (← alternate inner) first.span

/-- A loop. -/
def loop (expr : Parser Expr) (inner : Parser Stmt) : Parser Stmt := do
  let first ← advance
  let condition ← expr
  let body ← block .loopBodyOpen .loopBodyClose inner
  return .loop condition body first.span

/-- A statement in which others nest less deep than `depth`. -/
def statement (expr : Parser Expr) : Nat → Parser Stmt
  | 0 => unexpected
  | depth + 1 => do
    match (← peek).kind with
    | .ifWord => conditional expr (statement expr depth)
    | .whileWord => loop expr (statement expr depth)
    | .varWord | .declareWord | .constWord => declaration expr
    | .defWord => function expr (statement expr depth)
    | _ => .expression <$> expr

/-- All statements of a stream. No part of it nests deeper than it has tokens. -/
def program : Parser Program := do
  let depth := (← get).bound + 1
  statements .endOfInput (statement (expression depth) depth)

end Scriptlet.Parser

namespace Scriptlet

/-- The program that a list of tokens writes. -/
def parseTokens (tokens : List Token) : Except Failure Program :=
  (Parser.program (Stream.ofTokens tokens)).map Prod.fst

/-- The program that a source writes. -/
def parse (source : String) : Except Failure Program := tokenize source >>= parseTokens

end Scriptlet
