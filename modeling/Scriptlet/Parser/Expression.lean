import Scriptlet.Parser
import Scriptlet.Program

/-!
# Reading expressions

From loosest to tightest the levels are: assignment, object literal, logical, prefix, comparison,
additive, multiplicative, power, call and member, primary. Binary operators, calls and members group
to the left, assignments to the right, and a prefix operator takes a whole comparison as its operand.

Each level is given the parser `inner` of the expressions nested in brackets or on the right of an
assignment. `expression` ties the knot; its depth counts how far expressions may nest, and a
token is taken on the way into every nested one.
-/

namespace Scriptlet.Parser

/-! ## Primary expressions -/

/-- The number that a token reads. -/
def numberLiteral (token : Token) : Parser Expr :=
  match Double.ofLexeme? token.lexeme.toList with
  | some value => return .number ⟨value, token.kind = .float⟩ token.span
  | none => throw (Failure.located token.span (.invalidNumber token.lexeme))

/-- A name, a literal, or an expression in parentheses. -/
def primary (inner : Parser Expr) : Parser Expr := do
  let token ← peek
  match token.kind with
  | .identifier => let _ ← advance; return .identifier token.lexeme token.span
  | .text => let _ ← advance; return .text token.lexeme token.span
  | .null => let _ ← advance; return .null token.span
  | .integer | .float =>
    let literal ← numberLiteral token
    let _ ← advance
    return literal
  | .openParen =>
    let _ ← advance
    let expr ← inner
    let _ ← expect .closeParen .groupClose
    return expr
  | _ => unexpected

/-! ## Calls and members -/

/-- Expressions between commas, up to a closing parenthesis. -/
def arguments (inner : Parser Expr) : Parser (List Expr) := do
  if (← peek).kind = .closeParen then return [] else separated inner

/-- Applies an expression to what follows it: arguments, a member name or a computed member. -/
def suffix (inner : Parser Expr) (expr : Expr) : Parser (Option Expr) := do
  if ← accept .openParen then
    let args ← arguments inner
    let close ← expect .closeParen .argumentsClose
    return some (.call expr args (expr.span.join close.span))
  else if ← accept .dot then
    let name ← expect .identifier .memberName
    return some (.member expr (.identifier name.lexeme name.span) false (expr.span.join name.span))
  else if ← accept .openBracket then
    let property ← inner
    let close ← expect .closeBracket .elementClose
    return some (.member expr property true (expr.span.join close.span))
  else
    return none

/-- A primary expression with all that is applied to it. -/
def callOrMember (inner : Parser Expr) : Parser Expr := do
  grow (suffix inner) (← primary inner)

/-! ## Operators -/

/-- Continues a binary expression with one more operator of the level and its right operand. -/
def binaryStep (accepts : Token → Bool) (operand : Parser Expr) (left : Expr) :
    Parser (Option Expr) := do
  let token ← peek
  if accepts token then
    let _ ← advance
    match BinaryOp.ofLexeme? token.lexeme with
    | none => throw (Failure.located token.span (.unexpectedToken token.lexeme))
    | some op =>
      let right ← operand
      return some (.binary left op right (left.span.join right.span))
  else
    return none

/-- A level of binary operators that group to the left. -/
def binaryLevel (accepts : Token → Bool) (operand : Parser Expr) : Parser Expr := do
  grow (binaryStep accepts operand) (← operand)

/-- The operators of the power level. -/
def isPower (token : Token) : Bool := token.kind = .operator && token.lexeme = "^"

/-- The operators of the multiplicative level. -/
def isMultiplicative (token : Token) : Bool :=
  token.kind = .operator && (token.lexeme = "*" || token.lexeme = "/" || token.lexeme = "%")

/-- The operators of the additive level. A sign is known by its text, whatever its kind. -/
def isAdditive (token : Token) : Bool :=
  (token.kind = .operator || token.kind = .unaryPlus || token.kind = .unaryMinus) &&
    (token.lexeme = "+" || token.lexeme = "-")

/-- Powers. -/
def power (inner : Parser Expr) : Parser Expr := binaryLevel isPower (callOrMember inner)

/-- Products, quotients and remainders. -/
def multiplicative (inner : Parser Expr) : Parser Expr := binaryLevel isMultiplicative (power inner)

/-- Sums and differences. -/
def additive (inner : Parser Expr) : Parser Expr := binaryLevel isAdditive (multiplicative inner)

/-- Comparisons. -/
def comparison (inner : Parser Expr) : Parser Expr :=
  binaryLevel (·.kind.isComparison) (additive inner)

/-- The prefix operator that a kind of token is. -/
def unaryOp? : TokenKind → Option UnaryOp
  | .notWord => some .not
  | .unaryPlus => some .plus
  | .unaryMinus => some .minus
  | _ => none

/-- At most one prefix operator, in front of a whole comparison. -/
def unary (inner : Parser Expr) : Parser Expr := do
  match unaryOp? (← peek).kind with
  | none => comparison inner
  | some op =>
    let sign ← advance
    let operand ← comparison inner
    return .unary op operand (sign.span.join operand.span)

/-- The logical operator that a kind of token is. -/
def logicalOp? : TokenKind → Option LogicalOp
  | .andWord => some .and
  | .orWord => some .or
  | _ => none

/-- Continues a logical expression with one more operator and its right operand. -/
def logicalStep (inner : Parser Expr) (left : Expr) : Parser (Option Expr) := do
  match logicalOp? (← peek).kind with
  | none => return none
  | some op =>
    let _ ← advance
    let right ← unary inner
    return some (.logical left op right (left.span.join right.span))

/-- Conjunctions and disjunctions, which bind alike. -/
def logical (inner : Parser Expr) : Parser Expr := do
  grow (logicalStep inner) (← unary inner)

/-! ## Object literals and assignments -/

/-- One property, and the comma that separates it from the next. -/
def property (inner : Parser Expr) : Parser (String × Option Expr) := do
  let key ← expect .identifier .propertyKey
  let value ← if ← accept .colon then some <$> inner else pure none
  if (← peek).kind ≠ .closeBrace then
    let _ ← expect .comma .propertySeparator
  return (key.lexeme, value)

/-- An object literal, or an expression of the logical level. -/
def objectOrLogical (inner : Parser Expr) : Parser Expr := do
  if (← peek).kind = .openBrace then
    let first ← advance
    let properties ← upTo .closeBrace (property inner)
    let close ← expect .closeBrace .objectClose
    return .object properties (first.span.join close.span)
  else
    logical inner

/-- An assignment, or the expression that would be its target. -/
def assignment (inner : Parser Expr) : Parser Expr := do
  let target ← objectOrLogical inner
  if ← accept .equals then
    let value ← inner
    return .assignment target value (target.span.join value.span)
  else
    return target

/-- An expression in which others nest less deep than `depth`. -/
def expression : Nat → Parser Expr
  | 0 => unexpected
  | depth + 1 => fun stream => assignment (expression depth) stream

end Scriptlet.Parser
