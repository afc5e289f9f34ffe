import Scriptlet.Outline
import Scriptlet.Program
import Scriptlet.Text.Quoted
import Scriptlet.Token

/-!
# Listings of tokens and programs

Tokens are listed one a line, programs as indented trees. Text stands in quotes, and a number keeps
a point or an exponent.
-/

namespace Scriptlet

namespace Outline

/-- A text in quotes. -/
def quoted (text : String) : Outline := atom (Quoted.encode text)

/-- A number without a sign or point. -/
def nat (n : Nat) : Outline := atom (toString n)

/-- A truth value. -/
def bool (b : Bool) : Outline := atom (toString b)

end Outline

/-- A span with its four numbers. -/
def Span.outline (span : Span) : Outline :=
  .record "Span" [("start", .nat span.start), ("end", .nat span.stop), ("line", .nat span.line),
    ("column", .nat span.column)]

/-- A token with its parts. -/
def Token.outline (token : Token) : Outline :=
  .record "Token" [("kind", .atom token.kind.label), ("span", token.span.outline),
    ("lexeme", .quoted token.lexeme)]

/-- One token on one line. -/
def Token.listing (token : Token) : String := token.outline.inline

mutual

/-- An expression with its parts. -/
def Expr.outline : Expr → Outline
  | .identifier name span =>
    .record "Identifier" [("name", .quoted name), ("span", span.outline)]
  | .number value span =>
    .record "NumericLiteral" [("value", .atom value.value.literalText),
      ("is_float", .bool value.isFloat), ("span", span.outline)]
  | .text value span =>
    .record "StringLiteral" [("value", .quoted value), ("span", span.outline)]
  | .null span => .record "NullLiteral" [("span", span.outline)]
  | .object properties span =>
    .record "ObjectLiteral" [("properties", .list (propertyOutlines properties)),
      ("span", span.outline)]
  | .assignment target value span =>
    .record "Assignment" [("target", target.outline), ("value", value.outline),
      ("span", span.outline)]
  | .binary left op right span =>
    .record "Binary" [("left", left.outline), ("op", .atom op.label), ("right", right.outline),
      ("span", span.outline)]
  | .unary op operand span =>
    .record "Unary" [("op", .atom op.label), ("operand", operand.outline), ("span", span.outline)]
  | .logical left op right span =>
    .record "Logical" [("left", left.outline), ("op", .atom op.label), ("right", right.outline),
      ("span", span.outline)]
  | .member object property computed span =>
    .record "Member" [("object", object.outline), ("property", property.outline),
      ("computed", .bool computed), ("span", span.outline)]
  | .call callee args span =>
    .record "Call" [("callee", callee.outline), ("args", .list (argumentOutlines args)),
      ("span", span.outline)]

/-- Properties with their parts. -/
def propertyOutlines : List (String × Option Expr) → List Outline
  | [] => []
  | (key, none) :: rest =>
    .record "Property" [("key", .quoted key), ("value", .optional none)] :: propertyOutlines rest
  | (key, some value) :: rest =>
    .record "Property" [("key", .quoted key), ("value", .optional (some value.outline))] ::
      propertyOutlines rest

/-- Arguments with their parts. -/
def argumentOutlines : List Expr → List Outline
  | [] => []
  | arg :: rest => arg.outline :: argumentOutlines rest

end

/-- A declared variable with its parts. -/
def Declarator.outline (declarator : Declarator) : Outline :=
  .record "Declarator" [("name", .quoted declarator.name),
    ("init", .optional (declarator.init.map Expr.outline)), ("span", declarator.span.outline)]

mutual

/-- A statement with its parts. -/
def Stmt.outline : Stmt → Outline
  | .declaration declarators word constant span =>
    .record "VariableDeclaration" [("declarations", .list (declarators.map Declarator.outline)),
      ("kind", .atom word.label), ("constant", .bool constant), ("span", span.outline)]
  | .function name params body span =>
    .record "FunctionDeclaration" [("name", .quoted name), ("params", .list (params.map .quoted)),
      ("body", blockOutline body), ("span", span.outline)]
  | .conditional condition consequent none span =>
    .record "If" [("condition", condition.outline), ("consequent", blockOutline consequent),
      ("alternate", .optional none), ("span", span.outline)]
  | .conditional condition consequent (some alternate) span =>
    .record "If" [("condition", condition.outline), ("consequent", blockOutline consequent),
      ("alternate", .optional (some alternate.outline)), ("span", span.outline)]
  | .loop condition body span =>
    .record "While" [("condition", condition.outline), ("body", blockOutline body),
      ("span", span.outline)]
  | .block block => .wrapped "Block" (blockOutline block)
  | .expression expr => .record "Expression" [("expr", expr.outline)]

/-- A body with its parts. -/
def blockOutline : Block Stmt → Outline
  | ⟨body, span⟩ => .record "Block" [("body", .list (stmtOutlines body)), ("span", span.outline)]

/-- Statements with their parts. -/
def stmtOutlines : List Stmt → List Outline
  | [] => []
  | stmt :: rest => stmt.outline :: stmtOutlines rest

end

/-- The indented tree of a program. -/
def Program.listing (program : Program) : String :=
  (Outline.record "Program" [("body", .list (stmtOutlines program))]).indented

end Scriptlet
