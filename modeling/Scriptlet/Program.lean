import Scriptlet.Number
import Scriptlet.Program.Operator
import Scriptlet.Span

/-!
# Programs

The syntax trees of the language. Every expression knows its span; the span of a block is that of
its opening brace, and the span of a statement that of its first word. Grouping parentheses leave no
trace.

The types admit more than the parser builds: an alternate of a conditional is a block or another
conditional, and blocks stand nowhere else.
-/

namespace Scriptlet

/-- Expressions. Each has exactly one value. -/
inductive Expr where
  /-- A variable. -/
  | identifier (name : String) (span : Span)
  /-- A number literal. -/
  | number (value : Number) (span : Span)
  /-- A string literal. -/
  | text (value : String) (span : Span)
  /-- The value `null`. -/
  | null (span : Span)
  /-- An object literal; a key without an expression reads the variable of that name. -/
  | object (properties : List (String × Option Expr)) (span : Span)
  /-- An assignment. Any target can be written; only a variable can be assigned. -/
  | assignment (target value : Expr) (span : Span)
  /-- Arithmetic or a comparison. -/
  | binary (left : Expr) (op : BinaryOp) (right : Expr) (span : Span)
  /-- A sign or a negation. -/
  | unary (op : UnaryOp) (operand : Expr) (span : Span)
  /-- A conjunction or disjunction. -/
  | logical (left : Expr) (op : LogicalOp) (right : Expr) (span : Span)
  /-- A member, by name or, if computed, by the value of an expression. -/
  | member (object property : Expr) (computed : Bool) (span : Span)
  /-- A call. -/
  | call (callee : Expr) (args : List Expr) (span : Span)
  deriving Inhabited, Repr

/-- The place of an expression. -/
def Expr.span : Expr → Span
  | .identifier _ span | .number _ span | .text _ span | .null span | .object _ span
  | .assignment _ _ span | .binary _ _ _ span | .unary _ _ span | .logical _ _ _ span
  | .member _ _ _ span | .call _ _ span => span

/-- The two words that declare variables. They mean the same. -/
inductive DeclarationWord where
  | var
  | declare
  deriving DecidableEq, Inhabited, Repr

/-- The written form. -/
def DeclarationWord.lexeme : DeclarationWord → String
  | .var => "var"
  | .declare => "declare"

/-- The label in listings. -/
def DeclarationWord.label : DeclarationWord → String
  | .var => "Var"
  | .declare => "Declare"

/-- One variable of a declaration, with its first value. -/
structure Declarator where
  name : String
  init : Option Expr
  span : Span
  deriving Inhabited, Repr

/-- A body in braces. It opens no scope of its own. -/
structure Block (Statement : Type) where
  body : List Statement
  span : Span
  deriving Inhabited, Repr

/-- Statements. -/
inductive Stmt where
  /-- A declaration of variables or, if marked so, of constants. -/
  | declaration (declarators : List Declarator) (word : DeclarationWord) (constant : Bool)
    (span : Span)
  /-- A declaration of a function. -/
  | function (name : String) (params : List String) (body : Block Stmt) (span : Span)
  /-- A choice between two bodies. -/
  | conditional (condition : Expr) (consequent : Block Stmt) (alternate : Option Stmt)
    (span : Span)
  /-- A loop that tests before each round. -/
  | loop (condition : Expr) (body : Block Stmt) (span : Span)
  /-- A body on its own, as the alternate of a conditional. -/
  | block (block : Block Stmt)
  /-- An expression, evaluated for its value or its effect. -/
  | expression (expr : Expr)
  deriving Inhabited, Repr

/-- A program is a list of statements. -/
abbrev Program := List Stmt

end Scriptlet
