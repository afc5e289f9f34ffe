/-!
# Operators

The operators of the language with their written forms and the labels they carry in listings of
syntax trees.
-/

namespace Scriptlet

/-- Operators between two numbers. -/
inductive BinaryOp where
  | add
  | subtract
  | multiply
  | divide
  | modulo
  | power
  | equal
  | notEqual
  | less
  | lessOrEqual
  | greater
  | greaterOrEqual
  deriving DecidableEq, Inhabited, Repr

namespace BinaryOp

/-- The written form. -/
def lexeme : BinaryOp → String
  | add => "+"
  | subtract => "-"
  | multiply => "*"
  | divide => "/"
  | modulo => "%"
  | power => "^"
  | equal => "=="
  | notEqual => "!="
  | less => "<"
  | lessOrEqual => "<="
  | greater => ">"
  | greaterOrEqual => ">="

/-- The label in listings. -/
def label : BinaryOp → String
  | add => "Add"
  | subtract => "Sub"
  | multiply => "Mul"
  | divide => "Div"
  | modulo => "Mod"
  | power => "Pow"
  | equal => "Eq"
  | notEqual => "Ne"
  | less => "Lt"
  | lessOrEqual => "Le"
  | greater => "Gt"
  | greaterOrEqual => "Ge"

/-- The operator with a written form. -/
def ofLexeme? : String → Option BinaryOp
  | "+" => some add
  | "-" => some subtract
  | "*" => some multiply
  | "/" => some divide
  | "%" => some modulo
  | "^" => some power
  | "==" => some equal
  | "!=" => some notEqual
  | "<" => some less
  | "<=" => some lessOrEqual
  | ">" => some greater
  | ">=" => some greaterOrEqual
  | _ => none

theorem ofLexeme?_lexeme (op : BinaryOp) : ofLexeme? op.lexeme = some op := by
  cases op <;> rfl

theorem lexeme_of_ofLexeme? {text : String} {op : BinaryOp} (h : ofLexeme? text = some op) :
    op.lexeme = text := by
  unfold ofLexeme? at h
  split at h <;> simp at h <;> subst h <;> rfl

end BinaryOp

/-- Operators in front of one operand. -/
inductive UnaryOp where
  | plus
  | minus
  | not
  deriving DecidableEq, Inhabited, Repr

/-- The written form. -/
def UnaryOp.lexeme : UnaryOp → String
  | .plus => "+"
  | .minus => "-"
  | .not => "not"

/-- The label in listings. -/
def UnaryOp.label : UnaryOp → String
  | .plus => "Plus"
  | .minus => "Neg"
  | .not => "Not"

/-- Operators between two values of any type. -/
inductive LogicalOp where
  | and
  | or
  deriving DecidableEq, Inhabited, Repr

/-- The written form. -/
def LogicalOp.lexeme : LogicalOp → String
  | .and => "and"
  | .or => "or"

/-- The label in listings. -/
def LogicalOp.label : LogicalOp → String
  | .and => "And"
  | .or => "Or"

end Scriptlet
