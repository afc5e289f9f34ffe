import Scriptlet.Value.Equality
import Scriptlet.Value.Text

/-!
# Operations on values

Arithmetic and comparisons are between numbers; with any other operand they yield null. A result is
a float if an operand is, and besides if it is a quotient, or a power with a negative exponent. Only
a zero divisor is an error. The prefix operators and member access insist on the types they need.
-/

namespace Scriptlet.Value

/-- A number with the mark of a float or an integer. -/
def ofDouble (value : Double) (isFloat : Bool) : Value := number ⟨value, isFloat⟩

/-- A binary operator between two numbers. -/
def arithmetic (op : BinaryOp) (a b : Number) : Except Fault Value :=
  let isFloat := a.isFloat || b.isFloat
  match op with
  | .add => .ok (ofDouble (a.value.add b.value) isFloat)
  | .subtract => .ok (ofDouble (a.value.subtract b.value) isFloat)
  | .multiply => .ok (ofDouble (a.value.multiply b.value) isFloat)
  | .divide =>
    if b.value.isZero then .error .divisionByZero
    else .ok (ofDouble (a.value.divide b.value) true)
  | .modulo =>
    if b.value.isZero then .error .divisionByZero
    else .ok (ofDouble (a.value.modulo b.value) isFloat)
  | .power => .ok (ofDouble (a.value.power b.value) (isFloat || b.value.isBelowZero))
  | .equal => .ok (boolean (a.value.equal b.value))
  | .notEqual => .ok (boolean (!a.value.equal b.value))
  | .less => .ok (boolean (a.value.less b.value))
  | .lessOrEqual => .ok (boolean (a.value.lessOrEqual b.value))
  | .greater => .ok (boolean (b.value.less a.value))
  | .greaterOrEqual => .ok (boolean (b.value.lessOrEqual a.value))

/-- A binary operator between two values. -/
def binary (op : BinaryOp) (left right : Value) : Except Fault Value :=
  match left.number?, right.number? with
  | some a, some b => arithmetic op a b
  | _, _ => .ok null

/-- A prefix operator. -/
def unary : UnaryOp → Value → Except Fault Value
  | .plus, number n => .ok (number n)
  | .minus, number n => .ok (number n.negate)
  | .not, boolean b => .ok (boolean !b)
  | .not, value => .error (.typeMismatch [.boolean] value.type)
  | _, value => .error (.typeMismatch [.number] value.type)

/-- A logical operator. A conjunction yields the left operand if both are equal and false otherwise;
a disjunction yields true if the left operand is true and the right operand otherwise. -/
def logical : LogicalOp → Value → Value → Value
  | .and, left, right => if left.equal right then left else boolean false
  | .or, boolean true, _ => boolean true
  | .or, _, right => right

/-- The key that a computed member asks for. -/
def memberKey : Value → Except Fault String
  | text s => .ok s
  | number n => .ok n.text
  | value => .error (.typeMismatch [.text, .number] value.type)

/-- The member of an object under a key. -/
def member (value : Value) (key : String) : Except Fault Value :=
  match value with
  | object _ fields =>
    match Record.get? fields key with
    | some member => .ok member
    | none => .error (.memberNotFound key .object)
  | _ => .error (.memberNotFound key value.type)

end Scriptlet.Value
