import Scriptlet.Fault
import Scriptlet.Program
import Scriptlet.Record

/-!
# Values

Numbers, strings, objects and functions. An object is the record of its properties and never changes
once it is made; it carries an identity, so that it can be told apart from an equal object made
elsewhere. A function remembers the scope in which it was declared, and that scope lives in the
store: it is the only part of a value that can change.
-/

namespace Scriptlet

/-- Names a scope of the store. Names are given out in increasing order and never twice. -/
abbrev ScopeId := Nat

/-- A function with the scope it was declared in. -/
structure Function where
  id : Nat
  name : String
  params : List String
  body : Block Stmt
  closure : ScopeId
  deriving Inhabited, Repr

/-- The functions that the console provides. A root scope has one of each, so that they are the same if
they are of the same kind. -/
inductive Native where
  | print
  | println
  | input
  deriving DecidableEq, Inhabited, Repr

/-- The name of a native function. -/
def Native.name : Native → String
  | .print => "print"
  | .println => "println"
  | .input => "in"

/-- Values. -/
inductive Value where
  | null
  | boolean (b : Bool)
  | number (n : Number)
  | text (s : String)
  | object (id : Nat) (fields : List (String × Value))
  | function (f : Function)
  | native (f : Native)
  deriving Inhabited, Repr

namespace Value

/-- The type of a value. -/
def type : Value → ValueType
  | null => .null
  | boolean _ => .boolean
  | number _ => .number
  | text _ => .text
  | object _ _ => .object
  | function _ => .function
  | native _ => .native

/-- Whether a condition with this value holds. -/
def isTruthy : Value → Bool
  | null => false
  | boolean b => b
  | number n => !n.value.isZero
  | text s => !s.isEmpty
  | object .. | function _ | native _ => true

/-- The number that a value is. -/
def number? : Value → Option Number
  | number n => some n
  | _ => none

end Value

end Scriptlet
