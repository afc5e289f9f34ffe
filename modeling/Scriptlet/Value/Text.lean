import Scriptlet.Text.Quoted
import Scriptlet.Value

/-!
# The text of a value

What a program prints. A string is its own text, but stands in quotes, as it is, inside an object.
`Value.inspect` shows more of a simple value: the kind of a number, and the quotes of a string with
escapes inside.
-/

namespace Scriptlet.Value

mutual

/-- The text of a value. -/
def display : Value → String
  | null => "null"
  | boolean b => toString b
  | number n => n.text
  | text s => s
  | object _ [] => "\x7b\x7d"
  | object _ fields => "\x7b " ++ ", ".intercalate (displayFields fields) ++ " \x7d"
  | function f => "<fn " ++ f.name ++ ">"
  | native f => "<native fn " ++ f.name ++ ">"

/-- The text of a value inside an object. -/
def displayInside : Value → String
  | text s => "\"" ++ s ++ "\""
  | value => display value

/-- The texts of properties. -/
def displayFields : List (String × Value) → List String
  | [] => []
  | (key, value) :: rest => (key ++ ": " ++ displayInside value) :: displayFields rest

end

/-- The text of a value for inspection. -/
def inspect : Value → String
  | text s => Quoted.encode s
  | number n => (if n.isFloat then "Float(" else "Int(") ++ n.text ++ ")"
  | value => value.display

end Scriptlet.Value
