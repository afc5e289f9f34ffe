import Scriptlet.Value

/-!
# Equality of values

Data is equal if it has the same parts: numbers of the same value and kind, strings of the same
characters, objects with the same keys and equal values under each, in any order. An object is equal
to itself whatever it holds. Functions are equal only to themselves.
-/

namespace Scriptlet.Value

mutual

/-- Equality of values. -/
def equal : Value → Value → Bool
  | null, null => true
  | boolean a, boolean b => a == b
  | number a, number b => a.equal b
  | text a, text b => a == b
  | object i xs, object j ys => i == j || (xs.length == ys.length && containedIn ys xs)
  | function f, function g => f.id == g.id
  | native f, native g => f == g
  | _, _ => false

/-- Whether each of the properties has an equal one of the same key among the others. -/
def containedIn (others : List (String × Value)) : List (String × Value) → Bool
  | [] => true
  | (key, value) :: rest =>
    (match Record.get? others key with
      | some other => equal value other
      | none => false) &&
    containedIn others rest

end

end Scriptlet.Value
