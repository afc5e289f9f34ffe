import Scriptlet.Number.Layout
import Scriptlet.Number.Power

/-!
# Numbers of the language

A number is a double together with the mark whether it was produced as a float. The mark does not
change the value: it spreads through arithmetic and shows in the text, where a float without a
fractional part is written with one place.
-/

namespace Scriptlet

/-- A double, and whether it counts as a float. -/
structure Number where
  value : Double
  isFloat : Bool
  deriving DecidableEq, Inhabited, Repr

namespace Number

/-- An integer. -/
def integer (value : Double) : Number := ⟨value, false⟩

/-- A float. -/
def float (value : Double) : Number := ⟨value, true⟩

/-- The text of a number. A whole float shows its exact digits and one place. -/
def text (n : Number) : String :=
  if n.isFloat && n.value.isWhole then n.value.wholeText else n.value.text

/-- Equality of value and of mark. -/
def equal (a b : Number) : Bool := a.value.equal b.value && a.isFloat == b.isFloat

/-- Turns the sign and keeps the mark. -/
def negate (n : Number) : Number := { n with value := n.value.negate }

end Number

end Scriptlet
