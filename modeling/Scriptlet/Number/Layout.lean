import Scriptlet.Number.Shortest
import Scriptlet.Number.Reading

/-!
# Writing a double

Two layouts write the same shortest digits. `Double.text` is always positional and writes a whole
number without a point. `Double.literalText` keeps a point in every number, so that the text shows
that it is a double, and turns to an exponent for large and small numbers.
-/

namespace Scriptlet

namespace Decimal

/-- A run of zeros. -/
def zeros (count : Nat) : String := String.ofList (List.replicate count '0')

/-- Digits with the point at its place. A whole number has none. -/
def positional (d : Decimal) : String :=
  let digits := toString d.digits
  if 0 ≤ d.exponent then digits ++ zeros d.exponent.toNat
  else
    let places := (-d.exponent).toNat
    if places < digits.length then
      let whole := digits.length - places
      String.ofList (digits.toList.take whole) ++ "." ++ String.ofList (digits.toList.drop whole)
    else "0." ++ zeros (places - digits.length) ++ digits

/-- One digit before the point, and the power of ten. -/
def scientific (d : Decimal) : String :=
  match (toString d.digits).toList with
  | [] => ""
  | first :: rest =>
    let fraction := if rest.isEmpty then "" else "." ++ String.ofList rest
    first.toString ++ fraction ++ "e" ++ toString (d.exponent + rest.length)

end Decimal

namespace Double

/-- Writes a double around the text of its magnitude. Not-a-number has no sign. -/
def textWith (magnitude : Nat → String) : Double → String
  | .nan => "NaN"
  | .infinite negative => if negative then "-inf" else "inf"
  | .finite negative units => if negative then "-" ++ magnitude units else magnitude units

/-- The shortest digits, never with an exponent. -/
def text : Double → String :=
  textWith fun units => if units = 0 then "0" else (shortest units).positional

/-- From here on a literal is written with an exponent. -/
def literalUpper : Double := ofDecimal false ['1'] 16

/-- Below this a literal is written with an exponent. -/
def literalLower : Double := ofDecimal false ['1'] (-4)

/-- The shortest digits with a point or an exponent. -/
def literalText : Double → String :=
  textWith fun units =>
    let size := Double.finite false units
    let shortest := shortest units
    if units = 0 then "0.0"
    else if size.less literalLower || literalUpper.lessOrEqual size then shortest.scientific
    else if size.isWhole then shortest.positional ++ ".0"
    else shortest.positional

/-- All digits of a whole number, followed by one place. -/
def wholeText : Double → String :=
  textWith fun units => toString (units / scale) ++ ".0"

end Double

end Scriptlet
