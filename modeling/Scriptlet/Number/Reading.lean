import Scriptlet.Number.Double

/-!
# Reading a double from text

A numeral is an optional sign and then either one of the words `inf`, `infinity` and `nan`, in any
case, or decimal digits with at most one point among them and an optional exponent. There is at
least one digit before the exponent. The value is the double nearest to the decimal number that is
written, so no digit is ever lost on the way.
-/

namespace Scriptlet

/-- Splits off the decimal digits at the start. -/
def splitDigits (text : List Char) : List Char × List Char :=
  (text.takeWhile Char.isDigit, text.dropWhile Char.isDigit)

/-- The number that decimal digits write. -/
def digitsValue (digits : List Char) : Nat :=
  digits.foldl (fun value c => 10 * value + (c.toNat - '0'.toNat)) 0

namespace Double

/-- The double nearest to `± digits * 10 ^ exponent`. Exponents far outside the range of doubles
are decided by the count of digits alone. -/
def ofDecimal (negative : Bool) (digits : List Char) (exponent : Int) : Double :=
  let digits := digits.dropWhile (· = '0')
  let size := digits.length + exponent
  if digits.isEmpty || size < -400 then .finite negative 0
  else if 400 < size then .infinite negative
  else round negative (digitsValue digits * tenTo exponent.toNat * scale) (tenTo (-exponent).toNat)

/-- Reads an optional sign. -/
def readSign : List Char → Bool × List Char
  | '-' :: rest => (true, rest)
  | '+' :: rest => (false, rest)
  | text => (false, text)

/-- Reads the rest of a numeral after its digits: nothing, or an exponent. -/
def readExponent? : List Char → Option Int
  | [] => some 0
  | c :: text =>
    if c = 'e' ∨ c = 'E' then
      let (negative, digits) := readSign text
      if digits.isEmpty || !digits.all Char.isDigit then none
      else
        let value : Int := digitsValue digits
        some (if negative then -value else value)
    else none

/-- Reads digits, an optional point with more digits, and an optional exponent. -/
def readDecimal? (negative : Bool) (text : List Char) : Option Double :=
  let (whole, rest) := splitDigits text
  let (fraction, rest) :=
    match rest with
    | '.' :: rest => splitDigits rest
    | _ => ([], rest)
  if whole.isEmpty && fraction.isEmpty then none
  else (readExponent? rest).map fun exponent =>
    ofDecimal negative (whole ++ fraction) (exponent - fraction.length)

/-- Reads a numeral. -/
def ofText? (text : List Char) : Option Double :=
  let (negative, rest) := readSign text
  let word := String.ofList (rest.map Char.toLower)
  if word = "inf" ∨ word = "infinity" then some (.infinite negative)
  else if word = "nan" then some .nan
  else readDecimal? negative rest

/-- Reads a numeral after which one more point may stand. -/
def ofLexeme? (text : List Char) : Option Double :=
  ofText? (if text.getLast? = some '.' then text.dropLast else text)

end Double

end Scriptlet
