/-!
# Double precision numbers, counted in units

The smallest positive double is `2 ^ -1074`, and every finite double is a whole number of these
*units*. A finite double is therefore kept as a sign and a count of units, and sums, products,
quotients, remainders and comparisons are exact arithmetic on whole numbers. The only place that
knows how many bits a double has is `Double.round`, which takes an exact quotient of units to the
nearest double.

On this scale a double is a whole number exactly when `Double.scale` divides its units, and a
remainder of doubles is a remainder of units.
-/

namespace Scriptlet

/-- A double precision number. A finite one is `± units * 2 ^ -1074`; zero has both signs. -/
inductive Double where
  | nan
  | infinite (negative : Bool)
  | finite (negative : Bool) (units : Nat)
  deriving DecidableEq, Inhabited, Repr

namespace Double

/-- The number of units in one. -/
def scale : Nat := 1 <<< 1074

/-- The first power of two that is too large to be a double, in units. -/
def bound : Nat := 1 <<< 2098

/-- A power of ten. -/
def tenTo (exponent : Nat) : Nat := Nat.pow 10 exponent

/-! ## Rounding -/

/-- The whole number nearest to `num / den`; a half goes to the even neighbour. -/
def nearest (num den : Nat) : Nat :=
  let quotient := num / den
  let twice := 2 * (num % den)
  if twice < den ∨ (twice = den ∧ quotient % 2 = 0) then quotient else quotient + 1

/-- The spacing of the doubles near a count of units is `2 ^ grain`: 53 bits are kept. -/
def grain (units : Nat) : Nat := units.log2 - 52

/-- The count of units, on the grid of the doubles, nearest to `num / den`. -/
def roundUnits (num den : Nat) : Nat :=
  let bits := grain (num / den)
  nearest num (den <<< bits) <<< bits

/-- The double nearest to `± num / den` units, infinite from `bound` on. -/
def round (negative : Bool) (num den : Nat) : Double :=
  let units := roundUnits num den
  if units < bound then .finite negative units else .infinite negative

/-! ## Views -/

/-- A count of units with its sign. -/
def signed (negative : Bool) (units : Nat) : Int :=
  if negative then -(units : Int) else units

/-- Where a double lies on the line of units: the infinities lie beyond all finite doubles, and
not-a-number lies nowhere. -/
def position? : Double → Option Int
  | .nan => none
  | .infinite negative => some (signed negative bound)
  | .finite negative units => some (signed negative units)

/-- The whole number that a nonnegative count of units stands for. -/
def whole? (units : Nat) : Option Nat :=
  if units % scale = 0 then some (units / scale) else none

/-- Neither infinite nor not-a-number. -/
def isFinite : Double → Bool
  | .finite .. => true
  | _ => false

/-- A finite double without a fractional part. -/
def isWhole : Double → Bool
  | .finite _ units => (whole? units).isSome
  | _ => false

/-- Zero of either sign. -/
def isZero : Double → Bool
  | .finite _ 0 => true
  | _ => false

/-- Less than zero. -/
def isBelowZero (x : Double) : Bool := x.position?.any (· < 0)

/-! ## Comparison

Not-a-number is unordered and differs from itself; the two zeros are equal. -/

/-- Compares the places of two doubles; false if one of them has none. -/
def compareWith (holds : Int → Int → Bool) (x y : Double) : Bool :=
  match x.position?, y.position? with
  | some a, some b => holds a b
  | _, _ => false

/-- Numeric equality. -/
def equal : Double → Double → Bool := compareWith (· == ·)

/-- Numeric order. -/
def less : Double → Double → Bool := compareWith (· < ·)

/-- Numeric order or equality. -/
def lessOrEqual : Double → Double → Bool := compareWith (· ≤ ·)

/-! ## Arithmetic -/

/-- The double nearest to a whole number. -/
def ofNat (n : Nat) : Double := round false (n * scale) 1

/-- Turns the sign, also of zero. -/
def negate : Double → Double
  | .nan => .nan
  | .infinite negative => .infinite !negative
  | .finite negative units => .finite (!negative) units

/-- The rounded sum. An exact zero is negative only if both terms are. -/
def add : Double → Double → Double
  | .nan, _ => .nan
  | _, .nan => .nan
  | .infinite s, .infinite t => if s = t then .infinite s else .nan
  | .infinite s, .finite .. => .infinite s
  | .finite .., .infinite t => .infinite t
  | .finite s m, .finite t n =>
    let sum := signed s m + signed t n
    if sum = 0 then .finite (s && t) 0 else round (decide (sum < 0)) sum.natAbs 1

/-- The rounded difference. -/
def subtract (x y : Double) : Double := add x y.negate

/-- The rounded product. -/
def multiply : Double → Double → Double
  | .nan, _ => .nan
  | _, .nan => .nan
  | .infinite s, .infinite t => .infinite (s != t)
  | .infinite s, .finite t n => if n = 0 then .nan else .infinite (s != t)
  | .finite s m, .infinite t => if m = 0 then .nan else .infinite (s != t)
  | .finite s m, .finite t n => round (s != t) (m * n) scale

/-- The rounded quotient. -/
def divide : Double → Double → Double
  | .nan, _ => .nan
  | _, .nan => .nan
  | .infinite _, .infinite _ => .nan
  | .infinite s, .finite t _ => .infinite (s != t)
  | .finite s _, .infinite t => .finite (s != t) 0
  | .finite s m, .finite t n =>
    if n = 0 then if m = 0 then .nan else .infinite (s != t)
    else round (s != t) (m * scale) n

/-- The exact remainder of the quotient cut towards zero; it has the sign of the dividend. -/
def remainder : Double → Double → Double
  | .finite s m, .finite _ n => if n = 0 then .nan else .finite s (m % n)
  | .finite s m, .infinite _ => .finite s m
  | _, _ => .nan

/-- The remainder of the floored quotient: a nonzero result takes the sign of the divisor. -/
def modulo (x y : Double) : Double :=
  let rest := remainder x y
  if !rest.isZero && rest.isBelowZero != y.isBelowZero then add rest y else rest

end Double

end Scriptlet
