import Scriptlet.Number.Double

/-!
# Shortest decimal digits

The reals that round to one double form an interval around it, which holds its ends exactly when
the double is the even one among its neighbours. The shortest decimal is the point of that interval
on the coarsest decimal grid that meets it, and of two such points the nearer one; an exact tie
goes up. All comparisons are between whole numbers.
-/

namespace Scriptlet

/-- The decimal number `digits * 10 ^ exponent`. -/
structure Decimal where
  digits : Nat
  exponent : Int
  deriving DecidableEq, Inhabited, Repr

namespace Double

/-- The reals that round to a positive double, with ends in half units. -/
structure Interval where
  low : Nat
  high : Nat
  closed : Bool
  deriving DecidableEq, Repr

/-- The interval around a count of units. Below a power of two the neighbour is half as far away,
unless the units themselves are the grid. -/
def roundingInterval (units : Nat) : Interval :=
  let bits := grain units
  let below := if units = 1 <<< units.log2 ∧ 0 < bits then 1 <<< (bits - 1) else 1 <<< bits
  { low := 2 * units - below
    high := 2 * units + 1 <<< bits
    closed := (units >>> bits) % 2 = 0 }

/-- Whether `num / den` half units lie in the interval. -/
def Interval.holds (interval : Interval) (num den : Nat) : Bool :=
  if interval.closed then interval.low * den ≤ num && num ≤ interval.high * den
  else interval.low * den < num && num < interval.high * den

/-- The multiple of `10 ^ exponent` that represents a count of units on that grid, if one does:
of its two neighbours on the grid one that lies in the interval, the nearer if both do. -/
def gridPoint? (units : Nat) (exponent : Int) : Option Nat :=
  let interval := roundingInterval units
  let den := tenTo (-exponent).toNat
  let step := tenTo exponent.toNat * (2 * scale)
  let value := 2 * units * den
  let lower := value / step
  let rest := value % step
  if interval.holds (lower * step) den then
    if interval.holds ((lower + 1) * step) den && step ≤ 2 * rest then some (lower + 1)
    else some lower
  else if interval.holds ((lower + 1) * step) den then some (lower + 1)
  else none

/-- Tries ever finer grids. Seventeen digits always suffice, so with `steps` grids that start above
the value the last line is never reached. -/
def searchGrids (units : Nat) : Nat → Int → Decimal
  | 0, exponent => ⟨2 * units * tenTo (-exponent).toNat / (tenTo exponent.toNat * (2 * scale)), exponent⟩
  | steps + 1, exponent =>
    match gridPoint? units exponent with
    | some digits => ⟨digits, exponent⟩
    | none => searchGrids units steps (exponent - 1)

/-- The shortest decimal that rounds to a positive count of units. The first grid is coarser than
the value: `10 ^ k` has at least `3 * k` bits, and `2 ^ 1024` has 309 digits. -/
def shortest (units : Nat) : Decimal :=
  let bits : Int := units.log2 - 1074
  searchGrids units 24 (Int.fdiv (bits * 30103) 100000 + 2)

end Double

end Scriptlet
