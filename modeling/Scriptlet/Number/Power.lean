import Scriptlet.Number.Double

/-!
# Powers

Powers with an operand that is zero, one, infinite or not-a-number follow fixed rules. A whole number
raised to a positive whole exponent is computed exactly, and if the exact power fits into 53 bits it
is the result. Every other power is left to the platform's `Float.pow`, reached through the 64-bit
interchange format; where both operands are whole the platform's answer is taken only if it is itself
whole or not finite, so a power of whole numbers never gains a fractional part.
-/

namespace Scriptlet

namespace Double

/-! ## The interchange format -/

/-- The sign field of a 64-bit word. -/
def signField (negative : Bool) : UInt64 := if negative then 0x8000000000000000 else 0

/-- The sign, exponent and fraction fields of a double, as one 64-bit word. -/
def toBits : Double → UInt64
  | .nan => 0x7ff8000000000000
  | .infinite negative => signField negative ||| 0x7ff0000000000000
  | .finite negative units =>
    let bits := grain units
    signField negative ||| UInt64.ofNat ((bits <<< 52) + (units >>> bits))

/-- The number of values of the fraction field. -/
def fractionCount : Nat := 1 <<< 52

/-- Reads the three fields of a 64-bit word. -/
def ofBits (word : UInt64) : Double :=
  let negative := word.toNat >>> 63 = 1
  let exponent := (word.toNat >>> 52) % 2048
  let fraction := word.toNat % fractionCount
  if exponent = 2047 then if fraction = 0 then .infinite negative else .nan
  else if exponent = 0 then .finite negative fraction
  else .finite negative ((fractionCount + fraction) <<< (exponent - 1))

/-- The platform's power function. -/
def platformPower (x y : Double) : Double :=
  ofBits (Float.pow (Float.ofBits x.toBits) (Float.ofBits y.toBits)).toBits

/-! ## Exact powers of whole numbers -/

/-- Whether a count of units is an odd whole number. -/
def isOdd (units : Nat) : Bool := (whole? units).any (· % 2 = 1)

/-- The units of `base ^ exponent` for a base above one, or nothing if that is too large for a
double. -/
def wholePower? (base exponent : Nat) : Option Nat :=
  if 1024 ≤ base.log2 * exponent then none else some (Nat.pow base exponent * scale)

/-- The power of a whole number above one, of either sign, to a whole exponent. What is assumed of the
platform is that such a power is whole or not finite, and then its answer is never rounded. -/
def powerOfWhole (sign : Bool) (base exponent : Nat) (platform : Double) : Double :=
  match wholePower? base exponent with
  | none => .infinite sign
  | some units =>
    let rounded := round sign units 1
    if rounded = .finite sign units then rounded
    else if platform.isFinite && !platform.isWhole then rounded
    else platform

/-! ## All powers -/

/-- The size of `x ^ y` for an infinite `y`, by how the size of `x` compares to one. -/
def limitPower (units : Nat) (negative : Bool) : Double :=
  if units = scale then .finite false scale
  else if decide (units < scale) = negative then .infinite false
  else .finite false 0

/-- The power of a finite number to a finite exponent other than zero. -/
def finitePower (s : Bool) (m : Nat) (t : Bool) (n : Nat) : Double :=
  let sign := s && isOdd n
  let platform := platformPower (.finite s m) (.finite t n)
  if m = 0 then if t then .infinite sign else .finite sign 0
  else if m = scale && (whole? n).isSome then .finite sign scale
  else
    match whole? m, whole? n with
    | some base, some exponent => if t then platform else powerOfWhole sign base exponent platform
    | _, _ => platform

/-- The first operand raised to the second. -/
def power (x y : Double) : Double :=
  if y.isZero || x.equal (.finite false scale) then .finite false scale
  else
    match x, y with
    | .nan, _ | _, .nan => .nan
    | .infinite _, .infinite t => if t then .finite false 0 else .infinite false
    | .infinite s, .finite t n =>
      let sign := s && isOdd n
      if t then .finite sign 0 else .infinite sign
    | .finite _ m, .infinite t => limitPower m t
    | .finite s m, .finite t n => finitePower s m t n

end Double

end Scriptlet
