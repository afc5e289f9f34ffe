/-!
# Character ranges

A class of characters is given by a list of inclusive ranges of code points.
-/

namespace Scriptlet

/-- Whether a character lies in one of the ranges. -/
def inRanges (ranges : List (Nat × Nat)) (c : Char) : Bool :=
  ranges.any fun range => range.1 ≤ c.toNat && c.toNat ≤ range.2

end Scriptlet
