import Scriptlet.Text.Ranges

/-!
# White space

The Unicode property *White_Space*, and the removal of such characters around a text.
-/

namespace Scriptlet

/-- The characters with the property, as inclusive ranges. -/
def whiteSpaceRanges : List (Nat × Nat) :=
  [(0x09, 0x0d), (0x20, 0x20), (0x85, 0x85), (0xa0, 0xa0), (0x1680, 0x1680), (0x2000, 0x200a),
   (0x2028, 0x2029), (0x202f, 0x202f), (0x205f, 0x205f), (0x3000, 0x3000)]

/-- Whether a character is white space. -/
def isWhiteSpace (c : Char) : Bool := inRanges whiteSpaceRanges c

/-- Removes white space at both ends. -/
def trim (text : String) : String :=
  let tail := text.toList.dropWhile isWhiteSpace
  String.ofList (tail.reverse.dropWhile isWhiteSpace).reverse

end Scriptlet
