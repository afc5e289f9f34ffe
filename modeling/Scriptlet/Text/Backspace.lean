import Scriptlet.Text.Cluster

/-!
# Backspaces

A line that comes from a pipe may hold the backspaces of the one who typed it. Each takes back the
cluster before it, and those before that once it is gone; at the beginning of the line it does
nothing. How much there is to take back is noted when a cluster is typed, in a single byte: of a
cluster of 256 bytes or more, only what exceeds a multiple of 256 is taken back.
-/

namespace Scriptlet

/-- The backspace. -/
def backspace : Char := '\x08'

/-- The number of bytes of a text. -/
def byteCount : List Char → Nat
  | [] => 0
  | c :: rest => c.utf8Size + byteCount rest

/-- A line in the making, last things first: its characters, and the noted size of each cluster that
can be taken back. -/
structure Draft where
  kept : List Char
  sizes : List Nat

namespace Draft

/-- Nothing is typed. -/
def empty : Draft := ⟨[], []⟩

/-- Removes whole characters from the front while they fit into a number of bytes. -/
def dropBytes : Nat → List Char → List Char
  | _, [] => []
  | n, c :: rest => if c.utf8Size ≤ n then dropBytes (n - c.utf8Size) rest else c :: rest

/-- Takes the last cluster back. -/
def takeBack (draft : Draft) : Draft :=
  match draft.sizes with
  | [] => draft
  | size :: rest => ⟨dropBytes size draft.kept, rest⟩

/-- Types a cluster. -/
def press (draft : Draft) (cluster : List Char) : Draft :=
  if cluster = [backspace] then draft.takeBack
  else ⟨cluster.reverse ++ draft.kept, byteCount cluster % 256 :: draft.sizes⟩

end Draft

/-- The line that is left when its backspaces have done their work. -/
def applyBackspaces (line : String) : String :=
  String.ofList ((clusters line.toList).foldl Draft.press Draft.empty).kept.reverse

end Scriptlet
