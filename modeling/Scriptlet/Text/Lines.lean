/-!
# Lines

A line ends at a line feed, and a carriage return right before the line feed belongs to the ending.
Text after the last line feed is a line of its own unless it is empty, and keeps a final carriage
return. Lines are counted in the same way in a source that is quoted and in console input.
-/

namespace Scriptlet

/-- Removes a carriage return from the front of a reversed line. -/
def dropReturn : List Char → List Char
  | '\r' :: rest => rest
  | line => line

/-- The lines of a text whose first line has begun; what is read of it stands in reverse. -/
def linesFrom (begun : List Char) : List Char → List (List Char)
  | [] => if begun.isEmpty then [] else [begun.reverse]
  | c :: rest =>
    if c = '\n' then (dropReturn begun).reverse :: linesFrom [] rest
    else linesFrom (c :: begun) rest

/-- The lines of a text without their endings. -/
def textLines (text : String) : List String :=
  (linesFrom [] text.toList).map String.ofList

end Scriptlet
