/-!
# Outlines

A listing shows a structure as named records, wrapped items and lists. An `Outline` is such a
structure without its layout; it is written on one line, or with every part on a line of its own,
indented by four blanks for each level.
-/

namespace Scriptlet

/-- A structure to be listed. -/
inductive Outline where
  /-- Something without parts. -/
  | atom (text : String)
  /-- A name with named parts. -/
  | record (name : String) (fields : List (String × Outline))
  /-- A name around one part. -/
  | wrapped (name : String) (part : Outline)
  /-- Parts in brackets. -/
  | list (parts : List Outline)
  deriving Inhabited

namespace Outline

/-- Something that may be missing. -/
def optional : Option Outline → Outline
  | none => atom "None"
  | some part => wrapped "Some" part

/-! ## On one line -/

mutual

/-- An outline on one line. -/
def inline : Outline → String
  | .atom text => text
  | .record name fields => name ++ " \x7b " ++ ", ".intercalate (inlineFields fields) ++ " \x7d"
  | .wrapped name part => name ++ "(" ++ inline part ++ ")"
  | .list parts => "[" ++ ", ".intercalate (inlineParts parts) ++ "]"

/-- Named parts on one line. -/
def inlineFields : List (String × Outline) → List String
  | [] => []
  | (name, part) :: rest => (name ++ ": " ++ inline part) :: inlineFields rest

/-- Parts on one line. -/
def inlineParts : List Outline → List String
  | [] => []
  | part :: rest => inline part :: inlineParts rest

end

/-! ## One part a line -/

/-- Text after the blanks of a depth of indentation. -/
def shifted (depth : Nat) (text : String) : String :=
  String.ofList (List.replicate (4 * depth) ' ') ++ text

/-- A line at a depth of indentation, with its ending. -/
def line (depth : Nat) (text : String) : String := shifted depth text ++ "\n"

mutual

/-- An outline over several lines, at a depth of indentation. The first line is not indented and the
last not ended: they stand in lines of the caller. -/
def spread (depth : Nat) : Outline → String
  | .atom text => text
  | .record name fields => name ++ " \x7b\n" ++ spreadFields (depth + 1) fields ++ shifted depth "\x7d"
  | .wrapped name part =>
    name ++ "(\n" ++ line (depth + 1) (spread (depth + 1) part ++ ",") ++ shifted depth ")"
  | .list [] => "[]"
  | .list parts => "[\n" ++ spreadParts (depth + 1) parts ++ shifted depth "]"

/-- Named parts on lines of their own. -/
def spreadFields (depth : Nat) : List (String × Outline) → String
  | [] => ""
  | (name, part) :: rest =>
    line depth (name ++ ": " ++ spread depth part ++ ",") ++ spreadFields depth rest

/-- Parts on lines of their own. -/
def spreadParts (depth : Nat) : List Outline → String
  | [] => ""
  | part :: rest => line depth (spread depth part ++ ",") ++ spreadParts depth rest

end

/-- An outline with every part on a line of its own. -/
def indented : Outline → String := spread 0

end Outline

end Scriptlet
