/-!
# Places in a source text

A position is what has been read so far: the UTF-8 bytes, and the line and column, counted from one,
of the next character. Only a line feed ends a line, and a column is a character. A span is the
stretch between two positions; it remembers the line and column of its first one.
-/

namespace Scriptlet

/-- A place between two characters of a source. -/
structure Position where
  offset : Nat
  line : Nat
  column : Nat
  deriving DecidableEq, Inhabited, Repr

namespace Position

/-- The place before the first character. -/
def start : Position := ⟨0, 1, 1⟩

/-- The place after one more character. -/
def next (p : Position) (c : Char) : Position :=
  if c = '\n' then ⟨p.offset + c.utf8Size, p.line + 1, 1⟩
  else ⟨p.offset + c.utf8Size, p.line, p.column + 1⟩

/-- The place after a run of characters. -/
def advance (p : Position) (text : List Char) : Position := text.foldl next p

@[simp] theorem advance_nil (p : Position) : p.advance [] = p := rfl

@[simp] theorem advance_cons (p : Position) (c : Char) (text : List Char) :
    p.advance (c :: text) = (p.next c).advance text := rfl

theorem advance_append (p : Position) (first second : List Char) :
    p.advance (first ++ second) = (p.advance first).advance second := by
  simp [advance]

end Position

/-- A stretch of a source: byte offsets of both ends, line and column of the first. -/
structure Span where
  start : Nat
  stop : Nat
  line : Nat
  column : Nat
  deriving DecidableEq, Inhabited, Repr

namespace Span

/-- The stretch between two places. -/
def between (first last : Position) : Span :=
  ⟨first.offset, last.offset, first.line, first.column⟩

/-- The stretch from the beginning of one span to the later of both ends. -/
def join (first last : Span) : Span :=
  { first with stop := max last.stop first.stop }

end Span

end Scriptlet
