import Scriptlet.Fault

/-!
# The gaps between tokens

Tokens are set apart by blanks, tabs, carriage returns and line feeds, by line comments, which begin
with two slashes and end before a line feed, and by block comments between `/*` and `*/`. The two
characters that open a block comment take no part in closing it.
-/

namespace Scriptlet

/-- The characters that separate tokens by themselves. -/
def isSpacing (c : Char) : Bool := c = ' ' || c = '\t' || c = '\r' || c = '\n'

/-- What the reader of a gap is inside of. A block comment remembers the place of its opening. -/
inductive Gap where
  | plain
  | lineComment
  | blockComment (opening : Span)
  deriving DecidableEq, Repr

/-- Reads the rest of a gap: the place where it ends and the text from there on. It fails only at the
end of the text inside a block comment. -/
def skipGap : Gap → Position → List Char → Except Failure (Position × List Char)
  | .plain, p, '/' :: '/' :: rest => skipGap .lineComment ((p.next '/').next '/') rest
  | .plain, p, '/' :: '*' :: rest =>
    let inside := (p.next '/').next '*'
    skipGap (.blockComment (Span.between p inside)) inside rest
  | .plain, p, c :: rest =>
    if isSpacing c then skipGap .plain (p.next c) rest else .ok (p, c :: rest)
  | .lineComment, p, c :: rest =>
    skipGap (if c = '\n' then .plain else .lineComment) (p.next c) rest
  | .blockComment _, p, '*' :: '/' :: rest => skipGap .plain ((p.next '*').next '/') rest
  | .blockComment opening, p, c :: rest => skipGap (.blockComment opening) (p.next c) rest
  | .blockComment opening, _, [] => .error (Failure.located opening .unterminatedComment)
  | _, p, [] => .ok (p, [])

end Scriptlet
