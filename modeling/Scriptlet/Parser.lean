import Scriptlet.Fault
import Scriptlet.Token

/-!
# Reading tokens

A parser takes tokens from the front of a stream. The stream ends at the first token that marks the
end of input: that token can be looked at but never taken, and tokens behind it do not exist.

Repetition is bounded by a number of tokens that the stream never exceeds. Every round takes a token,
so the bound is never felt; it only makes the parsers total.
-/

namespace Scriptlet

/-- The tokens ahead, the token that ends the input, and a bound on the number of tokens. -/
structure Stream where
  ahead : List Token
  last : Token
  bound : Nat
  fits : ahead.length ≤ bound
  deriving DecidableEq, Repr

namespace Stream

instance : Inhabited Stream := ⟨⟨[], default, 0, Nat.le_refl 0⟩⟩

/-- The stream of a list of tokens, up to the first end of input. A list without one ends
after its tokens. -/
def ofTokens (tokens : List Token) : Stream :=
  let isEnd (token : Token) : Bool := token.kind = .endOfInput
  let ahead := tokens.takeWhile (!isEnd ·)
  let last := (tokens.find? isEnd).getD ⟨.endOfInput, ⟨0, 0, 1, 1⟩, ""⟩
  ⟨ahead, last, ahead.length, Nat.le_refl _⟩

/-- The next token. -/
def peek (stream : Stream) : Token := stream.ahead.headD stream.last

/-- The stream after the next token, if that is not the end. -/
def advance (stream : Stream) : Stream :=
  { stream with
    ahead := stream.ahead.tail
    fits := Nat.le_trans (by simp) stream.fits }

end Stream

/-- Readers of a stream. -/
abbrev Parser := StateT Stream (Except Failure)

namespace Parser

/-- The next token, which stays ahead. -/
def peek : Parser Token := return (← get).peek

/-- Takes the next token. -/
def advance : Parser Token := fun stream => .ok (stream.peek, stream.advance)

/-- Fails at the next token, naming it. -/
def unexpected {α : Type} : Parser α := fun stream =>
  .error (Failure.located stream.peek.span (.unexpectedToken stream.peek.describe))

/-- Fails because another token was required here. -/
def expected {α : Type} (what : Expectation) : Parser α := fun stream =>
  .error (Failure.located stream.peek.span (.expectedToken what stream.peek.describe))

/-- Takes the next token if it is of a kind. -/
def accept (kind : TokenKind) : Parser Bool := do
  if (← peek).kind = kind then
    let _ ← advance
    return true
  else
    return false

/-- Takes the next token, which has to be of a kind. -/
def expect (kind : TokenKind) (what : Expectation) : Parser Token := do
  if (← peek).kind = kind then advance else expected what

/-! ## Repetition -/

/-- Collects what a step yields until it yields nothing, at most `rounds` times. -/
def collect {α : Type} (step : Parser (Option α)) : Nat → Parser (List α)
  | 0 => return []
  | rounds + 1 => do
    match ← step with
    | none => return []
    | some a => return a :: (← collect step rounds)

/-- Collects what a step yields until it yields nothing. -/
def many {α : Type} (step : Parser (Option α)) : Parser (List α) := do
  collect step (← get).bound

/-- Extends a result until the step leaves it, at most `rounds` times. -/
def growBy {α : Type} (step : α → Parser (Option α)) : Nat → α → Parser α
  | 0, a => return a
  | rounds + 1, a => do
    match ← step a with
    | none => return a
    | some a => growBy step rounds a

/-- Extends a result until the step leaves it. -/
def grow {α : Type} (step : α → Parser (Option α)) (a : α) : Parser α := do
  growBy step (← get).bound a

/-- One item, and more as long as commas follow. -/
def separated {α : Type} (item : Parser α) : Parser (List α) := do
  let first ← item
  let others ← many do
    if ← accept .comma then return some (← item) else return none
  return first :: others

/-- Items up to a closing token, which stays ahead, or to the end of input. -/
def upTo {α : Type} (close : TokenKind) (item : Parser α) : Parser (List α) :=
  many do
    let kind := (← peek).kind
    if kind = close ∨ kind = .endOfInput then return none else return some (← item)

end Parser

end Scriptlet
