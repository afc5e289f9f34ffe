/-!
# The console

A console hands out prepared lines of input and keeps a log of what happened at it: every text that
was written and every line that was read, in order. It can be told to refuse one of its writes or
reads, counted from one. A refused call leaves no trace in the log and takes no line.
-/

namespace Scriptlet

/-- Something that happened at a console. -/
inductive ConsoleEvent where
  /-- A text was written. -/
  | wrote (text : String)
  /-- A line was read, or the end of input was met. -/
  | read (line : Option String)
  deriving DecidableEq, Inhabited, Repr

/-- The text that an event adds to the output. -/
def ConsoleEvent.text : ConsoleEvent → String
  | .wrote text => text
  | .read _ => ""

/-- The log with its newest event first, the input to come, the number of calls made, and which
calls to refuse. -/
structure Console where
  log : List ConsoleEvent
  input : List String
  writes : Nat
  reads : Nat
  refusedWrite : Option Nat
  refusedRead : Option Nat
  deriving DecidableEq, Inhabited, Repr

namespace Console

/-- A console with lines of input, at which nothing has happened. -/
def start (input : List String) (refusedWrite refusedRead : Option Nat) : Console :=
  ⟨[], input, 0, 0, refusedWrite, refusedRead⟩

/-- A console with lines of input that refuses nothing. -/
def ofLines (input : List String) : Console := start input none none

/-- What happened, in order. -/
def events (console : Console) : List ConsoleEvent := console.log.reverse

/-- Everything that was written. -/
def output (console : Console) : String := String.join (console.events.map ConsoleEvent.text)

/-- The console after one more event. -/
def record (console : Console) (event : ConsoleEvent) : Console :=
  { console with log := event :: console.log }

/-- The console with an empty log. -/
def forget (console : Console) : Console := { console with log := [] }

/-- Writes text, or gives the reason why not. -/
def write (console : Console) (text : String) : Except String Unit × Console :=
  let console := { console with writes := console.writes + 1 }
  if console.refusedWrite = some console.writes then (.error "write refused", console)
  else (.ok (), console.record (.wrote text))

/-- Reads a line, nothing at the end of input, or gives the reason why not. -/
def read (console : Console) : Except String (Option String) × Console :=
  let console := { console with reads := console.reads + 1 }
  if console.refusedRead = some console.reads then (.error "read refused", console)
  else
    match console.input with
    | [] => (.ok none, console.record (.read none))
    | line :: rest => (.ok (some line), { console with input := rest }.record (.read (some line)))

end Console

end Scriptlet
