import Scriptlet.Evaluation
import Scriptlet.Parser.Statement

/-!
# Running a source

A source is split into tokens, parsed and then executed in a root scope of its own, which holds the
truth values and the console as constants. At the end the root scope is given up and everything that
became unreachable is collected.
-/

namespace Scriptlet

/-- How deep calls of declared functions may nest. -/
def defaultDepthLimit : Nat := 256

/-- More steps than any program takes that ends. -/
def ampleSteps : Nat := 1000000000000000000

namespace Machine

/-- A machine before it has run anything. -/
def start (console : Console) (limit : Nat) : Machine := ⟨Heap.empty, [], console, 0, limit⟩

end Machine

namespace Eval

/-- The console as programs see it: an object with the two writers and the reader. -/
def consoleObject : Eval Value := do
  let out := Value.object (← freshId)
    [("print", .native .print), ("println", .native .println)]
  return .object (← freshId) [("out", out), ("in", .native .input)]

/-- A new root scope. -/
def rootScope : Eval ScopeId := do
  let root ← openScope none
  declare root "true" (.boolean true) true
  declare root "false" (.boolean false) true
  declare root "con" (← consoleObject) true
  return root

end Eval

namespace Machine

/-- Gives up a root scope and collects what became unreachable, while some values are held on to. -/
def releaseRoot (machine : Machine) (root : ScopeId) (held : List Value) : Machine :=
  let owners := held.map .value ++ machine.owners
  { machine with heap := (machine.heap.release owners [] root).collect owners [] }

end Machine

/-- Runs a program in a new root scope and gives that up. -/
def runProgram (steps : Nat) (program : Program) : Eval Value := fun machine =>
  match Eval.rootScope machine with
  | .error halt machine => .error halt machine
  | .ok root machine =>
    match Eval.holding [.scope root] (Eval.program steps program root) machine with
    | .ok value machine => .ok value (machine.releaseRoot root [value])
    | .error halt machine => .error halt (machine.releaseRoot root [])

/-- Runs a source. A source that is not a program fails before anything is executed. -/
def runSource (steps : Nat) (source : String) : Eval Value := fun machine =>
  match parse source with
  | .ok program => runProgram steps program machine
  | .error failure => .error (.failure failure) machine

/-- How a run ended: with a value or not, and the console afterwards. -/
structure Outcome where
  result : Except Halt Value
  console : Console
  deriving Inhabited

/-- Runs a source with a console, with a bound on the steps and a limit to the depth of calls. -/
def runWithin (steps limit : Nat) (source : String) (console : Console) : Outcome :=
  match runSource steps source (Machine.start console limit) with
  | .ok value machine => ⟨.ok value, machine.console⟩
  | .error halt machine => ⟨.error halt, machine.console⟩

/-- Runs a source with a console. -/
def run (source : String) (console : Console) : Outcome :=
  runWithin ampleSteps defaultDepthLimit source console

end Scriptlet
