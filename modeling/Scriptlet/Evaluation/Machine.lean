import Scriptlet.Console
import Scriptlet.Heap.Collector

/-!
# The machine that runs programs

The state of a run: the heap, the console, the number of function bodies being executed, and the
owners that hold on to scopes from outside the store. The owners are the scopes of the bodies being
executed and every value that an unfinished evaluation still needs, such as the left operand while
the right one is evaluated. `Eval.holding` is the only way to add one, and it takes it back whether
the evaluation ends well or not.

A computation ends with a value, with a failure of the program, or by running out of the steps it
was given.
-/

namespace Scriptlet

/-- The state of a run. -/
structure Machine where
  heap : Heap
  owners : List Owner
  console : Console
  depth : Nat
  limit : Nat
  deriving Inhabited

/-- Why a computation ends without a value. -/
inductive Halt where
  /-- The program failed. -/
  | failure (f : Failure)
  /-- The steps ran out. -/
  | outOfSteps
  deriving DecidableEq, Inhabited, Repr

/-- Computations of the machine. -/
abbrev Eval := EStateM Halt Machine

namespace Machine

/-- The machine with another store. -/
def withStore (machine : Machine) (store : Store) : Machine :=
  { machine with heap := { machine.heap with store } }

/-- Leaves a function body: its scope is given up while its result, if any, is held on to. -/
def leave (machine : Machine) (scope : ScopeId) (result : List Value) : Machine :=
  { machine with
    depth := machine.depth - 1
    heap := machine.heap.release (result.map .value ++ machine.owners) [] scope }

end Machine

namespace Eval

variable {α : Type}

/-! ## Failing -/

/-- Fails at a place that only the caller knows. -/
def fail (fault : Fault) : Eval α := throw (.failure (Failure.placeless fault))

/-- Gives a failure without a place the place of the evaluated syntax. -/
def located (span : Span) (x : Eval α) : Eval α := fun machine =>
  match x machine with
  | .error (.failure f) machine => .error (.failure (f.orAt span)) machine
  | result => result

/-- The result of an operation on values. -/
def ofExcept : Except Fault α → Eval α
  | .ok a => pure a
  | .error fault => fail fault

/-! ## Holding on to values and scopes -/

/-- Runs a computation while some owners hold on to scopes. -/
def holding (owners : List Owner) (x : Eval α) : Eval α := fun machine =>
  let before := machine.owners
  match x { machine with owners := owners ++ before } with
  | .ok a machine => .ok a { machine with owners := before }
  | .error halt machine => .error halt { machine with owners := before }

/-! ## The store -/

/-- Changes the store by an operation that may fail. -/
def changeStore (change : Store → Except Fault Store) : Eval Unit := do
  let machine ← get
  match change machine.heap.store with
  | .ok store => set (machine.withStore store)
  | .error fault => fail fault

/-- An identity that nothing has yet. -/
def freshId : Eval Nat := do
  let machine ← get
  let (id, store) := machine.heap.store.newId
  set (machine.withStore store)
  return id

/-- A new scope. -/
def openScope (parent : Option ScopeId) : Eval ScopeId := do
  let machine ← get
  let (id, store) := machine.heap.store.newScope parent
  set (machine.withStore store)
  return id

/-- The value of a name. -/
def lookup (scope : ScopeId) (name : String) : Eval Value := do
  ofExcept ((← get).heap.store.lookup scope name)

/-- Gives a variable a new value. -/
def assign (scope : ScopeId) (name : String) (value : Value) : Eval Unit :=
  changeStore (·.assign scope name value)

/-- Binds a name. -/
def declare (scope : ScopeId) (name : String) (value : Value) (constant : Bool) : Eval Unit :=
  changeStore (·.declare scope name value constant)

/-- Runs a computation that has the only handle to a scope. If it fails, the scope is gone. -/
def orDrop (scope : ScopeId) (x : Eval α) : Eval α := fun machine =>
  match x machine with
  | .error halt machine => .error halt (machine.withStore (machine.heap.store.erase scope))
  | result => result

/-! ## The console -/

/-- Writes text. -/
def write (text : String) : Eval Unit := do
  let machine ← get
  let (result, console) := machine.console.write text
  set { machine with console }
  match result with
  | .ok () => return ()
  | .error reason => fail (.consoleFailure reason)

/-- Reads a line: a string, or null at the end of input. -/
def read : Eval Value := do
  let machine ← get
  let (result, console) := machine.console.read
  set { machine with console }
  match result with
  | .ok (some line) => return .text line
  | .ok none => return .null
  | .error reason => fail (.consoleFailure reason)

end Eval

end Scriptlet
