import Scriptlet.Run

/-!
# Sessions

A session keeps one machine and one root scope over many steps: sources that are evaluated in the
root scope, calls from outside, values that are held on to under names, scopes that are watched, and
collections. A failure ends its step only. Between steps the owners are the root scope, until it is
released, and the held values; a watched scope is not owned.
-/

namespace Scriptlet

/-- How a step names a value: one that is held, or a name in the root scope. -/
inductive Source where
  | held (name : String)
  | named (name : String)
  deriving DecidableEq, Inhabited, Repr

namespace Session

/-- What can be done in a session. -/
inductive Step where
  /-- Evaluates a source in the root scope. -/
  | evaluate (source : String)
  /-- Calls a value, and may hold on to the result. -/
  | call (callee : Source) (args : List Value) (holdAs : Option String)
  /-- Holds on to a value. -/
  | hold (value : Source) (name : String)
  /-- Lets go of a held value. -/
  | unhold (name : String)
  /-- Watches the scope of a function. -/
  | watch (value : Source) (name : String)
  /-- Collects unreachable scopes. -/
  | collect
  /-- Gives up the root scope and collects. -/
  | releaseRoot
  deriving Inhabited, Repr

/-- What a step answers. -/
inductive Answer where
  | value (v : Value)
  | held (v : Value)
  | unheld (answer : Bool)
  | watching (f : Function)
  | alive (watched : List (String × Bool))
  deriving Inhabited, Repr

/-- Why a step gives no answer. -/
inductive Trouble where
  | noRoot
  | notHeld
  | notAFunction
  | halt (h : Halt)
  deriving DecidableEq, Inhabited, Repr

end Session

/-- A session between two steps. The machine's own list of owners is empty then. -/
structure Session where
  machine : Machine
  root : Option ScopeId
  held : Record Value
  watched : Record ScopeId
  deriving Inhabited

namespace Session

/-- A session with a new root scope. -/
def start (console : Console) (limit : Nat) : Session :=
  match Eval.rootScope (Machine.start console limit) with
  | .ok root machine => ⟨machine, some root, [], []⟩
  | .error _ machine => ⟨machine, none, [], []⟩

/-- What holds on to scopes between steps. -/
def owners (session : Session) : List Owner :=
  session.root.toList.map .scope ++ session.held.map (.value ·.2)

/-- Steps in the making. -/
abbrev Work := EStateM Trouble Session

/-- Runs a computation of the machine under the owners of the session. -/
def runMachine {α : Type} (x : Eval α) : Work α := fun session =>
  match Eval.holding session.owners x session.machine with
  | .ok a machine => .ok a { session with machine }
  | .error halt machine => .error (.halt halt) { session with machine }

/-- The root scope, if it has not been released. -/
def rootScope : Work ScopeId := do
  match (← get).root with
  | some root => return root
  | none => throw .noRoot

/-- The value that a step names. -/
def find : Source → Work Value
  | .held name => do
    match (← get).held.get? name with
    | some value => return value
    | none => throw .notHeld
  | .named name => do
    runMachine (Eval.lookup (← rootScope) name)

/-- Holds on to a value under a name. -/
def keep (name : String) (value : Value) : Work Unit :=
  modify fun session => { session with held := Record.put name value session.held }

/-- Collects, and tells which watched scopes still exist. -/
def collectNow : Work Answer := do
  modify fun session =>
    { session with machine := { session.machine with
        heap := session.machine.heap.collect session.owners [] } }
  let session ← get
  let store := session.machine.heap.store
  return .alive (session.watched.map fun entry => (entry.1, store.holds entry.2))

/-- Carries out a step. A call holds on to its callee while it runs. -/
def perform : Step → Work Answer
  | .evaluate source => do
    let root ← rootScope
    match parse source with
    | .error failure => throw (.halt (.failure failure))
    | .ok program => return .value (← runMachine (Eval.program ampleSteps program root))
  | .call callee args holdAs => do
    let callee ← find callee
    let result ← runMachine
      (Eval.holding [.value callee] (Eval.call (Eval.executeBlock ampleSteps) callee args))
    if let some name := holdAs then keep name result
    return .value result
  | .hold value name => do
    let value ← find value
    keep name value
    return .held value
  | .unhold name => do
    let session ← get
    set { session with held := session.held.drop name }
    return .unheld (session.held.get? name).isSome
  | .watch value name => do
    match ← find value with
    | .function f =>
      modify fun session => { session with watched := Record.put name f.closure session.watched }
      return .watching f
    | _ => throw .notAFunction
  | .collect => collectNow
  | .releaseRoot => do
    let root ← rootScope
    modify fun session => { session with root := none }
    modify fun session => { session with machine := { session.machine with
      heap := session.machine.heap.release session.owners [] root } }
    collectNow

/-- The session with an empty log at its console. -/
def quiet (session : Session) : Session :=
  { session with machine := { session.machine with
      console := session.machine.console.forget } }

/-- A step, its answer, and what it wrote to the console. -/
def step (session : Session) (step : Step) : Except Trouble Answer × String × Session :=
  match perform step session.quiet with
  | .ok answer session => (.ok answer, session.machine.console.output, session)
  | .error trouble session => (.error trouble, session.machine.console.output, session)

end Session

end Scriptlet
