import Scriptlet.Heap.Collector
import Scriptlet.Value.Equality
import Scriptlet.Value.Text

/-!
# A heap worked by hand

The workbench is a heap whose owners are named handles: one table for scopes, one for values. Each
command makes, reads, changes or drops something through these handles, or starts the collector. A
command that is refused changes nothing.

After each command the heap holds only owned scopes, so what a command made on the way is gone.
-/

namespace Scriptlet

/-- How a command writes a value. -/
inductive ValueSpec where
  /-- A value without identity. -/
  | literal (v : Value)
  /-- The value under a handle. -/
  | handle (name : String)
  /-- A new function over the scope under a handle. -/
  | function (name closure : String)
  /-- A new object, made by writing properties in order. -/
  | object (fields : List (String × ValueSpec))
  deriving Inhabited, Repr

/-- What can be done at the workbench. Scopes and values are named by their handles. -/
inductive Command where
  | newScope (handle : String) (parent : Option String)
  | keep (handle : String) (value : ValueSpec)
  | declare (scope name : String) (value : ValueSpec) (constant : Bool)
  | assign (scope name : String) (value : ValueSpec)
  | lookup (scope name : String) (handle : Option String)
  | contains (scope name : String)
  | values (scope : String)
  | clear (scope : String)
  | equal (left right : ValueSpec)
  | display (value : ValueSpec)
  | dropScope (handle : String)
  | dropValue (handle : String)
  | release (scope : String) (keep : Bool) (borrowed : List String)
  | collect (borrowed : List String)
  deriving Inhabited, Repr

/-- What a command answers. -/
inductive Reply where
  | done
  | value (v : Value)
  | contains (answer : Bool)
  | values (texts : List String) (parent : Bool)
  | cleared (texts : List String)
  | equal (answer : Bool)
  | displayed (v : Value)
  | dropped (answer : Bool)
  deriving Inhabited, Repr

/-- Why a command is refused. -/
inductive Refusal where
  | noHandle (name : String)
  | failure (failure : Failure)
  deriving Inhabited, Repr

/-- A heap and the handles that own parts of it. All scopes ever made are listed with the handles
they were made under. -/
structure Workbench where
  heap : Heap
  scopes : Record ScopeId
  values : Record Value
  made : List (String × ScopeId)
  deriving Inhabited

namespace Workbench

/-- Nothing made yet. -/
def empty : Workbench := ⟨Heap.empty, [], [], []⟩

/-- The handles as owners. -/
def owners (bench : Workbench) : List Owner :=
  bench.scopes.map (Owner.scope ·.2) ++ bench.values.map (Owner.value ·.2)

/-- The handles of the scopes that still exist, in the order in which they were made. -/
def alive (bench : Workbench) : List String :=
  (bench.made.filter (bench.heap.store.holds ·.2)).map Prod.fst

/-- Commands in the making: they read and change the bench, or are refused. -/
abbrev Work := StateT Workbench (Except Refusal)

/-! ## Parts of commands -/

/-- The scope under a handle. -/
def scope (handle : String) : Work ScopeId := do
  match (← get).scopes.get? handle with
  | some id => return id
  | none => throw (.noHandle handle)

/-- Replaces the store. -/
def setStore (store : Store) : Work Unit :=
  modify fun bench => { bench with heap := { bench.heap with store } }

/-- An identity that nothing has yet. -/
def freshId : Work Nat := do
  let (id, store) := (← get).heap.store.newId
  setStore store
  return id

/-- Turns a fault into a refusal. It has no place in a source. -/
def checked {α : Type} : Except Fault α → Work α
  | .ok a => return a
  | .error fault => throw (.failure (Failure.placeless fault))

mutual

/-- Makes the value that a command writes. -/
def make : ValueSpec → Work Value
  | .literal v => return v
  | .handle name => do
    match (← get).values.get? name with
    | some value => return value
    | none => throw (.noHandle name)
  | .function name closure => do
    let closure ← scope closure
    return .function ⟨← freshId, name, [], ⟨[], ⟨0, 0, 0, 0⟩⟩, closure⟩
  | .object fields => do
    let fields ← makeFields [] fields
    return .object (← freshId) fields

/-- Makes an object's properties one after the other. -/
def makeFields (made : Record Value) : List (String × ValueSpec) → Work (Record Value)
  | [] => return made
  | (key, spec) :: rest => do
    let value ← make spec
    makeFields (Record.put key value made) rest

end

/-- The sorted texts of the values bound in a scope, each after its type. -/
def valueTexts (store : Store) (id : ScopeId) : List String :=
  let texts := (store.bindings id).map fun entry =>
    entry.2.value.type.name ++ " " ++ entry.2.value.display
  texts.mergeSort fun a b => a ≤ b

/-- The scopes under some handles. -/
def borrowedScopes (handles : List String) : Work (List ScopeId) := handles.mapM scope

/-- Runs the collector while some scopes are borrowed, each through one more handle to it. -/
def runCollector (borrowed : List ScopeId)
    (run : List Owner → List ScopeId → Heap → Heap) : Work Unit :=
  modify fun bench =>
    { bench with heap := run (borrowed.map .scope ++ bench.owners) borrowed bench.heap }

/-! ## Commands -/

/-- Carries out a command. -/
def perform : Command → Work Reply
  | .newScope handle parent => do
    let parent ← parent.mapM scope
    let (id, store) := (← get).heap.store.newScope parent
    setStore store
    modify fun bench => { bench with
      scopes := Record.put handle id bench.scopes
      made := bench.made ++ [(handle, id)] }
    return .done
  | .keep handle spec => do
    let value ← make spec
    modify fun bench => { bench with values := Record.put handle value bench.values }
    return .done
  | .declare handle name spec constant => do
    let value ← make spec
    let id ← scope handle
    setStore (← checked ((← get).heap.store.declare id name value constant))
    return .value value
  | .assign handle name spec => do
    let value ← make spec
    let id ← scope handle
    setStore (← checked ((← get).heap.store.assign id name value))
    return .value value
  | .lookup handle name keep => do
    let id ← scope handle
    let value ← checked ((← get).heap.store.lookup id name)
    if let some handle := keep then
      modify fun bench => { bench with values := Record.put handle value bench.values }
    return .value value
  | .contains handle name => do
    let id ← scope handle
    return .contains (((← get).heap.store.bindings id).get? name).isSome
  | .values handle => do
    let id ← scope handle
    let store := (← get).heap.store
    return .values (valueTexts store id) ((store.scope? id).bind Scope.parent).isSome
  | .clear handle => do
    let id ← scope handle
    let store := (← get).heap.store
    setStore (store.clear id)
    return .cleared (valueTexts store id)
  | .equal left right => do
    let left ← make left
    let right ← make right
    return .equal (left.equal right)
  | .display spec => return .displayed (← make spec)
  | .dropScope handle => do
    let bench ← get
    set { bench with scopes := bench.scopes.drop handle }
    return .dropped (bench.scopes.get? handle).isSome
  | .dropValue handle => do
    let bench ← get
    set { bench with values := bench.values.drop handle }
    return .dropped (bench.values.get? handle).isSome
  | .release handle keep borrowed => do
    let id ← scope handle
    let borrowed ← borrowedScopes borrowed
    if !keep then modify fun bench => { bench with scopes := bench.scopes.drop handle }
    runCollector borrowed fun owners borrowed heap => heap.release owners borrowed id
    return .done
  | .collect borrowed => do
    let borrowed ← borrowedScopes borrowed
    runCollector borrowed fun owners borrowed heap => heap.collect owners borrowed
    return .done

/-- The bench without scopes that nothing owns. -/
def sweep (bench : Workbench) : Workbench :=
  { bench with heap := { bench.heap with store := bench.heap.store.sweep bench.owners } }

/-- A command and its answer. -/
def step (bench : Workbench) (command : Command) : Except Refusal Reply × Workbench :=
  match perform command bench with
  | .ok (reply, bench) => (.ok reply, bench.sweep)
  | .error refusal => (.error refusal, bench)

end Workbench

end Scriptlet
