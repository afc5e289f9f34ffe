import Scriptlet.Evaluation.Machine
import Scriptlet.Value.Text

/-!
# Calls

A call of a declared function needs as many arguments as there are parameters, and room for one more
body below the depth limit. Its body runs in a new scope inside the scope of the declaration, where
the parameters are bound to the arguments in order; arguments beyond them are dropped. When the body
is left, in whatever way, the depth is taken back and the scope is given up.
-/

namespace Scriptlet.Eval

/-- The arguments as one text. -/
def joined (args : List Value) : String := " ".intercalate (args.map Value.display)

/-- A call of a function of the console. -/
def callNative (args : List Value) : Native → Eval Value
  | .print => do
    write (joined args)
    return .null
  | .println => do
    write (joined args ++ "\n")
    return .null
  | .input => do
    if let some prompt := args.head? then write prompt.display
    read

/-- Binds parameters to arguments in order. -/
def bindParams (scope : ScopeId) : List (String × Value) → Eval Unit
  | [] => return ()
  | (name, value) :: rest => do
    declare scope name value false
    bindParams scope rest

/-- A new scope in which the parameters of a function are bound to arguments. If they cannot be
bound, the scope has lost its only handle and is gone. -/
def enter (f : Function) (args : List Value) : Eval ScopeId := do
  let scope ← openScope (some f.closure)
  orDrop scope (bindParams scope (f.params.zip args))
  return scope

/-- Runs a body in its own scope, one level deeper, and gives the scope up afterwards. -/
def inBody (scope : ScopeId) (body : Eval Value) : Eval Value := fun machine =>
  match holding [.scope scope] body { machine with depth := machine.depth + 1 } with
  | .ok value machine => .ok value (machine.leave scope [value])
  | .error halt machine => .error halt (machine.leave scope [])

/-- A call of a declared function, whose body is run by `run` in a given scope. -/
def callFunction (run : Block Stmt → ScopeId → Eval Value) (f : Function) (args : List Value) :
    Eval Value := do
  if args.length < f.params.length then
    fail (.arityMismatch f.name f.params.length args.length)
  let machine ← get
  if machine.limit ≤ machine.depth then
    fail (.callDepthExceeded machine.limit)
  let scope ← enter f args
  inBody scope (run f.body scope)

/-- A call of any value. -/
def call (run : Block Stmt → ScopeId → Eval Value) (callee : Value) (args : List Value) :
    Eval Value :=
  match callee with
  | .function f => callFunction run f args
  | .native f => callNative args f
  | value => fail (.notCallable value.type)

end Scriptlet.Eval
