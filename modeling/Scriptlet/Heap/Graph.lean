import Scriptlet.Heap.Store

/-!
# The graph of scopes and values

Scopes, functions and objects can be held on to from several places at once. They are the nodes of a
graph: a scope holds on to its parent and to the values bound in it, a function to the scope of its
declaration, an object to the values of its properties. A node that is held on to twice from one
place has two edges.

Nodes are told apart by their identities. `visit` keeps a stack of nodes to look at and the nodes
already seen. It looks at each node once, so as many steps suffice as there are identities.
-/

namespace Scriptlet

/-- Something that can be held on to from several places. -/
inductive Node where
  | scope (id : ScopeId)
  | function (f : Function)
  | object (id : Nat) (fields : List (String × Value))
  deriving Inhabited, Repr

/-- The identity of a node. -/
def Node.id : Node → Nat
  | scope id => id
  | function f => f.id
  | object id _ => id

/-- The node that a value is a hold on, if it has an identity. -/
def Value.node? : Value → Option Node
  | function f => some (.function f)
  | object id fields => some (.object id fields)
  | _ => none

/-- Whether a node is part of a value. -/
def Node.isValue : Node → Bool
  | scope _ => false
  | function _ | object _ _ => true

/-- The functions and objects that a value holds on to itself, once for each hold. -/
def Node.parts : Node → List Node
  | object _ fields => fields.filterMap (·.2.node?)
  | scope _ | function _ => []

/-- The nodes that a scope holds on to, once for each hold. -/
def Scope.edges (scope : Scope) : List Node :=
  scope.values.filterMap Value.node? ++ scope.parent.toList.map .scope

/-- The nodes that a node holds on to, once for each hold. -/
def Store.edges (store : Store) : Node → List Node
  | .scope id => ((store.scope? id).map Scope.edges).getD []
  | .function f => [.scope f.closure]
  | node => node.parts

/-- Nodes under their identities. -/
abbrev Nodes := Std.TreeMap Nat Node

/-- The nodes in order of their identities. -/
def Nodes.nodes (seen : Nodes) : List Node := seen.toList.map Prod.snd

/-- Visits the nodes on a stack and all that they lead to, looking at no more nodes than there are
steps. -/
def visit (edges : Node → List Node) : Nat → List Node → Nodes → Nodes
  | 0, _, seen => seen
  | steps + 1, stack, seen =>
    match stack.dropWhile (seen.contains ·.id) with
    | [] => seen
    | node :: rest => visit edges steps (edges node ++ rest) (seen.insert node.id node)

end Scriptlet
