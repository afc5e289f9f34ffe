import Scriptlet.Heap.Graph

/-!
# Who owns a scope

A scope exists as long as something holds on to it: an owner outside the store, which is a handle to
the scope or a value that is kept, or a node that exists. Functions and objects exist as long as an
owner or a scope of the store leads to them. A scope that loses its last owner is gone, and with it
its own hold on others.

The store is swept of such scopes before anybody looks. Nothing can get hold of an unowned scope, so
it makes no difference when that happens.
-/

namespace Scriptlet

/-- Something outside the store that holds on to a node. -/
inductive Owner where
  /-- A handle to a scope. -/
  | scope (id : ScopeId)
  /-- A value that is kept. -/
  | value (v : Value)
  deriving Inhabited, Repr

/-- The node that an owner holds on to. -/
def Owner.node? : Owner → Option Node
  | .scope id => some (.scope id)
  | .value v => v.node?

/-- How often each identity occurs in a list. -/
def tally (ids : List Nat) : Std.TreeMap Nat Nat :=
  ids.foldl (fun counts id => counts.insert id (counts.getD id 0 + 1)) ∅

namespace Store

/-- Every hold by a scope of the store. -/
def scopeEdges (store : Store) : List Node := store.scopes.toList.flatMap (·.2.edges)

/-- Every function and object that exists, once. -/
def valueNodes (store : Store) (owners : List Owner) : List Node :=
  let held := owners.filterMap Owner.node? ++ store.scopeEdges
  (visit Node.parts store.fresh (held.filter Node.isValue) ∅).nodes

/-- Every hold on a node: those of the owners, the scopes, the functions and the objects. -/
def handles (store : Store) (owners : List Owner) : List Node :=
  owners.filterMap Owner.node? ++ store.scopeEdges ++
    (store.valueNodes owners).flatMap store.edges

/-- Whether anything holds on to a scope. -/
def isOwned (store : Store) (owners : List Owner) (id : ScopeId) : Bool :=
  (store.handles owners).any (·.id == id)

/-- Removes the scopes that nothing holds on to, and then those that only they held on to, in at
most so many rounds. -/
def sweepRounds (owners : List Owner) : Nat → Store → Store
  | 0, store => store
  | rounds + 1, store =>
    let counts := tally ((store.handles owners).map Node.id)
    let kept := { store with scopes := store.scopes.filter fun id _ => counts.contains id }
    if kept.size = store.size then store else sweepRounds owners rounds kept

/-- The store without the scopes that lost their last owner. Every round but the last removes one. -/
def sweep (store : Store) (owners : List Owner) : Store :=
  sweepRounds owners (store.size + 1) store

end Store

end Scriptlet
