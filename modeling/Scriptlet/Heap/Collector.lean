import Scriptlet.Heap.Ownership

/-!
# Collecting unreachable scopes

A function declared in a scope captures that scope, so the two hold on to each other and would never
lose their last owner. When a handle to a scope is given up, the nodes that the scope leads to are
scanned. A node of the scan that is held on to more often than the scan itself accounts for has an
owner elsewhere and is live, and so is all that it leads to. If the given up scope is not live, every
scope of the scan that is not live is emptied, which breaks the cycles.

The scopes that enclose the given up one are left out of the scan and count as owners elsewhere. A
scope that is still live is remembered as a candidate, to be scanned again later.

While a collection runs some scopes may be borrowed: they cannot be looked into, and stay.
-/

namespace Scriptlet

namespace Store

/-! ## One scan -/

/-- The scopes that enclose a scope, nearest first. What encloses a borrowed scope is not seen. -/
def enclosing (store : Store) (borrowed : List ScopeId) : Nat → Option ScopeId → List ScopeId
  | 0, _ => []
  | _, none => []
  | steps + 1, some id =>
    id :: if borrowed.contains id then []
      else enclosing store borrowed steps ((store.scope? id).bind Scope.parent)

/-- What a scan can look into: no borrowed scope, and nothing that encloses its starting point. -/
structure View where
  borrowed : List ScopeId
  excluded : List ScopeId
  deriving Repr

/-- What a scan that starts at a scope can look into. -/
def viewFrom (store : Store) (borrowed : List ScopeId) (id : ScopeId) : View :=
  ⟨borrowed, store.enclosing borrowed (id + 1) ((store.scope? id).bind Scope.parent)⟩

/-- The nodes that a node holds on to within a scan. -/
def edgesIn (store : Store) (view : View) (node : Node) : List Node :=
  if view.borrowed.contains node.id then []
  else (store.edges node).filter (!view.excluded.contains ·.id)

/-- All nodes that some nodes lead to within a scan. -/
def reach (store : Store) (view : View) (starts : List Node) : Nodes :=
  visit (store.edgesIn view) store.fresh starts ∅

/-- The members of a scan that have an owner elsewhere: they are borrowed, or held on to more often
than the scan accounts for. -/
def heldElsewhere (store : Store) (owners : List Owner) (view : View) (members : List Node) :
    List Node :=
  let held := tally ((store.handles owners).map Node.id)
  let inner := tally ((members.flatMap (store.edgesIn view)).map Node.id)
  members.filter fun node =>
    view.borrowed.contains node.id || inner.getD node.id 0 < held.getD node.id 0

/-- The nodes of a scan that starts at a scope. -/
def members (store : Store) (view : View) (id : ScopeId) : Nodes := store.reach view [.scope id]

/-- The nodes of a scan that are live. -/
def live (store : Store) (owners : List Owner) (view : View) (id : ScopeId) : Nodes :=
  store.reach view (store.heldElsewhere owners view (store.members view id).nodes)

/-- Scans what a given up scope leads to and empties what is not live; nothing if the scope itself
is live. The owners do not include the handle that was given up. -/
def free? (store : Store) (owners : List Owner) (borrowed : List ScopeId) (id : ScopeId) :
    Option Store :=
  if borrowed.contains id then none
  else
    let view := store.viewFrom borrowed id
    let live := store.live owners view id
    if live.contains id then none
    else some (((store.members view id).keys.filter (!live.contains ·)).foldl clear store)

end Store

/-! ## The collector's memory -/

/-- A store together with the candidates for a later scan. Reaching the threshold starts one. A heap
that does not reclaim finds every scope live and is the same in all else. -/
structure Heap where
  store : Store
  candidates : List ScopeId
  threshold : Nat
  reclaims : Bool
  deriving Inhabited

namespace Heap

/-- The least threshold. -/
def leastThreshold : Nat := 64

/-- A heap without scopes. -/
def empty : Heap := ⟨Store.empty, [], leastThreshold, true⟩

/-- The same heap, never to empty a scope again. -/
def keepingAll (heap : Heap) : Heap := { heap with reclaims := false }

/-- Empties a given up scope, and all that goes with it, unless it is live. -/
def free? (reclaims : Bool) (owners : List Owner) (borrowed : List ScopeId) (store : Store)
    (id : ScopeId) : Option Store :=
  if reclaims then store.free? owners borrowed id else none

/-- Rescans candidates in order. The result is the store and the candidates that are still live;
candidates that no longer exist are forgotten. -/
def rescan (reclaims : Bool) (owners : List Owner) (borrowed : List ScopeId) :
    List ScopeId → Store → Store × List ScopeId
  | [], store => (store, [])
  | id :: rest, store =>
    if store.holds id then
      match free? reclaims owners borrowed store id with
      | some store => rescan reclaims owners borrowed rest (store.sweep owners)
      | none =>
        let (store, live) := rescan reclaims owners borrowed rest store
        (store, id :: live)
    else rescan reclaims owners borrowed rest store

/-- Rescans all candidates and sets the threshold to twice the number of those that remain. -/
def collect (owners : List Owner) (borrowed : List ScopeId) (heap : Heap) : Heap :=
  let (store, live) :=
    rescan heap.reclaims owners borrowed heap.candidates (heap.store.sweep owners)
  { heap with store, candidates := live, threshold := max (2 * live.length) leastThreshold }

/-- Remembers a scope that is still live, and collects once there are enough candidates. -/
def remember (owners : List Owner) (borrowed : List ScopeId) (id : ScopeId) (heap : Heap) : Heap :=
  let heap := { heap with candidates := heap.candidates ++ [id] }
  if heap.threshold ≤ heap.candidates.length then heap.collect owners borrowed else heap

/-- Gives up a handle to a scope. If that was its last owner the scope is gone; otherwise it is freed
if only cycles hold on to it, and remembered if it is live. -/
def release (owners : List Owner) (borrowed : List ScopeId) (id : ScopeId) (heap : Heap) : Heap :=
  if !heap.store.isOwned owners id then { heap with store := heap.store.erase id }
  else
    let store := heap.store.sweep (.scope id :: owners)
    if !store.isOwned owners id then { heap with store := store.erase id }
    else
      match free? heap.reclaims owners borrowed store id with
      | some store => { heap with store := store.sweep owners }
      | none => { heap with store }.remember owners borrowed id

end Heap

end Scriptlet
