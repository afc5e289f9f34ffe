import Scriptlet.Value
import Std.Data.TreeMap.Lemmas

/-!
# Scopes and their store

A scope binds names to values and may have a parent, in which names that it does not bind are looked
for. Reading and writing both go to the binding that `Store.resolve?` finds: the one of the nearest
scope on the way up. Declaring looks at one scope only.

A parent exists before its children, so on the way up the names of scopes decrease; that bounds the
way by the name it starts from.
-/

namespace Scriptlet

/-- What a name stands for in a scope. -/
structure Binding where
  value : Value
  constant : Bool
  deriving Inhabited, Repr

/-- A scope: where to look further, and its bindings in the order of declaration. -/
structure Scope where
  parent : Option ScopeId
  bindings : Record Binding
  deriving Inhabited, Repr

namespace Scope

/-- The values bound in a scope. -/
def values (scope : Scope) : List Value := scope.bindings.map (·.2.value)

end Scope

/-- The scopes that exist, and the next unused identity. -/
structure Store where
  scopes : Std.TreeMap ScopeId Scope
  fresh : Nat

namespace Store

/-- A store without scopes. -/
def empty : Store := ⟨∅, 0⟩

instance : Inhabited Store := ⟨empty⟩

/-- The scope of a name. -/
def scope? (store : Store) (id : ScopeId) : Option Scope := store.scopes[id]?

/-- Whether a scope exists. -/
def holds (store : Store) (id : ScopeId) : Bool := store.scopes.contains id

/-- How many scopes exist. -/
def size (store : Store) : Nat := store.scopes.size

/-- The store with a scope replaced. -/
def setScope (store : Store) (id : ScopeId) (scope : Scope) : Store :=
  { store with scopes := store.scopes.insert id scope }

/-- The store without a scope. -/
def erase (store : Store) (id : ScopeId) : Store :=
  { store with scopes := store.scopes.erase id }

/-- An identity that nothing in the store has. -/
def newId (store : Store) : Nat × Store :=
  (store.fresh, { store with fresh := store.fresh + 1 })

/-- A new scope without bindings. -/
def newScope (store : Store) (parent : Option ScopeId) : ScopeId × Store :=
  let (id, store) := store.newId
  (id, store.setScope id ⟨parent, []⟩)

theorem holds_iff {store : Store} {id : ScopeId} :
    store.holds id = true ↔ ∃ scope, store.scope? id = some scope := by
  rw [holds, scope?, Std.TreeMap.contains_eq_isSome_getElem?, Option.isSome_iff_exists]

@[simp] theorem scope?_empty (id : ScopeId) : empty.scope? id = none :=
  Std.TreeMap.getElem?_emptyc

@[simp] theorem scope?_setScope (store : Store) (id other : ScopeId) (scope : Scope) :
    (store.setScope id scope).scope? other = if id = other then some scope else store.scope? other := by
  simp [setScope, scope?, Std.TreeMap.getElem?_insert]

@[simp] theorem scope?_erase (store : Store) (id other : ScopeId) :
    (store.erase id).scope? other = if id = other then none else store.scope? other := by
  simp [erase, scope?, Std.TreeMap.getElem?_erase]

@[simp] theorem scope?_newScope (store : Store) (parent : Option ScopeId) (id : ScopeId) :
    (store.newScope parent).2.scope? id =
      if store.fresh = id then some ⟨parent, []⟩ else store.scope? id := by
  simp [newScope, newId]
  rfl

/-! ## Names -/

/-- The nearest binding of a name on the way up from a scope, and the scope that has it. -/
def resolveWithin? (store : Store) (name : String) : Nat → ScopeId → Option (ScopeId × Binding)
  | 0, _ => none
  | steps + 1, id =>
    match store.scope? id with
    | none => none
    | some scope =>
      match scope.bindings.get? name with
      | some binding => some (id, binding)
      | none => scope.parent.bind (resolveWithin? store name steps)

/-- The binding that a name means in a scope. -/
def resolve? (store : Store) (id : ScopeId) (name : String) : Option (ScopeId × Binding) :=
  resolveWithin? store name (id + 1) id

/-- The bindings of a scope itself. -/
def bindings (store : Store) (id : ScopeId) : Record Binding :=
  ((store.scope? id).map Scope.bindings).getD []

/-- Writes a binding of a scope itself. -/
def bind (store : Store) (id : ScopeId) (name : String) (binding : Binding) : Store :=
  match store.scope? id with
  | none => store
  | some scope => store.setScope id { scope with bindings := Record.put name binding scope.bindings }

@[simp] theorem fresh_bind (store : Store) (id : ScopeId) (name : String) (binding : Binding) :
    (store.bind id name binding).fresh = store.fresh := by
  unfold bind
  split <;> rfl

theorem scope?_bind (store : Store) (id other : ScopeId) (name : String) (binding : Binding) :
    (store.bind id name binding).scope? other =
      if id = other then
        (store.scope? id).map fun scope =>
          { scope with bindings := Record.put name binding scope.bindings }
      else store.scope? other := by
  unfold bind
  split
  · rename_i h
    split <;> simp_all
  · rename_i scope h
    simp [h]

/-- The value of a name. -/
def lookup (store : Store) (id : ScopeId) (name : String) : Except Fault Value :=
  match store.resolve? id name with
  | some (_, binding) => .ok binding.value
  | none => .error (.undeclaredVariable name)

/-- Gives a variable a new value, in the scope that has it. -/
def assign (store : Store) (id : ScopeId) (name : String) (value : Value) : Except Fault Store :=
  match store.resolve? id name with
  | none => .error (.undeclaredVariable name)
  | some (owner, binding) =>
    if binding.constant then .error (.constAssignment name)
    else .ok (store.bind owner name { binding with value })

/-- Binds a name that the scope itself does not bind yet. -/
def declare (store : Store) (id : ScopeId) (name : String) (value : Value) (constant : Bool) :
    Except Fault Store :=
  match (store.bindings id).get? name with
  | some _ => .error (.duplicateDeclaration name)
  | none => .ok (store.bind id name ⟨value, constant⟩)

/-- Removes all bindings of a scope and keeps its parent. -/
def clear (store : Store) (id : ScopeId) : Store :=
  match store.scope? id with
  | none => store
  | some scope => store.setScope id { scope with bindings := [] }

@[simp] theorem fresh_clear (store : Store) (id : ScopeId) :
    (store.clear id).fresh = store.fresh := by
  unfold clear
  split <;> rfl

theorem scope?_clear (store : Store) (id other : ScopeId) :
    (store.clear id).scope? other =
      if id = other then (store.scope? id).map fun scope => { scope with bindings := [] }
      else store.scope? other := by
  unfold clear
  split
  · rename_i h
    split <;> simp_all
  · rename_i scope h
    simp [h]

end Store

end Scriptlet
