import Scriptlet.Proofs.Code
import Scriptlet.Proofs.Evaluation.Program
import Scriptlet.Proofs.Heap.Reduction

/-!
# Settings

Functions are values, so the code that a program can come to run is more than its own text: it is all
that it can get hold of. A setting says which code that may be, in which scopes it runs, and how deep
calls may nest. The store keeps to a setting if nothing that its scopes lead to is outside
(`Setting.Encloses`): their parents, and the bodies and scopes of the functions in them. New scopes
always belong to it.

Whatever a program does to the store keeps this up, and so does collecting, which only takes away.
-/

namespace Scriptlet

/-- A function that a value is or has among its parts. -/
inductive Value.Carries : Value → Function → Prop where
  | itself (f : Function) : Carries (.function f) f
  | part {id : Nat} {fields : List (String × Value)} {entry : String × Value} {f : Function}
    (hentry : entry ∈ fields) (h : Carries entry.2 f) : Carries (.object id fields) f

/-- The code that may run, the scopes in which it does, and the limit to the depth of calls. -/
structure Setting extends Code where
  scopes : ScopeId → Prop
  limit : Nat

namespace Setting

variable {σ : Setting} {v : Value} {store new : Store} {id : ScopeId} {name key : String}

/-! ## Values -/

/-- Values whose functions have code and scopes of a setting. -/
def Admits (σ : Setting) (v : Value) : Prop :=
  ∀ f, v.Carries f → f.body.Within σ.toCode ∧ σ.scopes f.closure

theorem admits_of_plain (h : v.node? = none) : σ.Admits v := by
  intro f hf
  cases hf <;> cases h

theorem admits_function {f : Function} (hbody : f.body.Within σ.toCode)
    (hclosure : σ.scopes f.closure) : σ.Admits (.function f) := by
  intro g hg
  cases hg
  exact ⟨hbody, hclosure⟩

theorem admits_object {id : Nat} {fields : List (String × Value)}
    (h : ∀ entry ∈ fields, σ.Admits entry.2) : σ.Admits (.object id fields) := by
  intro f hf
  cases hf with
  | part hentry hf => exact h _ hentry f hf

theorem Admits.member {value : Value} (h : σ.Admits value) (hv : value.member key = .ok v) :
    σ.Admits v := by
  unfold Value.member at hv
  split at hv
  · split at hv
    · rename_i fields found hfound
      cases hv
      exact fun f hf => h f (.part (Record.mem_of_get?_eq_some hfound) hf)
    · cases hv
  · cases hv

theorem Admits.logical {left right : Value} (hleft : σ.Admits left) (hright : σ.Admits right)
    (op : LogicalOp) : σ.Admits (Value.logical op left right) := by
  unfold Value.logical
  split
  · split
    · exact hleft
    · exact admits_of_plain rfl
  · exact admits_of_plain rfl
  · exact hright

theorem admits_put {fields : Record Value} (h : ∀ entry ∈ fields, σ.Admits entry.2)
    (hv : σ.Admits v) (key : String) : ∀ entry ∈ Record.put key v fields, σ.Admits entry.2 := by
  intro entry hentry
  rcases Record.mem_of_mem_put hentry with rfl | hentry
  · exact hv
  · exact h entry hentry

/-! ## Stores -/

/-- A store whose scopes lead to nothing outside a setting. -/
structure Encloses (σ : Setting) (store : Store) : Prop where
  fresh : ∀ id, store.fresh ≤ id → σ.scopes id
  parent : ∀ id scope, store.scope? id = some scope → σ.scopes id →
    ∀ p, scope.parent = some p → σ.scopes p
  values : ∀ id scope, store.scope? id = some scope → σ.scopes id → ∀ v ∈ scope.values, σ.Admits v

namespace Encloses

theorem empty (h : ∀ id, σ.scopes id) : σ.Encloses .empty := by
  refine ⟨fun id _ => h id, fun id scope hscope => ?_, fun id scope hscope => ?_⟩ <;> simp at hscope

theorem newId (h : σ.Encloses store) : σ.Encloses store.newId.2 where
  fresh id hid := h.fresh id (Nat.le_of_succ_le hid)
  parent := h.parent
  values := h.values

theorem newScope (h : σ.Encloses store) {parent : Option ScopeId}
    (hparent : ∀ p, parent = some p → σ.scopes p) : σ.Encloses (store.newScope parent).2 where
  fresh id hid := h.fresh id (Nat.le_of_succ_le hid)
  parent id scope hscope hid := by
    rw [Store.scope?_newScope] at hscope
    split at hscope
    · cases hscope
      exact hparent
    · exact h.parent id scope hscope hid
  values id scope hscope hid := by
    rw [Store.scope?_newScope] at hscope
    split at hscope
    · cases hscope
      exact fun v hv => nomatch hv
    · exact h.values id scope hscope hid

theorem bind (h : σ.Encloses store) (hv : σ.Admits v) (id : ScopeId) (name : String)
    (constant : Bool) : σ.Encloses (store.bind id name ⟨v, constant⟩) where
  fresh := by
    rw [Store.fresh_bind]
    exact h.fresh
  parent other scope hscope hother := by
    rw [Store.scope?_bind] at hscope
    split at hscope
    · rename_i heq
      obtain ⟨old, hold, rfl⟩ := Option.map_eq_some_iff.mp hscope
      exact h.parent other old (heq ▸ hold) hother
    · exact h.parent other scope hscope hother
  values other scope hscope hother w hw := by
    rw [Store.scope?_bind] at hscope
    split at hscope
    · rename_i heq
      obtain ⟨old, hold, rfl⟩ := Option.map_eq_some_iff.mp hscope
      obtain ⟨entry, hentry, rfl⟩ := List.mem_map.mp hw
      rcases Record.mem_of_mem_put hentry with rfl | hentry
      · exact hv
      · exact h.values other old (heq ▸ hold) hother _ (List.mem_map_of_mem hentry)
    · exact h.values other scope hscope hother w hw

/-- What is left of a store keeps to the setting. -/
theorem of_reduces (h : σ.Encloses store) (hreduces : Store.Reduces new store) :
    σ.Encloses new where
  fresh := by
    rw [hreduces.fresh]
    exact h.fresh
  parent id scope hscope hid := by
    obtain ⟨old, hold, hparent, -⟩ := hreduces.scope id scope hscope
    rw [hparent]
    exact h.parent id old hold hid
  values id scope hscope hid v hv := by
    obtain ⟨old, hold, -, hbindings⟩ := hreduces.scope id scope hscope
    exact h.values id old hold hid v (List.map_subset _ hbindings hv)

/-! ### Names -/

/-- The way up from a scope of the setting stays in the setting. -/
theorem resolveWithin (h : σ.Encloses store) {steps : Nat} {found : ScopeId × Binding}
    (hid : σ.scopes id) (hfound : store.resolveWithin? name steps id = some found) :
    σ.Admits found.2.value := by
  induction steps generalizing id with
  | zero => cases hfound
  | succ steps ih =>
    unfold Store.resolveWithin? at hfound
    split at hfound
    · cases hfound
    · rename_i scope hscope
      split at hfound
      · rename_i binding hbinding
        cases hfound
        exact h.values id scope hscope hid _
          (List.mem_map_of_mem (Record.mem_of_get?_eq_some hbinding))
      · obtain ⟨p, hp, hfound⟩ := Option.bind_eq_some_iff.mp hfound
        exact ih (h.parent id scope hscope hid p hp) hfound

theorem lookup (h : σ.Encloses store) (hid : σ.scopes id) (hv : store.lookup id name = .ok v) :
    σ.Admits v := by
  unfold Store.lookup at hv
  split at hv
  · rename_i hfound
    cases hv
    exact h.resolveWithin hid hfound
  · cases hv

theorem assign (h : σ.Encloses store) (hv : σ.Admits v)
    (hnew : store.assign id name v = .ok new) : σ.Encloses new := by
  unfold Store.assign at hnew
  split at hnew
  · cases hnew
  · split at hnew
    · cases hnew
    · cases hnew
      exact h.bind hv _ name _

theorem declare (h : σ.Encloses store) (hv : σ.Admits v) {constant : Bool}
    (hnew : store.declare id name v constant = .ok new) : σ.Encloses new := by
  unfold Store.declare at hnew
  split at hnew
  · cases hnew
  · cases hnew
    exact h.bind hv id name constant

end Encloses

end Setting

end Scriptlet
