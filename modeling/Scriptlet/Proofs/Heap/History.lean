import Scriptlet.Proofs.Heap.Change
import Scriptlet.Proofs.Heap.Collection

/-!
# Heaps and their histories

Whoever uses a heap starts with nothing, makes scopes, functions and objects over what the handles
lead to, binds names, and takes and drops handles; all in any order, with the collector running in
between. `History` has every heap that can come about in this way, with the handles to it.

Each move keeps the store sound (`History.sound`). So whatever was done before, the collector leaves
every scope alone that a remaining handle leads to (`History.kept`): when a handle is given up the
others count, and it makes no difference whether scopes are borrowed.

If no handle to a scope is dropped behind the collector's back, then no scope is forgotten either
(`History.registered`).
-/

namespace Scriptlet.Heap

open Store (Collected ownedNodes)

/-! ## What can be done -/

/-- A heap that came about by moves of its owners and of the collector. The owners may be free to
drop handles to scopes without giving them up. -/
inductive History (drops : Prop) : List Owner → Heap → Prop where
  | empty : History drops [] Heap.empty
  /-- Handles are taken to what the owners lead to, and hold of values is dropped. -/
  | take {owners owners' : List Owner} {heap : Heap} (h : History drops owners heap)
    (howned : ownedNodes owners' ⊆ heap.store.reachable owners)
    (hhandles : ∀ id, .scope id ∈ owners → .scope id ∈ owners') : History drops owners' heap
  /-- Any handles are dropped. -/
  | drop {owners owners' : List Owner} {heap : Heap} (hdrops : drops)
    (h : History drops owners heap) (howners : owners' ⊆ owners) : History drops owners' heap
  | newScope {owners : List Owner} {heap : Heap} (h : History drops owners heap)
    (parent : Option ScopeId)
    (hparent : ∀ p, parent = some p → .scope p ∈ heap.store.reachable owners) :
    History drops (.scope heap.store.fresh :: owners)
      { heap with store := (heap.store.newScope parent).2 }
  /-- A function or an object is made over what the owners lead to. -/
  | newId {owners : List Owner} {heap : Heap} (h : History drops owners heap) {v : Value}
    (hv : ∀ n, v.node? = some n → n.id = heap.store.fresh ∧
      ∀ m ∈ heap.store.edges n, m ∈ heap.store.reachable owners) :
    History drops (.value v :: owners) { heap with store := heap.store.newId.2 }
  | bind {owners : List Owner} {heap : Heap} (h : History drops owners heap) {id : ScopeId}
    (hid : .scope id ∈ heap.store.reachable owners) (name : String) {binding : Binding}
    (hv : heap.store.Knows owners binding.value) :
    History drops owners { heap with store := heap.store.bind id name binding }
  | clear {owners : List Owner} {heap : Heap} (h : History drops owners heap) (id : ScopeId) :
    History drops owners { heap with store := heap.store.clear id }
  /-- Scopes that lost their last owner go. -/
  | sweep {owners : List Owner} {heap : Heap} (h : History drops owners heap) :
    History drops owners { heap with store := heap.store.sweep owners }
  /-- The only handle to a scope is dropped, and the scope goes. -/
  | erase {owners : List Owner} {heap : Heap} {id : ScopeId}
    (h : History drops (.scope id :: owners) heap)
    (hunheld : .scope id ∉ heap.store.handles owners) :
    History drops owners { heap with store := heap.store.erase id }
  | release {owners : List Owner} {heap : Heap} {id : ScopeId}
    (h : History drops (.scope id :: owners) heap) (borrowed : List ScopeId) :
    History drops owners (heap.release owners borrowed id)
  | collect {owners : List Owner} {heap : Heap} (h : History drops owners heap)
    (borrowed : List ScopeId) : History drops owners (heap.collect owners borrowed)
  /-- The collector frees nothing from now on. -/
  | keepAll {owners : List Owner} {heap : Heap} (h : History drops owners heap) :
    History drops owners heap.keepingAll

/-- What the collector makes of a heap, with the handles that remain. -/
inductive Collects : List Owner → Heap → List Owner → Heap → Prop where
  | release (heap : Heap) (owners : List Owner) (borrowed : List ScopeId) (id : ScopeId) :
    Collects (.scope id :: owners) heap owners (heap.release owners borrowed id)
  | collect (heap : Heap) (owners : List Owner) (borrowed : List ScopeId) :
    Collects owners heap owners (heap.collect owners borrowed)

variable {drops : Prop} {heap next : Heap} {owners owners' : List Owner} {id : ScopeId}

namespace History

/-! ## Derived moves -/

/-- Owners that may drop handles may change to any that they lead to. -/
theorem own (h : History True owners heap)
    (howned : ownedNodes owners' ⊆ heap.store.reachable owners) : History True owners' heap := by
  have hboth : ownedNodes (owners' ++ owners) ⊆ heap.store.reachable owners := by
    rw [Store.ownedNodes_append]
    exact Set.union_subset howned fun _ => Store.reachable_of_owned
  exact .drop trivial (h.take hboth fun _ => List.mem_append_right _) (List.subset_append_left _ _)

/-- Only which owners there are matters. -/
theorem congr (h : History drops owners heap) (hsame : ∀ o, o ∈ owners' ↔ o ∈ owners) :
    History drops owners' heap :=
  h.take (Store.owned_subset_reachable fun o ho => (hsame o).mp ho) fun _ => (hsame _).mpr

theorem declare (h : History drops owners heap) (hid : .scope id ∈ heap.store.reachable owners)
    {v : Value} (hv : heap.store.Knows owners v) (name : String) (constant : Bool) {store : Store}
    (hstore : heap.store.declare id name v constant = .ok store) :
    History drops owners { heap with store } := by
  rcases (Store.Agree.refl owners heap.store).declare hid (fun _ => True) trivial name v constant
    with ⟨fault, hfault, -⟩ | ⟨-, hbind, -⟩
  · simp [hfault] at hstore
  · cases hbind.symm.trans hstore
    exact h.bind hid name hv

theorem assign (h : History drops owners heap) (hid : .scope id ∈ heap.store.reachable owners)
    {v : Value} (hv : heap.store.Knows owners v) (name : String) {store : Store}
    (hstore : heap.store.assign id name v = .ok store) :
    History drops owners { heap with store } := by
  rcases (Store.Agree.refl owners heap.store).assign hid (fun _ => True) name v with
    ⟨fault, hfault, -⟩ | ⟨owner, binding, howner, rfl, -, hbind, -⟩
  · simp [hfault] at hstore
  · cases hbind.symm.trans hstore
    exact h.bind howner name hv

/-! ## Safety -/

/-- **Every heap with a history is sound for its owners.** -/
theorem sound (h : History drops owners heap) : heap.store.Sound owners := by
  induction h with
  | empty => exact Store.sound_empty
  | take _ howned _ ih => exact ih.of_owned fun _ hn => Store.present_of_reachable (howned hn)
  | drop _ _ howners ih => exact ih.mono howners
  | newScope _ parent hparent ih =>
    exact ih.newScope fun p hp => Store.present_of_reachable (hparent p hp)
  | newId _ hv ih =>
    refine ih.newId fun n hn => ?_
    obtain ⟨hid, hedges⟩ := hv n hn
    exact ⟨hid, fun m hm => Store.present_of_reachable (hedges m hm)⟩
  | bind _ _ name hv ih => exact ih.bind fun n hn => Store.present_of_reachable (hv n hn)
  | clear _ id ih => exact ih.clear id
  | sweep _ ih => exact ih.collected_sweep.sound
  | erase _ hunheld ih =>
    exact ((ih.mono (List.subset_cons_self _ _)).collected_erase hunheld).sound
  | release _ borrowed ih => exact (release_spec ih).1.sound
  | collect _ borrowed ih => exact (collected_collect ih).sound
  | keepAll _ ih => exact ih

end History

/-- The collector collects. -/
theorem Collects.collected (hcollects : Collects owners heap owners' next)
    (h : heap.store.Sound owners) : Collected owners' next.store heap.store := by
  cases hcollects with
  | release _ _ borrowed id => exact (release_spec h).1
  | collect _ _ borrowed => exact collected_collect h

/-- The handles that remain were there before. -/
theorem Collects.subset (hcollects : Collects owners heap owners' next) : owners' ⊆ owners := by
  cases hcollects with
  | release _ _ borrowed id => exact List.subset_cons_self _ _
  | collect _ _ borrowed => exact List.Subset.refl _

/-- **Whatever was done to a heap before, the collector leaves what the remaining handles lead to as
it was, and changes or removes only scopes that they do not lead to.** -/
theorem History.kept (h : History drops owners heap)
    (hcollects : Collects owners heap owners' next) :
    (∀ id, .scope id ∈ heap.store.reachable owners' →
      ∃ scope, heap.store.scope? id = some scope ∧ next.store.scope? id = some scope) ∧
    ∀ id, next.store.scope? id ≠ heap.store.scope? id →
      .scope id ∉ heap.store.reachable owners' := by
  have hcollected := hcollects.collected h.sound
  refine ⟨fun id hid => ?_, fun id hne hid => hne (hcollected.keeps id hid)⟩
  have hbefore := (h.sound.mono hcollects.subset).scope_exists id (Store.present_of_reachable hid)
  obtain ⟨scope, hscope⟩ := hbefore
  exact ⟨scope, hscope, (hcollected.keeps id hid).trans hscope⟩

/-- A scope whose handle is given up keeps its bindings while a function over it has a handle. -/
theorem kept_under_function :
    let f : Function := ⟨1, "f", [], ⟨[], ⟨0, 0, 0, 0⟩⟩, 0⟩
    let bound := (Store.empty.newScope none).2.newId.2.bind 0 "f" ⟨.function f, false⟩
    let released := Heap.release [.value (.function f)] [] 0 { Heap.empty with store := bound }
    ∃ scope, scope.bindings = [("f", ⟨.function f, false⟩)] ∧ bound.scope? 0 = some scope ∧
      released.store.scope? 0 = some scope := by
  intro f bound released
  have hscope : History False [.scope 0]
      { Heap.empty with store := (Store.empty.newScope none).2 } :=
    History.newScope .empty none (by simp)
  have hfunction : History False [.value (.function f), .scope 0]
      { Heap.empty with store := (Store.empty.newScope none).2.newId.2 } := by
    refine hscope.newId fun n hn => ?_
    cases hn
    refine ⟨rfl, fun m hm => ?_⟩
    obtain rfl := List.mem_singleton.mp hm
    exact Store.reachable_of_scope_mem List.mem_cons_self
  have hbound : History False [.value (.function f), .scope 0] { Heap.empty with store := bound } :=
    hfunction.bind (Store.reachable_of_scope_mem (List.mem_cons_of_mem _ List.mem_cons_self)) "f"
      (Store.knows_of_mem List.mem_cons_self)
  have hswapped : History False [.scope 0, .value (.function f)]
      { Heap.empty with store := bound } := hbound.congr fun _ => (List.Perm.swap _ _ _).mem_iff
  have hclosure : .scope 0 ∈ bound.reachable [.value (.function f)] := by
    have hf : .function f ∈ bound.reachable [.value (.function f)] :=
      Store.reachable_of_owned ⟨_, List.mem_cons_self, rfl⟩
    exact Store.reachable_of_edge hf List.mem_cons_self
  obtain ⟨scope, hbefore, hafter⟩ := (hswapped.kept (.release _ _ [] 0)).1 0 hclosure
  refine ⟨scope, ?_, hbefore, hafter⟩
  cases hbefore
  rfl

/-! ## No scope is forgotten -/

/-- **If handles to scopes are only given up through the collector, every scope has one or is a
candidate.** -/
theorem History.registered (h : History False owners heap) : heap.Registered owners := by
  induction h with
  | empty => exact fun id scope hs => by simp [Heap.empty] at hs
  | take _ _ hhandles ih => exact fun id scope hs => (ih id scope hs).imp_left (hhandles id)
  | drop hdrops _ _ _ => exact hdrops.elim
  | newScope _ parent _ ih =>
    intro id scope hs
    rw [Store.scope?_newScope] at hs
    split at hs
    · rename_i heq
      exact .inl (heq ▸ List.mem_cons_self)
    · exact (ih id scope hs).imp_left (List.mem_cons_of_mem _)
  | newId _ _ ih => exact fun id scope hs => (ih id scope hs).imp_left (List.mem_cons_of_mem _)
  | bind _ _ name _ ih =>
    intro id scope hs
    obtain ⟨before, hbefore, -⟩ := Store.bind_scope hs
    exact ih id before hbefore
  | @clear _ heap _ id ih => exact Registered.of_reduces ih (.clear heap.store id)
  | sweep h ih => exact Registered.of_reduces ih h.sound.collected_sweep.toReduces
  | @erase _ heap id _ _ ih => exact Registered.of_gone ih (.erase heap.store id) (by simp)
  | release h borrowed ih => exact (release_spec h.sound).2 ih
  | collect h borrowed ih => exact registered_collect h.sound ih
  | keepAll _ ih => exact ih

theorem History.orderly (h : History False owners heap) : heap.Orderly owners :=
  ⟨h.sound, h.registered⟩

end Scriptlet.Heap
