import Scriptlet.Proofs.Heap.Change
import Scriptlet.Proofs.Heap.Reclaim

/-!
# The course of a run

A run starts from a sound heap. It works through some owners, while others hold on to what they
have. `Course` has every heap that it can bring about: it makes scopes, functions and objects over
what its owners lead to, binds names in scopes that they lead to, lets owners go, and the collector
runs in between. A binding is written only as programs do it (`Store.Writes`).

Three things hold of every heap on the way.

- A scope that was there at the start is gone or has all its names, with the values of its constants,
  and has new names only if names may be declared in it (`Course.evolves`).
- The owners lead to nothing but what they led to at the start, and what is new
  (`Course.reachable_subset`).
- A scope that they did not lead to at the start is gone or as it was (`Course.untouched`), and as
  it was if any of the others led to it (`Course.kept_of_others`).
-/

namespace Scriptlet

/-! ## Scopes later in a run -/

namespace Scope

/-- A scope compared with itself earlier in a run. It has its parent, its names, and the values of
its constants; and no other names, unless names may be declared in it. -/
structure Evolves (declares : Prop) (before now : Scope) : Prop where
  parent : now.parent = before.parent
  kept : ∀ name old, before.bindings.get? name = some old →
    ∃ new, now.bindings.get? name = some new ∧ new.constant = old.constant ∧
      (old.constant = true → new.value = old.value)
  names : ¬declares → now.bindings.names = before.bindings.names

namespace Evolves

variable {declares declares' : Prop} {first second third : Scope}

theorem refl (declares : Prop) (scope : Scope) : Evolves declares scope scope :=
  ⟨rfl, fun _ old hold => ⟨old, hold, rfl, fun _ => rfl⟩, fun _ => rfl⟩

theorem trans (h : Evolves declares first second) (h' : Evolves declares second third) :
    Evolves declares first third := by
  refine ⟨h'.parent.trans h.parent, fun name old hold => ?_, fun hdeclares =>
    (h'.names hdeclares).trans (h.names hdeclares)⟩
  obtain ⟨middle, hmiddle, hconstant, hvalue⟩ := h.kept name old hold
  obtain ⟨new, hnew, hconstant', hvalue'⟩ := h'.kept name middle hmiddle
  refine ⟨new, hnew, hconstant'.trans hconstant, fun htrue => ?_⟩
  exact (hvalue' (hconstant.trans htrue)).trans (hvalue htrue)

theorem mono (h : Evolves declares first second) (himp : declares → declares') :
    Evolves declares' first second :=
  ⟨h.parent, h.kept, fun hnot => h.names fun hdeclares => hnot (himp hdeclares)⟩

/-- What a program may write evolves a scope. -/
theorem write {store : Store} {allowed : ScopeId → Prop} {id : ScopeId} {scope : Scope}
    {name : String} {binding : Binding} (hwrites : store.Writes allowed id name binding)
    (hs : store.scope? id = some scope) :
    Evolves (allowed id) scope
      { scope with bindings := Record.put name binding scope.bindings } := by
  have hbindings : store.bindings id = scope.bindings := by simp [Store.bindings, hs]
  cases hwrites with
  | declare hallowed hnew v constant =>
    rw [hbindings] at hnew
    refine ⟨rfl, fun other old hold => ⟨old, ?_, rfl, fun _ => rfl⟩, fun hnot => absurd hallowed hnot⟩
    have hne : name ≠ other := fun heq => by simp [heq, hold] at hnew
    rw [Record.get?_put, if_neg hne, hold]
  | @assign old hold hvariable v =>
    rw [hbindings] at hold
    refine ⟨rfl, fun other earlier hother => ?_, fun _ => ?_⟩
    · rw [Record.get?_put]
      split
      · rename_i heq
        subst heq
        cases hold.symm.trans hother
        exact ⟨_, rfl, rfl, fun hconstant => absurd hconstant (by simp [hvariable])⟩
      · exact ⟨earlier, hother, rfl, fun _ => rfl⟩
    · have hname : name ∈ scope.bindings.names :=
        List.mem_map_of_mem (Record.mem_of_get?_eq_some hold)
      rw [Record.names_put, if_pos hname]

end Evolves

end Scope

namespace Heap

open Store (Reclaimed ownedNodes)

/-! ## What a run can do -/

/-- Where a run starts: a sound heap, the owners that the run works through and the others, and the
scopes in which it may declare names. -/
structure Outset where
  heap : Heap
  owners : List Owner
  others : List Owner
  declares : ScopeId → Prop
  sound : heap.store.Sound (owners ++ others)

/-- A run may declare names in new scopes as well. -/
def Outset.admits (o : Outset) (id : ScopeId) : Prop := o.declares id ∨ o.heap.store.fresh ≤ id

/-- A heap that a run can bring about, with the owners that it works through by then. -/
inductive Course (o : Outset) : List Owner → Heap → Prop where
  | start : Course o o.owners o.heap
  /-- Owners are exchanged for others of what they lead to. -/
  | take {owners owners' : List Owner} {heap : Heap} (h : Course o owners heap)
    (howned : ownedNodes owners' ⊆ heap.store.reachable owners) : Course o owners' heap
  | newScope {owners : List Owner} {heap : Heap} (h : Course o owners heap)
    (parent : Option ScopeId)
    (hparent : ∀ p, parent = some p → .scope p ∈ heap.store.reachable owners) :
    Course o (.scope heap.store.fresh :: owners)
      { heap with store := (heap.store.newScope parent).2 }
  /-- A function or an object is made over what the owners lead to. -/
  | newId {owners : List Owner} {heap : Heap} (h : Course o owners heap) {v : Value}
    (hv : ∀ n, v.node? = some n → n.id = heap.store.fresh ∧
      ∀ m ∈ heap.store.edges n, m ∈ heap.store.reachable owners) :
    Course o (.value v :: owners) { heap with store := heap.store.newId.2 }
  | bind {owners : List Owner} {heap : Heap} (h : Course o owners heap) {id : ScopeId}
    (hid : .scope id ∈ heap.store.reachable owners) {name : String} {binding : Binding}
    (hwrites : heap.store.Writes o.admits id name binding)
    (hv : heap.store.Knows owners binding.value) :
    Course o owners { heap with store := heap.store.bind id name binding }
  /-- Owners are let go, and what only they held on to may go. -/
  | collect {owners owners' : List Owner} {heap next : Heap} (h : Course o owners heap)
    (howners : owners' ⊆ owners)
    (hnext : Reclaimed (owners' ++ o.others) next.store heap.store) : Course o owners' next

namespace Course

variable {o : Outset} {owners owners' : List Owner} {heap next : Heap} {id : ScopeId}
  {scope : Scope}

/-- Only which owners there are matters. -/
theorem congr (h : Course o owners heap) (hsame : ∀ w, w ∈ owners' ↔ w ∈ owners) :
    Course o owners' heap :=
  h.take (Store.owned_subset_reachable fun w hw => (hsame w).mp hw)

/-- **Every heap on the way is sound.** -/
theorem sound (h : Course o owners heap) : heap.store.Sound (owners ++ o.others) := by
  have hwide : ∀ (store : Store) (owners : List Owner),
      store.reachable owners ⊆ store.present (owners ++ o.others) := fun store owners _ hn =>
    Store.present_of_reachable (Store.reachable_mono (List.subset_append_left _ _) hn)
  induction h with
  | start => exact o.sound
  | take _ howned ih =>
    refine ih.of_owned ?_
    rw [Store.ownedNodes_append]
    intro n hn
    rcases hn with hn | hn
    · exact hwide _ _ (howned hn)
    · exact Store.present_of_owned (Store.ownedNodes_mono (List.subset_append_right _ _) hn)
  | newScope _ parent hparent ih => exact ih.newScope fun p hp => hwide _ _ (hparent p hp)
  | newId _ hv ih =>
    refine ih.newId fun n hn => ?_
    obtain ⟨hid, hedges⟩ := hv n hn
    exact ⟨hid, fun m hm => hwide _ _ (hedges m hm)⟩
  | bind _ _ _ hv ih => exact ih.bind fun n hn => hwide _ _ (hv n hn)
  | collect _ _ hnext _ => exact hnext.sound

theorem fresh_le (h : Course o owners heap) : o.heap.store.fresh ≤ heap.store.fresh := by
  induction h with
  | start => exact Nat.le_refl _
  | take _ _ ih => exact ih
  | newScope _ parent _ ih => exact Nat.le_succ_of_le ih
  | newId _ _ ih => exact Nat.le_succ_of_le ih
  | bind _ _ _ _ ih => rwa [Store.fresh_bind]
  | collect _ _ hnext ih => rwa [hnext.fresh]

theorem id_lt (hs : o.heap.store.scope? id = some scope) : id < o.heap.store.fresh :=
  o.sound.id_lt _ (Store.present_of_scope hs)

/-- A scope that was there at the start is not made anew. -/
theorem fresh_ne (h : Course o owners heap) (hid : id < o.heap.store.fresh) :
    heap.store.fresh ≠ id :=
  Nat.ne_of_gt (Nat.lt_of_lt_of_le hid h.fresh_le)

/-! ## Names and constants -/

/-- **A scope that was there at the start has evolved or is gone.** -/
theorem evolves (h : Course o owners heap) (hs : o.heap.store.scope? id = some scope) :
    heap.store.scope? id = none ∨
      ∃ now, heap.store.scope? id = some now ∧ scope.Evolves (o.declares id) now := by
  have hid := id_lt hs
  induction h with
  | start => exact .inr ⟨scope, hs, .refl _ scope⟩
  | take _ _ ih => exact ih
  | newScope h parent _ ih => rwa [Store.scope?_newScope, if_neg (h.fresh_ne hid)]
  | newId _ _ ih => exact ih
  | @bind _ heap _ target _ name binding hwrites _ ih =>
    rw [Store.scope?_bind]
    split
    · rename_i heq
      subst heq
      refine ih.imp (fun hnone => by rw [hnone]; rfl) fun hsome => ?_
      obtain ⟨now, hnow, hevolves⟩ := hsome
      have hold : o.admits target → o.declares target := fun hadmits =>
        hadmits.resolve_right (Nat.not_le_of_lt hid)
      exact ⟨_, by rw [hnow]; rfl, hevolves.trans ((Scope.Evolves.write hwrites hnow).mono hold)⟩
    · exact ih
  | collect _ _ hnext ih =>
    rcases hnext.whole id with heq | hnone
    · rwa [heq]
    · exact .inl hnone

/-! ## Confinement -/

/-- **The owners lead to what they led to at the start, and to what is new.** -/
theorem reachable_subset (h : Course o owners heap) :
    heap.store.reachable owners ⊆
      {n | n ∈ o.heap.store.reachable o.owners ∨ o.heap.store.fresh ≤ n.id} := by
  induction h with
  | start => exact fun n hn => .inl hn
  | take _ howned ih =>
    exact fun n hn =>
      ih (Store.reachable_subset howned (fun _ hm _ => Store.reachable_of_edge hm) hn)
  | newScope h parent hparent ih =>
    have hsound := h.sound.mono (List.subset_append_left _ _)
    intro n hn
    rcases hsound.reachable_newScope_subset hparent hn with rfl | hn
    · exact .inr h.fresh_le
    · exact ih hn
  | newId h hv ih =>
    intro n hn
    rcases Store.Agree.reachable_newId_subset (fun n hn => (hv n hn).2) hn with hn | hn
    · exact .inr ((hv n hn).1 ▸ h.fresh_le)
    · exact ih hn
  | bind _ _ _ hv ih => exact fun n hn => ih (Store.reachable_bind_subset hv hn)
  | collect _ howners hnext ih => exact fun n hn => ih (hnext.reachable_subset howners hn)

/-- **A scope that the owners did not lead to at the start is as it was or gone.** -/
theorem untouched (h : Course o owners heap) (hid : id < o.heap.store.fresh)
    (hout : .scope id ∉ o.heap.store.reachable o.owners) :
    heap.store.scope? id = o.heap.store.scope? id ∨ heap.store.scope? id = none := by
  induction h with
  | start => exact .inl rfl
  | take _ _ ih => exact ih
  | newScope h parent _ ih => rwa [Store.scope?_newScope, if_neg (h.fresh_ne hid)]
  | newId _ _ ih => exact ih
  | @bind _ heap h target htarget name binding _ _ ih =>
    have hne : target ≠ id := by
      rintro rfl
      rcases h.reachable_subset htarget with hin | hnew
      · exact hout hin
      · exact Nat.not_le_of_lt hid hnew
    rwa [Store.scope?_bind, if_neg hne]
  | collect _ _ hnext ih =>
    rcases hnext.whole id with heq | hnone
    · rwa [heq]
    · exact .inr hnone

/-- What the others led to at the start, and the owners did not, the others still lead to. -/
theorem reachable_of_others (h : Course o owners heap) {n : Node}
    (hn : n ∈ o.heap.store.reachable o.others) (hout : n ∉ o.heap.store.reachable o.owners) :
    n ∈ heap.store.reachable o.others := by
  obtain ⟨r, hr, hleads⟩ := hn
  -- On a path that ends where the owners did not lead, they led to no node.
  induction hleads with
  | refl => exact Store.reachable_of_owned hr
  | @tail m n hm hedge ih =>
    have houtm : m ∉ o.heap.store.reachable o.owners := fun hin =>
      hout (Store.reachable_of_edge hin hedge)
    have hnow := ih houtm
    refine Store.reachable_of_edge hnow ?_
    cases m with
    | function f => exact hedge
    | object id fields => exact hedge
    | scope id =>
      have hpresent : .scope id ∈ heap.store.present (owners ++ o.others) :=
        Store.present_of_reachable (Store.reachable_mono (List.subset_append_right _ _) hnow)
      obtain ⟨scope, hscope⟩ := h.sound.scope_exists id hpresent
      obtain ⟨before, hbefore, hedge⟩ := Store.mem_edges_scope.mp hedge
      have hsame := (h.untouched (id_lt hbefore) houtm).resolve_right (by simp [hscope])
      exact Store.mem_edges_scope.mpr ⟨before, hsame.trans hbefore, hedge⟩

/-- **A scope that only others led to at the start is as it was.** -/
theorem kept_of_others (h : Course o owners heap)
    (hin : .scope id ∈ o.heap.store.reachable (o.owners ++ o.others))
    (hout : .scope id ∉ o.heap.store.reachable o.owners) :
    heap.store.scope? id = o.heap.store.scope? id := by
  have hothers : .scope id ∈ o.heap.store.reachable o.others := by
    obtain ⟨r, hr, hleads⟩ := hin
    rw [Store.ownedNodes_append] at hr
    exact ⟨r, hr.resolve_left fun hr => hout ⟨r, hr, hleads⟩, hleads⟩
  have hpresent : .scope id ∈ heap.store.present (owners ++ o.others) :=
    Store.present_of_reachable (Store.reachable_mono (List.subset_append_right _ _)
      (h.reachable_of_others hothers hout))
  obtain ⟨scope, hscope⟩ := h.sound.scope_exists id hpresent
  obtain ⟨before, hbefore⟩ := o.sound.scope_exists id (Store.present_of_reachable hin)
  exact (h.untouched (id_lt hbefore) hout).resolve_right (by simp [hscope])

end Course

end Heap

end Scriptlet
