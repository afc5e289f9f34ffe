import Scriptlet.Proofs.Heap.History

/-!
# Heaps that cannot be told apart

Two heaps are alike for some owners if both have a history with these owners, in which handles to
scopes are only given up through the collector, and they agree on what the owners lead to. Nothing
else can be looked at through the owners, so whatever is done through them has the same outcome in
both heaps and leaves them alike. The collector of either heap may do as it likes
(`Alike.collect_left`), and the two may keep different candidates.
-/

namespace Scriptlet.Heap

open Store (Agree Collected ownedNodes)

variable {heap first second : Heap} {owners owners' : List Owner} {borrowed : List ScopeId}
  {id : ScopeId}

/-- Two heaps that cannot be told apart through some owners. The collector of the first one frees
what it can. -/
structure Alike (owners : List Owner) (first second : Heap) : Prop where
  left : History False owners first
  right : History False owners second
  reclaims : first.reclaims = true
  agree : Agree owners first.store second.store

theorem reclaims_release :
    (heap.release owners borrowed id).reclaims = heap.reclaims := by
  unfold release remember
  dsimp only
  split <;> [rfl; split <;> [rfl; split <;> [rfl; split <;> rfl]]]

namespace Alike

theorem refl (h : History False owners heap) (hreclaims : heap.reclaims = true) :
    Alike owners heap heap := ⟨h, h, hreclaims, .refl owners heap.store⟩

theorem reachable_right (h : Alike owners first second) {n : Node}
    (hn : n ∈ first.store.reachable owners) : n ∈ second.store.reachable owners :=
  h.agree.reachable_eq ▸ hn

theorem of_owned (h : Alike owners first second)
    (howned : ownedNodes owners' ⊆ first.store.reachable owners)
    (hhandles : ∀ id, .scope id ∈ owners → .scope id ∈ owners') : Alike owners' first second :=
  ⟨h.left.take howned hhandles, h.right.take (fun _ hn => h.reachable_right (howned hn)) hhandles,
    h.reclaims, h.agree.of_owned howned⟩

/-- Only which owners there are matters. -/
theorem congr (h : Alike owners first second) (hsame : ∀ o, o ∈ owners' ↔ o ∈ owners) :
    Alike owners' first second :=
  h.of_owned (Store.owned_subset_reachable fun o ho => (hsame o).mp ho) fun _ => (hsame _).mpr

theorem newId (h : Alike owners first second) {v : Value}
    (hv : ∀ n, v.node? = some n → n.id = first.store.fresh ∧
      ∀ m ∈ first.store.edges n, m ∈ first.store.reachable owners) :
    Alike (.value v :: owners) { first with store := first.store.newId.2 }
      { second with store := second.store.newId.2 } :=
  ⟨h.left.newId hv, h.right.newId (h.agree.new_right hv), h.reclaims,
    h.agree.newId fun n hn => (hv n hn).2⟩

theorem newScope (h : Alike owners first second) {parent : Option ScopeId}
    (hparent : ∀ p, parent = some p → .scope p ∈ first.store.reachable owners) :
    Alike (.scope first.store.fresh :: owners)
      { first with store := (first.store.newScope parent).2 }
      { second with store := (second.store.newScope parent).2 } := by
  refine ⟨h.left.newScope parent hparent, ?_, h.reclaims, h.agree.newScope h.left.sound hparent⟩
  rw [← h.agree.fresh]
  exact h.right.newScope parent fun p hp => h.reachable_right (hparent p hp)

theorem bind (h : Alike owners first second) (hid : .scope id ∈ first.store.reachable owners)
    {name : String} {binding : Binding}
    (hv : ∀ n, binding.value.node? = some n → n ∈ first.store.reachable owners) :
    Alike owners { first with store := first.store.bind id name binding }
      { second with store := second.store.bind id name binding } :=
  ⟨h.left.bind hid name hv,
    h.right.bind (h.reachable_right hid) name fun n hn => h.reachable_right (hv n hn),
    h.reclaims, h.agree.bind hid hv⟩

/-- What the owners lead to without one of them. -/
theorem agree_tail (h : Alike (.scope id :: owners) first second) :
    Agree owners first.store second.store :=
  h.agree.of_owned (Store.owned_subset_reachable (List.subset_cons_self _ _))

theorem release (h : Alike (.scope id :: owners) first second) {borrowed' : List ScopeId} :
    Alike owners (first.release owners borrowed id) (second.release owners borrowed' id) := by
  refine ⟨h.left.release borrowed, h.right.release borrowed', reclaims_release.trans h.reclaims, ?_⟩
  exact (h.agree_tail.collected_left (release_spec h.left.sound).1).collected_right
    (release_spec h.right.sound).1

/-- **A collection in one of the heaps goes unnoticed.** -/
theorem collect_left (h : Alike owners first second) :
    Alike owners (first.collect owners borrowed) second :=
  ⟨h.left.collect borrowed, h.right, h.reclaims,
    h.agree.collected_left (collected_collect h.left.sound)⟩

theorem erase (h : Alike (.scope id :: owners) first second)
    (hfirst : .scope id ∉ first.store.handles owners)
    (hsecond : .scope id ∉ second.store.handles owners) :
    Alike owners { first with store := first.store.erase id }
      { second with store := second.store.erase id } := by
  refine ⟨h.left.erase hfirst, h.right.erase hsecond, h.reclaims, ?_⟩
  have hsub : owners ⊆ .scope id :: owners := List.subset_cons_self _ _
  have hleft := (h.left.sound.mono hsub).collected_erase hfirst
  have hright := (h.right.sound.mono hsub).collected_erase hsecond
  exact (h.agree_tail.collected_left hleft).collected_right hright

end Alike

end Scriptlet.Heap
