import Scriptlet.Proofs.Heap.Collection

/-!
# Collecting takes away and adds nothing

Sweeping, scanning and giving up handles remove bindings and scopes and do nothing else. This is true
of every store and for any owners; that nothing is lost that is still needed is another matter, and
takes a sound store.
-/

namespace Scriptlet

namespace Store

variable {store new : Store} {id : ScopeId}

theorem reduces_sweepRounds (owners : List Owner) (rounds : Nat) (store : Store) :
    Reduces (sweepRounds owners rounds store) store := by
  induction rounds generalizing store with
  | zero => exact .refl store
  | succ rounds ih =>
    rw [sweepRounds_succ]
    split
    · exact .refl store
    · exact (drops_sweepOnce store owners).reduces.trans (ih _)

theorem reduces_sweep (store : Store) (owners : List Owner) : Reduces (store.sweep owners) store :=
  reduces_sweepRounds owners _ store

end Store

namespace Heap

open Store (Reduces)

variable {store new : Store} {reclaims : Bool} {owners : List Owner} {borrowed ids : List ScopeId}
  {id : ScopeId}

theorem reduces_free (h : Heap.free? reclaims owners borrowed store id = some new) :
    Reduces (new.sweep owners) store := by
  unfold free? at h
  split at h
  · exact (Store.reduces_free h).trans (Store.reduces_sweep new owners)
  · cases h

theorem reduces_collect (owners : List Owner) (borrowed : List ScopeId) (heap : Heap) :
    Reduces (heap.collect owners borrowed).store heap.store := by
  refine rescan_induction (P := fun current => Reduces current heap.store)
    (Store.reduces_sweep heap.store owners) ?_
  intro current hcurrent id _ scope _ new hnew
  exact hcurrent.trans (reduces_free hnew)

theorem reduces_remember (owners : List Owner) (borrowed : List ScopeId) (id : ScopeId)
    (heap : Heap) : Reduces (heap.remember owners borrowed id).store heap.store := by
  unfold remember
  dsimp only
  split
  · exact reduces_collect owners borrowed _
  · exact .refl heap.store

/-- **Giving up a handle adds nothing to the store.** -/
theorem reduces_release (owners : List Owner) (borrowed : List ScopeId) (id : ScopeId)
    (heap : Heap) : Reduces (heap.release owners borrowed id).store heap.store := by
  have hswept := Store.reduces_sweep heap.store (.scope id :: owners)
  unfold release
  dsimp only
  split
  · exact .erase heap.store id
  · split
    · exact hswept.trans (.erase _ id)
    · split
      · rename_i new hnew
        exact hswept.trans (reduces_free hnew)
      · exact hswept.trans (reduces_remember owners borrowed id _)

end Heap

end Scriptlet
