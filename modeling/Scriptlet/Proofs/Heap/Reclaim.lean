import Scriptlet.Proofs.Heap.Collection

/-!
# Scopes go as a whole

The collector empties a scope only to free it. Seen from outside, when it is done, no scope has lost
some of its bindings and kept the rest: each is as it was or gone (`Store.Reclaimed`). A scan alone
does not have this property, since it leaves emptied scopes behind; but those do not survive the
sweep after it.
-/

namespace Scriptlet

namespace Store

variable {store new old : Store} {owners owners' : List Owner} {id : ScopeId}

/-- A store after collecting in an earlier one, with every scope as it was or gone. -/
structure Reclaimed (owners : List Owner) (new old : Store) : Prop
    extends Collected owners new old where
  whole : ∀ id, new.scope? id = old.scope? id ∨ new.scope? id = none

namespace Reclaimed

theorem refl (h : store.Sound owners) : Reclaimed owners store store :=
  ⟨.refl h, fun _ => .inl rfl⟩

theorem trans {first second third : Store} (h : Reclaimed owners second first)
    (h' : Reclaimed owners third second) : Reclaimed owners third first := by
  refine ⟨h.toCollected.trans h'.toCollected, fun id => ?_⟩
  rcases h'.whole id with heq | hnone
  · exact (h.whole id).imp heq.trans heq.trans
  · exact .inr hnone

theorem mono (h : Reclaimed owners new old) (hsub : owners' ⊆ owners) :
    Reclaimed owners' new old := ⟨h.toCollected.mono hsub, h.whole⟩

end Reclaimed

theorem Sound.reclaimed_erase (h : store.Sound owners)
    (hunheld : .scope id ∉ store.handles owners) : Reclaimed owners (store.erase id) store := by
  refine ⟨h.collected_erase hunheld, fun other => ?_⟩
  rw [scope?_erase]
  split
  · exact .inr rfl
  · exact .inl rfl

theorem sweepRounds_whole (owners : List Owner) (rounds : Nat) (store : Store) (id : ScopeId) :
    (sweepRounds owners rounds store).scope? id = store.scope? id ∨
      (sweepRounds owners rounds store).scope? id = none := by
  induction rounds generalizing store with
  | zero => exact .inl rfl
  | succ rounds ih =>
    rw [sweepRounds_succ]
    split
    · exact .inl rfl
    · have honce := scope?_sweepOnce store owners id
      split at honce
      · rw [← honce]
        exact ih (store.sweepOnce owners)
      · rcases ih (store.sweepOnce owners) with heq | hnone
        · exact .inr (heq.trans honce)
        · exact .inr hnone

theorem Sound.reclaimed_sweep (h : store.Sound owners) :
    Reclaimed owners (store.sweep owners) store :=
  ⟨h.collected_sweep, sweepRounds_whole owners _ store⟩

/-- **What a scan empties is gone after the sweep.** -/
theorem Sound.reclaimed_free (h : store.Sound owners) (hid : .scope id ∈ store.present owners)
    {borrowed : List ScopeId} (hfree : store.free? owners borrowed id = some new) :
    Reclaimed owners (new.sweep owners) store := by
  have hnew := h.collected_free hid hfree
  refine ⟨hnew.trans hnew.sound.collected_sweep, fun other => ?_⟩
  by_cases hcondemned :
      .scope other ∈ store.condemned owners (store.viewFrom borrowed id) id
  · exact .inr (h.gone_of_condemned hid hfree other hcondemned)
  · rw [← scope?_of_not_condemned h hid hfree hcondemned]
    exact sweepRounds_whole owners _ new other

end Store

namespace Heap

open Store (Reclaimed)

variable {heap : Heap} {store new : Store} {reclaims : Bool} {owners : List Owner}
  {borrowed ids : List ScopeId} {id : ScopeId}

theorem reclaimed_free (h : store.Sound owners) {scope : Scope} (hid : store.scope? id = some scope)
    (hfree : Heap.free? reclaims owners borrowed store id = some new) :
    Reclaimed owners (new.sweep owners) store := by
  unfold free? at hfree
  split at hfree
  · exact h.reclaimed_free (Store.present_of_scope hid) hfree
  · simp at hfree

theorem reclaimed_collect (h : heap.store.Sound owners) :
    Reclaimed owners (heap.collect owners borrowed).store heap.store := by
  refine h.reclaimed_sweep.trans (rescan_induction
    (P := fun current => Reclaimed owners current (heap.store.sweep owners))
    (.refl h.collected_sweep.sound) ?_)
  intro current hcurrent id _ scope hs new hnew
  exact hcurrent.trans (reclaimed_free hcurrent.sound hs hnew)

theorem reclaimed_remember (h : heap.store.Sound owners) :
    Reclaimed owners (heap.remember owners borrowed id).store heap.store := by
  unfold remember
  dsimp only
  split
  · exact reclaimed_collect h
  · exact .refl h

/-- **Giving up a handle leaves every scope as it was or takes it away.** -/
theorem reclaimed_release (h : heap.store.Sound (.scope id :: owners)) :
    Reclaimed owners (heap.release owners borrowed id).store heap.store := by
  have hsub : owners ⊆ .scope id :: owners := List.subset_cons_self _ _
  have hswept := h.reclaimed_sweep
  have hless := hswept.mono hsub
  obtain ⟨scope, hs⟩ := hswept.sound.scope_exists id
    (Store.present_of_owned ⟨_, List.mem_cons_self, rfl⟩)
  unfold release
  dsimp only
  split
  · rename_i hunowned
    exact (h.mono hsub).reclaimed_erase (Store.not_held_of_isOwned (by simpa using hunowned))
  · split
    · rename_i hunowned
      have hunheld := Store.not_held_of_isOwned (by simpa using hunowned)
      exact hless.trans (hless.sound.reclaimed_erase hunheld)
    · split
      · rename_i new hnew
        exact hless.trans (reclaimed_free hless.sound hs hnew)
      · exact hless.trans (reclaimed_remember hless.sound)

end Heap

end Scriptlet
