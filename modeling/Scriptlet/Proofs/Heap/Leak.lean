import Scriptlet.Proofs.Heap.Collection
import Scriptlet.Proofs.Heap.Component

/-!
# What one collection leaves behind

A pass gives every candidate one turn, in the order of the candidates and in the store as the turns
before have left it. A candidate that is neither reachable nor topmost when its turn comes is taken
for live. It is not looked at again in the pass, so it stays pending whatever becomes of the scopes
that held on to it. `Heap.clean_collect_iff` says that nothing else goes wrong: a collection leaves
nothing unreachable behind exactly if no turn is such a turn.
-/

namespace Scriptlet.Heap

open Store (Collected)

variable {heap : Heap} {store : Store} {owners : List Owner} {ids : List ScopeId} {id : ScopeId}

/-- The turns of a pass: each candidate with the store that it is scanned in. -/
def turns (owners : List Owner) : List ScopeId → Store → List (ScopeId × Store)
  | [], _ => []
  | id :: rest, store =>
    let next := if store.holds id then (store.free? owners [] id).map (·.sweep owners) else none
    (id, store) :: turns owners rest (next.getD store)

/-- Whether the candidate of a turn is gone, reachable or topmost. -/
def TimelyTurn (owners : List Owner) (turn : ScopeId × Store) : Prop :=
  turn.2.holds turn.1 = true →
    .scope turn.1 ∈ turn.2.reachable owners ∨ turn.2.Topmost owners turn.1

/-- Whether every turn of the next collection is in time. -/
def Timely (owners : List Owner) (heap : Heap) : Prop :=
  ∀ turn ∈ turns owners heap.candidates (heap.store.sweep owners), TimelyTurn owners turn

/-- Whether every scope is reachable and every candidate is there. -/
def Clean (owners : List Owner) (heap : Heap) : Prop :=
  (∀ id scope, heap.store.scope? id = some scope → .scope id ∈ heap.store.reachable owners) ∧
    ∀ id ∈ heap.candidates, ∃ scope, heap.store.scope? id = some scope

/-- A heap is clean exactly if its candidates are reachable. -/
theorem clean_iff (h : heap.Orderly owners) :
    heap.Clean owners ↔ ∀ id ∈ heap.candidates, .scope id ∈ heap.store.reachable owners := by
  constructor
  · intro hclean id hid
    obtain ⟨hall, hpending⟩ := hclean
    obtain ⟨scope, hs⟩ := hpending id hid
    exact hall id scope hs
  · intro hpending
    refine ⟨fun id scope hs => ?_, fun id hid => ?_⟩
    · rcases h.registered id scope hs with howned | hcandidate
      · exact Store.reachable_of_scope_mem howned
      · exact hpending id hcandidate
    · exact h.sound.scope_exists id (Store.present_of_reachable (hpending id hid))

/-- A pass keeps only reachable candidates exactly if each had its turn in time. -/
theorem pending_reachable_iff (h : store.Sound owners) (ids : List ScopeId) :
    (∀ id ∈ (rescan true owners [] ids store).2,
        .scope id ∈ (rescan true owners [] ids store).1.reachable owners) ↔
      ∀ turn ∈ turns owners ids store, TimelyTurn owners turn := by
  induction ids generalizing store with
  | nil => simp [rescan, turns]
  | cons first rest ih =>
    rw [rescan, turns]
    split
    · rename_i hholds
      obtain ⟨scope, hs⟩ := Store.holds_iff.mp hholds
      have hnone := Store.free?_eq_none_iff h (Store.present_of_scope hs)
      cases hfree : store.free? owners [] first with
      | some new =>
        -- The scope is freed, so it was topmost.
        have htop : store.Topmost owners first := by
          by_contra htop
          simp [hnone.mpr (.inr htop)] at hfree
        have hfreed : Heap.free? true owners [] store first = some new := hfree
        have hnext := (collected_free h hs hfreed).1.sound
        simp only [free?, if_true, hfree, Option.map_some, Option.getD_some,
          List.forall_mem_cons, ih hnext]
        exact ⟨fun hrest => ⟨fun _ => .inr htop, hrest⟩, And.right⟩
      | none =>
        have hlive := hnone.mp hfree
        simp only [free?, if_true, hfree, Option.map_none, Option.getD_none,
          List.forall_mem_cons, ih h]
        refine and_congr_left fun _ => ?_
        rw [(collected_rescan h).reachable_eq]
        constructor
        · exact fun hreach _ => .inl hreach
        · intro htimely
          exact (htimely hholds).elim id fun htop => hlive.resolve_right (not_not.mpr htop)
    · rename_i hholds
      simp only [Option.getD_none, List.forall_mem_cons, ih h]
      exact ⟨fun hrest => ⟨fun hid => absurd hid hholds, hrest⟩, And.right⟩

/-- **A collection leaves nothing unreachable behind exactly if every candidate is reachable or
topmost when its turn comes.** -/
theorem clean_collect_iff (h : heap.Orderly owners) (hreclaims : heap.reclaims = true) :
    (heap.collect owners []).Clean owners ↔ heap.Timely owners := by
  rw [clean_iff h.collect, Timely, ← pending_reachable_iff h.sound.collected_sweep.sound, collect,
    hreclaims]

end Scriptlet.Heap
