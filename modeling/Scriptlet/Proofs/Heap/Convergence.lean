import Scriptlet.Proofs.Heap.Collection
import Scriptlet.Proofs.Heap.Component

/-!
# Repeated collection

One collection need not free every unreachable scope: a pass looks at each candidate once, in the
order of the candidates, and a scope below others is freed only after them. But it frees at least
one. As long as any scope is unreachable there is a topmost one; it has no owner of its own, so it
is a candidate, and when its turn comes it is freed unless the pass has freed something before
(`exists_gone`). So a collection that frees nothing has nothing to free, and as many collections as
there are unreachable scopes free them all, whatever order the candidates are in.
-/

namespace Scriptlet.Heap

open Store (Collected)

variable {heap next : Heap} {store new : Store} {reclaims : Bool} {owners : List Owner}
  {borrowed ids : List ScopeId} {id : ScopeId}

/-! ## One pass -/

/-- A pass over a scope that would be freed at its beginning frees something. -/
theorem exists_gone_of_free (h : store.Sound owners) (hid : id ∈ ids) {scope : Scope}
    (hs : store.scope? id = some scope)
    (hfree : Heap.free? reclaims owners borrowed store id = some new) :
    ∃ gone before, store.scope? gone = some before ∧
      (rescan reclaims owners borrowed ids store).1.scope? gone = none := by
  induction ids with
  | nil => simp at hid
  | cons first rest ih =>
    by_cases hsame : first = id
    · subst hsame
      obtain ⟨hcollected, hgone⟩ := collected_free h hs hfree
      refine ⟨first, scope, hs, ?_⟩
      rw [rescan, if_pos (Store.holds_iff.mpr ⟨scope, hs⟩), hfree]
      exact (collected_rescan hcollected.sound).scope?_eq_none hgone
    · have hrest : id ∈ rest := (List.mem_cons.mp hid).resolve_left (Ne.symm hsame)
      rw [rescan]
      split
      · rename_i hholds
        obtain ⟨before, hbefore⟩ := Store.holds_iff.mp hholds
        split
        · rename_i other hother
          obtain ⟨hcollected, hgone⟩ := collected_free h hbefore hother
          exact ⟨first, before, hbefore, (collected_rescan hcollected.sound).scope?_eq_none hgone⟩
        · exact ih hrest
      · exact ih hrest

/-! ## One collection -/

/-- The scopes that exist. -/
def alive (owners : List Owner) (heap : Heap) : Set ScopeId :=
  {id | ∃ scope, (heap.store.sweep owners).scope? id = some scope}

/-- The scopes that exist although no owner leads to them. -/
def garbage (owners : List Owner) (heap : Heap) : Set ScopeId :=
  (heap.store.sweep owners).unreachable owners

/-- A collection that takes the candidates in any order. -/
def CollectsTo (owners : List Owner) (heap next : Heap) : Prop :=
  ∃ order, order.Perm heap.candidates ∧
    next = { heap with candidates := order }.collect owners []

theorem Orderly.reorder (h : heap.Orderly owners) {order : List ScopeId}
    (hperm : order.Perm heap.candidates) : { heap with candidates := order }.Orderly owners :=
  ⟨h.sound, fun id scope hs => (h.registered id scope hs).imp_right hperm.mem_iff.mpr⟩

theorem Orderly.collectsTo (h : heap.Orderly owners) (hnext : CollectsTo owners heap next) :
    next.Orderly owners := by
  obtain ⟨order, hperm, rfl⟩ := hnext
  exact (h.reorder hperm).collect

/-- What a collection starts from is the swept store. -/
theorem collected_of_collectsTo (h : heap.Orderly owners) (hnext : CollectsTo owners heap next) :
    Collected owners next.store (heap.store.sweep owners) := by
  obtain ⟨order, -, rfl⟩ := hnext
  exact collected_rescan h.sound.collected_sweep.sound

/-- **While anything is unreachable, a collection frees something.** -/
theorem exists_gone (h : heap.Orderly owners) (hreclaims : heap.reclaims = true)
    (hnext : CollectsTo owners heap next) (hid : id ∈ heap.garbage owners) :
    ∃ gone ∈ heap.alive owners, next.store.scope? gone = none := by
  obtain ⟨order, hperm, rfl⟩ := hnext
  have hswept := h.sound.collected_sweep
  obtain ⟨c, ⟨⟨scope, hs⟩, hunreachable⟩, htop⟩ := Store.exists_topmost hswept.sound hid
  have hpresent : .scope c ∈ (heap.store.sweep owners).present owners := Store.present_of_scope hs
  have hcandidate : c ∈ order := by
    obtain ⟨before, hbefore, -⟩ := hswept.scope c scope hs
    refine hperm.mem_iff.mpr ((h.registered c before hbefore).resolve_left fun howned => ?_)
    exact hunreachable (Store.reachable_of_scope_mem howned)
  have hfree : (heap.store.sweep owners).free? owners [] c ≠ none := by
    rw [ne_eq, Store.free?_eq_none_iff hswept.sound hpresent]
    exact not_or.mpr ⟨hunreachable, not_not.mpr htop⟩
  obtain ⟨new, hnew⟩ := Option.ne_none_iff_exists'.mp hfree
  have hfree' : Heap.free? heap.reclaims owners [] (heap.store.sweep owners) c = some new := by
    rw [free?, if_pos hreclaims, hnew]
  obtain ⟨gone, before, hbefore, hgone⟩ :=
    exists_gone_of_free hswept.sound hcandidate hs hfree'
  exact ⟨gone, ⟨before, hbefore⟩, hgone⟩

theorem garbage_subset (h : heap.Orderly owners) (hnext : CollectsTo owners heap next) :
    next.garbage owners ⊆ {id | id ∈ heap.garbage owners ∧ next.store.scope? id ≠ none} := by
  intro id hid
  obtain ⟨⟨scope, hs⟩, hunreachable⟩ := hid
  have hswept := (h.collectsTo hnext).sound.collected_sweep
  have hcollected := collected_of_collectsTo h hnext
  obtain ⟨between, hbetween, -⟩ := hswept.scope id scope hs
  obtain ⟨before, hbefore, -⟩ := hcollected.scope id between hbetween
  refine ⟨⟨⟨before, hbefore⟩, ?_⟩, by simp [hbetween]⟩
  rwa [← hcollected.reachable_eq, ← hswept.reachable_eq]

/-- What a collection frees was unreachable. -/
theorem mem_garbage_of_gone (h : heap.Orderly owners) (hnext : CollectsTo owners heap next)
    (hid : id ∈ heap.alive owners) (hgone : next.store.scope? id = none) :
    id ∈ heap.garbage owners := by
  refine ⟨hid, fun hreach => ?_⟩
  obtain ⟨scope, hs⟩ := hid
  rw [(collected_of_collectsTo h hnext).keeps id hreach, hs] at hgone
  simp at hgone

/-- **Each collection leaves fewer unreachable scopes, until there are none.** -/
theorem ncard_garbage_lt (h : heap.Orderly owners) (hreclaims : heap.reclaims = true)
    (hnext : CollectsTo owners heap next) (hne : (heap.garbage owners).Nonempty) :
    (next.garbage owners).ncard < (heap.garbage owners).ncard := by
  obtain ⟨id, hid⟩ := hne
  obtain ⟨gone, halive, hgone⟩ := exists_gone h hreclaims hnext hid
  refine Set.ncard_lt_ncard ?_ h.sound.collected_sweep.sound.finite_unreachable
  have hsubset := garbage_subset h hnext
  refine ⟨fun a ha => (hsubset ha).1, fun hsup => ?_⟩
  exact (hsubset (hsup (mem_garbage_of_gone h hnext halive hgone))).2 hgone

/-! ## A row of collections -/

theorem reclaims_of_collectsTo (hnext : CollectsTo owners heap next) :
    next.reclaims = heap.reclaims := by
  obtain ⟨order, -, rfl⟩ := hnext
  rfl

/-- **Each of a row of collections leaves at least one unreachable scope less.** -/
theorem ncard_garbage_row (h : heap.Orderly owners) (hreclaims : heap.reclaims = true)
    {heaps : Nat → Heap} (hstart : heaps 0 = heap)
    (hrow : ∀ i, CollectsTo owners (heaps i) (heaps (i + 1))) (n : Nat) :
    (heaps n).Orderly owners ∧ (heaps n).reclaims = true ∧
      ((heaps n).garbage owners).ncard ≤ (heap.garbage owners).ncard - n := by
  induction n with
  | zero =>
    subst hstart
    exact ⟨h, hreclaims, le_refl _⟩
  | succ n ih =>
    obtain ⟨hn, hreclaims, hle⟩ := ih
    refine ⟨hn.collectsTo (hrow n), (reclaims_of_collectsTo (hrow n)).trans hreclaims, ?_⟩
    rcases Set.eq_empty_or_nonempty ((heaps n).garbage owners) with hempty | hne
    · have hnone : (heaps (n + 1)).garbage owners = ∅ :=
        Set.subset_eq_empty (fun a ha => (garbage_subset hn (hrow n) ha).1) hempty
      simp [hnone]
    · have hlt := ncard_garbage_lt hn hreclaims (hrow n) hne
      omega

/-- What repeated collection comes to. No scope is forgotten that has no handle of its own, a
collection that frees nothing has nothing to free, and as many collections as there are unreachable
scopes leave none. -/
structure Settles (owners : List Owner) (heap : Heap) : Prop where
  remembered : ∀ id scope, heap.store.scope? id = some scope →
    .scope id ∈ owners ∨ id ∈ heap.candidates
  idle : ∀ next, CollectsTo owners heap next →
    (∀ id ∈ heap.alive owners, next.store.scope? id ≠ none) → heap.garbage owners = ∅
  finite : (heap.garbage owners).Finite
  freed : ∀ heaps : Nat → Heap, heaps 0 = heap →
    (∀ i, CollectsTo owners (heaps i) (heaps (i + 1))) →
      ∀ n, (heap.garbage owners).ncard ≤ n → (heaps n).garbage owners = ∅

/-- **Repeated collection frees everything unreachable.** -/
theorem Orderly.settles (h : heap.Orderly owners) (hreclaims : heap.reclaims = true) :
    heap.Settles owners where
  remembered := h.registered
  idle := by
    intro next hnext hnone
    by_contra hne
    obtain ⟨id, hid⟩ := Set.nonempty_iff_ne_empty.mpr hne
    obtain ⟨gone, halive, hgone⟩ := exists_gone h hreclaims hnext hid
    exact hnone gone halive hgone
  finite := h.sound.collected_sweep.sound.finite_unreachable
  freed := by
    intro heaps hstart hrow n hn
    obtain ⟨horderly, -, hle⟩ := ncard_garbage_row h hreclaims hstart hrow n
    have hfinite := horderly.sound.collected_sweep.sound.finite_unreachable
    have hzero : ((heaps n).garbage owners).ncard = 0 := by omega
    exact (Set.ncard_eq_zero hfinite).mp hzero

end Scriptlet.Heap
