import Scriptlet.Proofs.Heap.Scan
import Scriptlet.Proofs.Heap.Sweep

/-!
# Safety of the collector

Everything the collector does is collecting in the sense of `Store.Collected`: one scan
(`Sound.collected_free`), a pass over the candidates (`Heap.collected_collect`) and giving up a
handle (`Heap.release_spec`) keep the store sound and leave alone what the owners lead to. The
handle that is given up counts before, not after.

A freed scope goes at once: of the emptied scopes that survive a sweep, one with the greatest
identity would need a holder, but only an emptied scope with a still greater identity could be one
(`Sound.gone_of_condemned`). So a scope that is still there without an owner of its own is always a
candidate for a later scan. Such heaps are called `Registered`.
-/

namespace Scriptlet

namespace Store

variable {store new : Store} {owners : List Owner} {borrowed : List ScopeId} {n m : Node}
  {id : ScopeId}

/-! ## One scan -/

/-- **A scan collects.** -/
theorem Sound.collected_free (h : store.Sound owners) (hid : .scope id ∈ store.present owners)
    (hfree : store.free? owners borrowed id = some new) : Collected owners new store := by
  have hreduces := reduces_free hfree
  refine ⟨hreduces, fun other hother => ?_, hreduces.sound h (fun _ ho => ho) ?_⟩
  · exact scope?_of_not_condemned h hid hfree fun hc => not_reachable_of_condemned hc hother
  · intro other hother
    have hpresent := hreduces.present_subset (fun _ ho => ho) hother
    obtain ⟨scope, hs⟩ := h.scope_exists other hpresent
    by_cases hc : .scope other ∈ store.condemned owners (store.viewFrom borrowed id) id
    · exact ⟨_, (scope?_of_condemned h hid hfree hc).trans (by rw [hs]; rfl)⟩
    · exact ⟨scope, (scope?_of_not_condemned h hid hfree hc).trans hs⟩

/-- An emptied scope only holds on to its parent. -/
theorem parent_of_condemned (h : store.Sound owners) (hid : .scope id ∈ store.present owners)
    (hfree : store.free? owners borrowed id = some new) {other : ScopeId}
    (hother : .scope other ∈ store.condemned owners (store.viewFrom borrowed id) id)
    (hedge : m ∈ new.edges (.scope other)) : ∃ p, m = .scope p ∧ p < other := by
  obtain ⟨scope, hs, hm⟩ := mem_edges_scope.mp hedge
  rw [scope?_of_condemned h hid hfree hother] at hs
  obtain ⟨before, hbefore, rfl⟩ := Option.map_eq_some_iff.mp hs
  rcases Scope.mem_edges.mp hm with ⟨v, hv, -⟩ | ⟨p, hp, rfl⟩
  · simp [Scope.values] at hv
  · exact ⟨p, rfl, h.parent_lt other before hbefore p hp⟩

/-- Condemned functions and objects do not outlive a sweep. -/
theorem Sound.scope_of_condemned (h : store.Sound owners) (hid : .scope id ∈ store.present owners)
    (hfree : store.free? owners borrowed id = some new)
    (hn : n ∈ (new.sweep owners).present owners)
    (hc : n ∈ store.condemned owners (store.viewFrom borrowed id) id) : n.isValue = false := by
  have hnew := h.collected_free hid hfree
  have hswept := hnew.sound.collected_sweep
  have hreduces := hnew.toReduces.trans hswept.toReduces
  have hsubset : (new.sweep owners).present owners ⊆ {n | n ∈ store.present owners ∧
      (n ∈ store.condemned owners (store.viewFrom borrowed id) id → n.isValue = false)} := by
    refine present_subset ?_ ?_ ?_
    · exact fun n hn => ⟨present_of_owned hn, fun hc => absurd hn (holder_condemned hc).2.1⟩
    · intro other scope hs
      obtain ⟨before, hbefore, -⟩ := hreduces.scope other scope hs
      exact ⟨present_of_scope hbefore, fun _ => rfl⟩
    · intro n hn m hm
      obtain ⟨hn, hscope⟩ := hn
      refine ⟨present_of_edge hn (hreduces.edges_subset n hm), fun hc => ?_⟩
      have hholder := ((holder_condemned hc).2.2 n hn (hreduces.edges_subset n hm)).1
      cases n with
      | scope other =>
        obtain ⟨p, rfl, -⟩ := parent_of_condemned h hid hfree hholder (hswept.edges_subset _ hm)
        rfl
      | function f => simp [Node.isValue] at hscope; exact absurd hholder hscope
      | object other fields => simp [Node.isValue] at hscope; exact absurd hholder hscope
  exact (hsubset hn).2 hc

/-- **Condemned scopes are gone after a sweep.** -/
theorem Sound.gone_of_condemned (h : store.Sound owners) (hid : .scope id ∈ store.present owners)
    (hfree : store.free? owners borrowed id = some new) (other : ScopeId)
    (hc : .scope other ∈ store.condemned owners (store.viewFrom borrowed id) id) :
    (new.sweep owners).scope? other = none := by
  have hnew := h.collected_free hid hfree
  have hswept := hnew.sound.collected_sweep
  have hreduces := hnew.toReduces.trans hswept.toReduces
  -- Downwards from the bound on identities: whatever holds on to the scope comes after it.
  induction hgap : store.fresh - other using Nat.strong_induction_on generalizing other with
  | _ gap ih =>
    by_contra hsome
    obtain ⟨scope, hs⟩ := Option.ne_none_iff_exists'.mp hsome
    have hheld := (mem_handles hswept.sound).mp (hnew.sound.handle_of_sweep hs)
    rcases hheld with howned | ⟨m, hm, hedge⟩
    · exact (holder_condemned hc).2.1 howned
    · have hpresent := hreduces.present_subset (fun _ ho => ho) hm
      have hholder := ((holder_condemned hc).2.2 m hpresent (hreduces.edges_subset m hedge)).1
      have hscope := h.scope_of_condemned hid hfree hm hholder
      cases m with
      | function f => simp [Node.isValue] at hscope
      | object p fields => simp [Node.isValue] at hscope
      | scope p =>
        obtain ⟨q, heq, hlt⟩ :=
          parent_of_condemned h hid hfree hholder (hswept.edges_subset _ hedge)
        cases heq
        have hbound : p < store.fresh := h.id_lt _ hpresent
        have hless : store.fresh - p < gap := hgap ▸ Nat.sub_lt_sub_left (hlt.trans hbound) hlt
        have hgone := ih _ hless p hholder rfl
        obtain ⟨surviving, hsurviving⟩ := hswept.sound.scope_exists p hm
        simp [hgone] at hsurviving

end Store

namespace Heap

open Store (Collected)

variable {heap : Heap} {store new : Store} {reclaims : Bool} {owners : List Owner}
  {borrowed ids : List ScopeId} {id : ScopeId}

/-- What freeing a scope comes to, sweep included. -/
theorem collected_free (h : store.Sound owners) {scope : Scope} (hid : store.scope? id = some scope)
    (hfree : Heap.free? reclaims owners borrowed store id = some new) :
    Collected owners (new.sweep owners) store ∧ (new.sweep owners).scope? id = none := by
  have hpresent : .scope id ∈ store.present owners := Store.present_of_scope hid
  unfold free? at hfree
  split at hfree
  · have hnew := h.collected_free hpresent hfree
    exact ⟨hnew.trans hnew.sound.collected_sweep,
      h.gone_of_condemned hpresent hfree id (Store.condemned_of_free h hpresent hfree)⟩
  · simp at hfree

/-! ## A pass over the candidates -/

/-- What an invariant of stores has to survive to survive a pass: each scope that is freed. -/
theorem rescan_induction {P : Store → Prop} (hstart : P store)
    (hfree : ∀ store, P store → ∀ id ∈ ids, ∀ scope, store.scope? id = some scope →
      ∀ new, Heap.free? reclaims owners borrowed store id = some new → P (new.sweep owners)) :
    P (rescan reclaims owners borrowed ids store).1 := by
  induction ids generalizing store with
  | nil => exact hstart
  | cons first rest ih =>
    have hrest : ∀ store, P store → ∀ id ∈ rest, ∀ scope, store.scope? id = some scope →
        ∀ new, Heap.free? reclaims owners borrowed store id = some new → P (new.sweep owners) :=
      fun store hP id hid => hfree store hP id (List.mem_cons_of_mem _ hid)
    rw [rescan]
    split
    · rename_i hholds
      obtain ⟨scope, hs⟩ := Store.holds_iff.mp hholds
      split
      · rename_i new hnew
        exact ih (hfree store hstart first List.mem_cons_self scope hs new hnew) hrest
      · exact ih hstart hrest
    · exact ih hstart hrest

theorem collected_rescan (h : store.Sound owners) :
    Collected owners (rescan reclaims owners borrowed ids store).1 store := by
  refine rescan_induction (P := fun current => Collected owners current store) (.refl h) ?_
  intro current hcurrent id _ scope hs new hnew
  exact hcurrent.trans (collected_free hcurrent.sound hs hnew).1

/-- A candidate that survives a pass stays a candidate. -/
theorem mem_rescan (h : store.Sound owners) (hid : id ∈ ids) {scope : Scope}
    (hs : (rescan reclaims owners borrowed ids store).1.scope? id = some scope) :
    id ∈ (rescan reclaims owners borrowed ids store).2 := by
  induction ids generalizing store with
  | nil => simp at hid
  | cons first rest ih =>
    have hgone : ∀ current : Store, current.Sound owners → current.scope? first = none →
        first = id → (rescan reclaims owners borrowed rest current).1.scope? id ≠ some scope := by
      rintro current hcurrent hnone rfl hafter
      simp [(collected_rescan hcurrent).scope?_eq_none hnone] at hafter
    rw [rescan] at hs ⊢
    split at hs
    · rename_i hholds
      obtain ⟨before, hbefore⟩ := Store.holds_iff.mp hholds
      rw [if_pos hholds]
      split at hs
      · rename_i new hnew
        obtain ⟨hcollected, hnone⟩ := collected_free h hbefore hnew
        rcases List.mem_cons.mp hid with heq | hrest
        · exact absurd hs (hgone _ hcollected.sound hnone heq.symm)
        · exact ih hcollected.sound hrest hs
      · rcases List.mem_cons.mp hid with rfl | hrest
        · exact List.mem_cons_self
        · exact List.mem_cons_of_mem _ (ih h hrest hs)
    · rename_i hholds
      rw [if_neg hholds]
      have hnone : store.scope? first = none := by
        rw [Store.holds_iff, not_exists] at hholds
        exact Option.eq_none_iff_forall_not_mem.mpr hholds
      rcases List.mem_cons.mp hid with heq | hrest
      · exact absurd hs (hgone store h hnone heq.symm)
      · exact ih h hrest hs

/-! ## Collecting -/

/-- **A collection leaves alone what the owners lead to.** -/
theorem collected_collect (h : heap.store.Sound owners) :
    Collected owners (heap.collect owners borrowed).store heap.store :=
  h.collected_sweep.trans (collected_rescan h.collected_sweep.sound)

/-- Every scope has an owner of its own or is a candidate. -/
def Registered (owners : List Owner) (heap : Heap) : Prop :=
  ∀ id scope, heap.store.scope? id = some scope → .scope id ∈ owners ∨ id ∈ heap.candidates

/-- Fewer scopes are registered all the more. -/
theorem Registered.of_reduces (hreg : heap.Registered owners) (h : Store.Reduces new heap.store) :
    { heap with store := new }.Registered owners := by
  intro id scope hs
  obtain ⟨before, hbefore, -⟩ := h.scope id scope hs
  exact hreg id before hbefore

theorem registered_collect (h : heap.store.Sound owners) (hreg : heap.Registered owners) :
    (heap.collect owners borrowed).Registered owners := by
  intro id scope hs
  obtain ⟨before, hbefore, -⟩ := (collected_collect h).scope id scope hs
  exact (hreg id before hbefore).imp_right fun hid => mem_rescan h.collected_sweep.sound hid hs

/-- What a heap keeps to, with its owners. -/
structure Orderly (owners : List Owner) (heap : Heap) : Prop where
  sound : heap.store.Sound owners
  registered : heap.Registered owners

theorem Orderly.collect (h : heap.Orderly owners) : (heap.collect owners borrowed).Orderly owners :=
  ⟨(collected_collect h.sound).sound, registered_collect h.sound h.registered⟩

/-! ## Giving up a handle -/

theorem collected_remember (h : heap.store.Sound owners) :
    Collected owners (heap.remember owners borrowed id).store heap.store := by
  unfold remember
  dsimp only
  split
  · exact collected_collect h
  · exact .refl h

theorem registered_remember (h : heap.store.Sound owners)
    (hreg : heap.Registered (.scope id :: owners)) :
    (heap.remember owners borrowed id).Registered owners := by
  have hnew : Registered owners { heap with candidates := heap.candidates ++ [id] } := by
    intro other scope hs
    rcases hreg other scope hs with howned | hcandidate
    · rcases List.mem_cons.mp howned with heq | howned
      · cases heq
        exact .inr (List.mem_append_right _ List.mem_cons_self)
      · exact .inl howned
    · exact .inr (List.mem_append_left _ hcandidate)
  unfold remember
  dsimp only
  split
  · exact registered_collect h hnew
  · exact hnew

/-- Losing a scope together with its handle leaves the others registered. -/
theorem Registered.of_gone (hreg : heap.Registered (.scope id :: owners))
    (hreduces : Store.Reduces new heap.store) (hgone : new.scope? id = none) :
    Registered owners { heap with store := new } := by
  intro other scope hs
  rcases hreg.of_reduces hreduces other scope hs with howned | hcandidate
  · rcases List.mem_cons.mp howned with heq | howned
    · cases heq
      exact absurd hs (by simp [hgone])
    · exact .inl howned
  · exact .inr hcandidate

/-- **Giving up a handle leaves alone what the other owners lead to, and forgets no scope.** -/
theorem release_spec (h : heap.store.Sound (.scope id :: owners)) :
    Collected owners (heap.release owners borrowed id).store heap.store ∧
      (heap.Registered (.scope id :: owners) →
        (heap.release owners borrowed id).Registered owners) := by
  have hsub : owners ⊆ .scope id :: owners := fun _ ho => List.mem_cons_of_mem _ ho
  have hswept := h.collected_sweep
  have hless := hswept.mono hsub
  obtain ⟨scope, hs⟩ := hswept.sound.scope_exists id
    (Store.present_of_owned ⟨_, List.mem_cons_self, rfl⟩)
  have hreg : heap.Registered (.scope id :: owners) →
      { heap with store := heap.store.sweep (.scope id :: owners) }.Registered
        (.scope id :: owners) := fun hreg => hreg.of_reduces hswept.toReduces
  unfold release
  dsimp only
  split
  · rename_i hunowned
    have hunheld := Store.not_held_of_isOwned (by simpa using hunowned)
    have herase := (h.mono hsub).collected_erase hunheld
    exact ⟨herase, fun hreg => hreg.of_gone herase.toReduces (by simp)⟩
  · split
    · rename_i hunowned
      have hunheld := Store.not_held_of_isOwned (by simpa using hunowned)
      have herase := hless.sound.collected_erase hunheld
      exact ⟨hless.trans herase, fun h => (hreg h).of_gone herase.toReduces (by simp)⟩
    · split
      · rename_i new hnew
        obtain ⟨hcollected, hgone⟩ := collected_free hless.sound hs hnew
        exact ⟨hless.trans hcollected, fun h => (hreg h).of_gone hcollected.toReduces hgone⟩
      · exact ⟨hless.trans (collected_remember hless.sound),
          fun h => registered_remember hless.sound (hreg h)⟩

end Heap

end Scriptlet
