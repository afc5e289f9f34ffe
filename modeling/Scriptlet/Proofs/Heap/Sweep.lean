import Scriptlet.Proofs.Heap.Handles

/-!
# Sweeping

Collecting may remove and empty scopes, but only behind the owners' backs: `Collected` says that a
store has nothing that an earlier one did not have, that it agrees with the earlier one on every
scope that is reachable, and that it is sound. What the owners lead to is then the same in both
(`Collected.reachable_eq`).

A sweep collects in this sense (`Sound.collected_sweep`), and afterwards every scope of the store is
held on to (`Sound.handle_of_sweep`).
-/

namespace Scriptlet.Store

variable {store new old : Store} {owners owners' : List Owner} {n m : Node} {id : ScopeId}

/-- A store after collecting in an earlier one. -/
structure Collected (owners : List Owner) (new old : Store) : Prop extends Reduces new old where
  keeps : ∀ id, .scope id ∈ old.reachable owners → new.scope? id = old.scope? id
  sound : new.Sound owners

namespace Collected

theorem refl (h : store.Sound owners) : Collected owners store store :=
  ⟨.refl store, fun _ _ => rfl, h⟩

theorem agree (h : Collected owners new old) : Agree owners old new := ⟨h.fresh, h.keeps⟩

/-- **Collecting leaves what the owners lead to alone.** -/
theorem reachable_eq (h : Collected owners new old) :
    new.reachable owners = old.reachable owners := h.agree.reachable_eq

theorem trans {first second third : Store} (h : Collected owners second first)
    (h' : Collected owners third second) : Collected owners third first := by
  refine ⟨h.toReduces.trans h'.toReduces, fun id hid => ?_, h'.sound⟩
  rw [h'.keeps id (h.reachable_eq ▸ hid), h.keeps id hid]

/-- Fewer owners ask for less. -/
theorem mono (h : Collected owners new old) (hsub : owners' ⊆ owners) :
    Collected owners' new old :=
  ⟨h.toReduces, fun id hid => h.keeps id ((Reduces.refl old).reachable_subset hsub hid),
    h.sound.mono hsub⟩

end Collected

/-! ## Removing scopes that nothing holds on to -/

/-- A store that lost some scopes of an earlier one and is otherwise the same. -/
def Drops (new old : Store) (gone : ScopeId → Prop) : Prop :=
  new.fresh = old.fresh ∧
    ∀ id, (gone id → new.scope? id = none) ∧ (¬gone id → new.scope? id = old.scope? id)

theorem Drops.reduces {gone : ScopeId → Prop} (h : Drops new old gone) : Reduces new old := by
  refine ⟨h.1, fun id s hs => ⟨s, ?_, rfl, fun _ hb => hb⟩⟩
  by_cases hgone : gone id
  · simp [(h.2 id).1 hgone] at hs
  · rw [← (h.2 id).2 hgone, hs]

theorem drops_erase (store : Store) (id : ScopeId) : Drops (store.erase id) store (· = id) := by
  refine ⟨rfl, fun other => ⟨?_, fun hne => ?_⟩⟩
  · rintro rfl
    simp
  · simp [Ne.symm hne]

/-- Removing scopes without handles is collecting. -/
theorem Sound.collected_of_drops {gone : ScopeId → Prop} (h : store.Sound owners)
    (hdrops : Drops new store gone)
    (hgone : ∀ id, gone id → .scope id ∉ store.handles owners) : Collected owners new store := by
  have hkept : ∀ id, .scope id ∈ store.handles owners → new.scope? id = store.scope? id :=
    fun id hid => (hdrops.2 id).2 fun hg => hgone id hg hid
  refine ⟨hdrops.reduces, fun id hid => ?_, hdrops.reduces.sound h (fun _ ho => ho) ?_⟩
  · refine hkept id ((mem_handles h).mpr ?_)
    obtain ⟨r, hr, hleads⟩ := hid
    rcases Relation.ReflTransGen.cases_tail hleads with heq | ⟨m, hm, hedge⟩
    · exact .inl (heq ▸ hr)
    · exact .inr ⟨m, present_of_leads (present_of_owned hr) hm, hedge⟩
  · intro id hid
    obtain ⟨r, hr, hleads⟩ := hid
    have hheld : .scope id ∈ store.handles owners ∨ ∃ scope, new.scope? id = some scope := by
      rcases Relation.ReflTransGen.cases_tail hleads with heq | ⟨m, hm, hedge⟩
      · subst heq
        rcases hr with hr | ⟨other, scope, hs, heq⟩
        · exact .inl ((mem_handles h).mpr (.inl hr))
        · exact .inr ⟨scope, by cases heq; exact hs⟩
      · refine .inl ((mem_handles h).mpr (.inr ⟨m, ?_, hdrops.reduces.edges_subset m hedge⟩))
        exact hdrops.reduces.present_subset (fun _ ho => ho) ⟨r, hr, hm⟩
    rcases hheld with hheld | hheld
    · obtain ⟨scope, hs⟩ := h.scope_exists id (present_of_handle h hheld)
      exact ⟨scope, (hkept id hheld).trans hs⟩
    · exact hheld

theorem Sound.collected_erase (h : store.Sound owners)
    (hunheld : .scope id ∉ store.handles owners) : Collected owners (store.erase id) store :=
  h.collected_of_drops (drops_erase store id) fun _ heq => heq ▸ hunheld

theorem not_held_of_isOwned (h : store.isOwned owners id = false) :
    .scope id ∉ store.handles owners := by
  intro hid
  rw [isOwned, List.any_eq_false] at h
  exact h _ hid (beq_self_eq_true _)

/-! ## Rounds of a sweep -/

/-- The store after one round. -/
def sweepOnce (store : Store) (owners : List Owner) : Store :=
  { store with
    scopes := store.scopes.filter fun id _ =>
      (tally ((store.handles owners).map Node.id)).contains id }

theorem sweepRounds_succ (owners : List Owner) (rounds : Nat) (store : Store) :
    sweepRounds owners (rounds + 1) store =
      if (store.sweepOnce owners).size = store.size then store
      else sweepRounds owners rounds (store.sweepOnce owners) := rfl

theorem scope?_sweepOnce (store : Store) (owners : List Owner) (id : ScopeId) :
    (store.sweepOnce owners).scope? id =
      if id ∈ (store.handles owners).map Node.id then store.scope? id else none := by
  rw [sweepOnce, scope?, scope?, Std.TreeMap.getElem?_filter']
  simp only [← mem_tally, ← Std.TreeMap.contains_iff_mem]
  cases store.scopes[id]? <;> simp [Option.filter]

theorem drops_sweepOnce (store : Store) (owners : List Owner) :
    Drops (store.sweepOnce owners) store (· ∉ (store.handles owners).map Node.id) := by
  refine ⟨rfl, fun id => ⟨fun hgone => ?_, fun hkept => ?_⟩⟩
  · rw [scope?_sweepOnce, if_neg hgone]
  · rw [scope?_sweepOnce, if_pos (not_not.mp hkept)]

theorem Sound.collected_sweepOnce (h : store.Sound owners) :
    Collected owners (store.sweepOnce owners) store :=
  h.collected_of_drops (drops_sweepOnce store owners) fun _ hgone hid =>
    hgone (List.mem_map_of_mem hid)

theorem size_sweepOnce_le (store : Store) (owners : List Owner) :
    (store.sweepOnce owners).size ≤ store.size := Std.TreeMap.size_filter_le_size

/-- A round that removes nothing finds a handle to every scope. -/
theorem Sound.handle_of_size_eq (h : store.Sound owners)
    (hsize : (store.sweepOnce owners).size = store.size) {scope : Scope}
    (hscope : store.scope? id = some scope) : .scope id ∈ store.handles owners := by
  have hall := Std.TreeMap.size_filter_eq_size_iff.mp hsize
  have hmem : id ∈ store.scopes := by
    rw [Std.TreeMap.mem_iff_isSome_getElem?]
    exact Option.isSome_iff_exists.mpr ⟨scope, hscope⟩
  have hid : id ∈ (store.handles owners).map Node.id := by
    rw [← mem_tally, ← Std.TreeMap.contains_iff_mem]
    simpa using hall id hmem
  obtain ⟨n, hn, hid⟩ := List.mem_map.mp hid
  exact h.eq_of_id n (present_of_handle h hn) _ (present_of_scope hscope) hid ▸ hn

theorem Sound.sweepRounds (h : store.Sound owners) (rounds : Nat) :
    Collected owners (Store.sweepRounds owners rounds store) store := by
  induction rounds generalizing store with
  | zero => exact .refl h
  | succ rounds ih =>
    rw [sweepRounds_succ]
    split
    · exact .refl h
    · exact h.collected_sweepOnce.trans (ih h.collected_sweepOnce.sound)

theorem Sound.handle_of_sweepRounds (h : store.Sound owners) (rounds : Nat)
    (hrounds : store.size < rounds) {scope : Scope}
    (hscope : (Store.sweepRounds owners rounds store).scope? id = some scope) :
    .scope id ∈ (Store.sweepRounds owners rounds store).handles owners := by
  induction rounds generalizing store with
  | zero => omega
  | succ rounds ih =>
    rw [sweepRounds_succ] at hscope ⊢
    have hle := size_sweepOnce_le store owners
    split at hscope
    · rename_i hsize
      rw [if_pos hsize]
      exact h.handle_of_size_eq hsize hscope
    · rename_i hsize
      rw [if_neg hsize]
      exact ih h.collected_sweepOnce.sound (by omega) hscope

/-- **A sweep collects.** -/
theorem Sound.collected_sweep (h : store.Sound owners) :
    Collected owners (store.sweep owners) store := h.sweepRounds _

/-- **Every scope that survives a sweep is held on to.** -/
theorem Sound.handle_of_sweep (h : store.Sound owners) {scope : Scope}
    (hscope : (store.sweep owners).scope? id = some scope) :
    .scope id ∈ (store.sweep owners).handles owners :=
  h.handle_of_sweepRounds _ (Nat.lt_succ_self _) hscope

end Scriptlet.Store
