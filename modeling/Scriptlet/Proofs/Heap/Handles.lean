import Mathlib.Data.List.Perm.Basic
import Scriptlet.Proofs.Heap.Sound

/-!
# The handles of a sound store

`Store.handles` lists every hold on a node. In a sound store these are the holds of the owners and
one copy of the edges of each node that exists (`handles_perm`), however often a function or an
object is shared. `Store.isOwned` and the counts of the collector read off this list.
-/

namespace Scriptlet

/-! ## Tallies -/

theorem tally_getD (ids : List Nat) (id : Nat) : (tally ids).getD id 0 = ids.count id := by
  have hfold : ∀ (ids : List Nat) (counts : Std.TreeMap Nat Nat),
      (ids.foldl (fun counts id => counts.insert id (counts.getD id 0 + 1)) counts).getD id 0 =
        counts.getD id 0 + ids.count id := by
    intro ids
    induction ids with
    | nil => simp
    | cons first rest ih =>
      intro counts
      rw [List.foldl_cons, ih, Std.TreeMap.getD_insert, List.count_cons]
      by_cases h : first = id
      · subst h
        simp
        omega
      · simp [h]
  simp [tally, hfold]

theorem mem_tally {ids : List Nat} {id : Nat} : id ∈ tally ids ↔ id ∈ ids := by
  have hfold : ∀ (ids : List Nat) (counts : Std.TreeMap Nat Nat),
      id ∈ ids.foldl (fun counts id => counts.insert id (counts.getD id 0 + 1)) counts ↔
        id ∈ counts ∨ id ∈ ids := by
    intro ids
    induction ids with
    | nil => simp
    | cons first rest ih =>
      intro counts
      rw [List.foldl_cons, ih, Std.TreeMap.mem_insert, List.mem_cons]
      simp only [compare_eq_iff_eq]
      tauto
  simp [tally, hfold]

namespace Nodes

theorem nodup_nodes {seen : Nodes} {domain : Set Node} (h : seen.Within domain) :
    seen.nodes.Nodup := by
  refine List.Nodup.map_on ?_ ?_
  · rintro ⟨id, n⟩ hn ⟨id', n'⟩ hn' heq
    rw [Std.TreeMap.mem_toList_iff_getElem?_eq_some] at hn hn'
    obtain rfl : n = n' := heq
    rw [← (h _ _ hn).1, ← (h _ _ hn').1]
  · refine List.Pairwise.imp ?_ (Std.TreeMap.distinct_keys_toList (t := seen))
    rintro a b hne rfl
    simp at hne

end Nodes

theorem nodup_visited {edges : Node → List Node} {bound : Nat} {domain : Set Node}
    (hdom : Domain edges bound domain) {starts : List Node} (hstarts : ∀ s ∈ starts, s ∈ domain) :
    (visit edges bound starts ∅).nodes.Nodup := by
  have hwithin : Nodes.Within (visit edges bound starts ∅) domain := by
    intro id n hn
    obtain ⟨hid, s, hs, hleads⟩ := (getElem?_visit hdom hstarts).mp hn
    exact ⟨hid, hdom.mem_of_leads (hstarts s hs) hleads⟩
  exact Nodes.nodup_nodes hwithin

namespace Store

variable {store : Store} {owners : List Owner} {n m : Node} {id : ScopeId}

/-! ## Existing nodes as a list -/

/-- The scopes of a store. -/
def scopeNodes (store : Store) : List Node := store.scopes.keys.map .scope

/-- The nodes that exist. -/
def existing (store : Store) (owners : List Owner) : List Node :=
  store.scopeNodes ++ store.valueNodes owners

theorem mem_scopeNodes :
    n ∈ store.scopeNodes ↔ ∃ id scope, store.scope? id = some scope ∧ n = .scope id := by
  simp only [scopeNodes, List.mem_map, Std.TreeMap.mem_keys, scope?,
    Std.TreeMap.mem_iff_isSome_getElem?, Option.isSome_iff_exists]
  constructor
  · intro hscope
    obtain ⟨id, ⟨scope, hs⟩, rfl⟩ := hscope
    exact ⟨id, scope, hs, rfl⟩
  · intro hscope
    obtain ⟨id, scope, hs, rfl⟩ := hscope
    exact ⟨id, ⟨scope, hs⟩, rfl⟩

theorem scopeEdges_eq : store.scopeEdges = store.scopeNodes.flatMap store.edges := by
  rw [scopeEdges, scopeNodes, ← Std.TreeMap.map_fst_toList_eq_keys, List.map_map,
    List.flatMap_map]
  refine List.flatMap_congr fun entry hentry => ?_
  obtain ⟨id, scope⟩ := entry
  rw [Std.TreeMap.mem_toList_iff_getElem?_eq_some] at hentry
  simp [edges, scope?, hentry]

/-- Functions and objects that exist, closed under the parts of objects. -/
theorem Sound.valueDomain (h : store.Sound owners) :
    Domain Node.parts store.fresh {n | n ∈ store.present owners ∧ n.isValue = true} := by
  refine ⟨?_, fun n hn m hm => h.eq_of_id n hn.1 m hm.1, fun n hn => h.id_lt n hn.1⟩
  intro n hn m hm
  obtain ⟨hn, -⟩ := hn
  cases n with
  | scope id => simp [Node.parts] at hm
  | function f => simp [Node.parts] at hm
  | object id fields =>
    refine ⟨present_of_edge hn hm, ?_⟩
    obtain ⟨entry, -, hnode⟩ := List.mem_filterMap.mp hm
    cases hvalue : entry.2 <;> simp [hvalue, Value.node?] at hnode <;> subst hnode <;> rfl

theorem mem_owned {owners : List Owner} :
    n ∈ owners.filterMap Owner.node? ↔ n ∈ ownedNodes owners := by
  simp [ownedNodes]

/-- Where the search for functions and objects begins. -/
theorem valueStarts (store : Store) (owners : List Owner) :
    ∀ s ∈ (owners.filterMap Owner.node? ++ store.scopeEdges).filter Node.isValue,
      s ∈ store.present owners ∧ s.isValue = true := by
  intro s hs
  obtain ⟨hs, hvalue⟩ := List.mem_filter.mp hs
  refine ⟨?_, hvalue⟩
  rcases List.mem_append.mp hs with hs | hs
  · exact present_of_owned (mem_owned.mp hs)
  · rw [scopeEdges_eq, List.mem_flatMap] at hs
    obtain ⟨r, hr, hedge⟩ := hs
    obtain ⟨id, scope, hscope, rfl⟩ := mem_scopeNodes.mp hr
    exact present_of_edge (present_of_scope hscope) hedge

theorem mem_valueNodes (h : store.Sound owners) :
    n ∈ store.valueNodes owners ↔ n ∈ store.present owners ∧ n.isValue = true := by
  have hmem (n : Node) := mem_visited h.valueDomain (valueStarts store owners) (n := n)
  refine Iff.trans (hmem n) ⟨?_, ?_⟩
  · intro hled
    obtain ⟨s, hs, hleads⟩ := hled
    exact h.valueDomain.mem_of_leads (valueStarts store owners s hs) hleads
  · -- Along a path, a function or an object is an owner's, a scope's, or part of an object before.
    have hsubset : store.present owners ⊆ {n | n.isValue = true →
        ∃ s ∈ (owners.filterMap Owner.node? ++ store.scopeEdges).filter Node.isValue,
          Leads Node.parts s n} := by
      refine present_subset ?_ ?_ ?_
      · intro r hr hvalue
        exact ⟨r, List.mem_filter.mpr ⟨List.mem_append_left _ (mem_owned.mpr hr), hvalue⟩, .refl⟩
      · intro id scope _ hvalue
        simp [Node.isValue] at hvalue
      intro r hr m hm hvalue
      cases r with
      | function f =>
        obtain rfl : m = .scope f.closure := by simpa using hm
        simp [Node.isValue] at hvalue
      | object id fields =>
        obtain ⟨s, hs, hleads⟩ := hr rfl
        exact ⟨s, hs, hleads.tail hm⟩
      | scope id =>
        obtain ⟨scope, hscope, -⟩ := mem_edges_scope.mp hm
        refine ⟨m, List.mem_filter.mpr ⟨List.mem_append_right _ ?_, hvalue⟩, .refl⟩
        rw [scopeEdges_eq]
        exact List.mem_flatMap.mpr ⟨_, mem_scopeNodes.mpr ⟨id, scope, hscope, rfl⟩, hm⟩
    intro hn
    exact hsubset hn.1 hn.2

theorem mem_existing (h : store.Sound owners) :
    n ∈ store.existing owners ↔ n ∈ store.present owners := by
  rw [existing, List.mem_append, mem_valueNodes h]
  constructor
  · intro hcases
    rcases hcases with hn | hn
    · obtain ⟨id, scope, hs, rfl⟩ := mem_scopeNodes.mp hn
      exact present_of_scope hs
    · exact hn.1
  · intro hn
    cases n with
    | scope id =>
      obtain ⟨scope, hs⟩ := h.scope_exists id hn
      exact .inl (mem_scopeNodes.mpr ⟨id, scope, hs, rfl⟩)
    | function f => exact .inr ⟨hn, rfl⟩
    | object id fields => exact .inr ⟨hn, rfl⟩

theorem nodup_existing (h : store.Sound owners) : (store.existing owners).Nodup := by
  refine List.nodup_append.mpr ⟨?_, nodup_visited h.valueDomain (valueStarts store owners), ?_⟩
  · refine List.Nodup.map (fun _ _ heq => Node.scope.inj heq) ?_
    refine List.Pairwise.imp ?_ (Std.TreeMap.distinct_keys (t := store.scopes))
    rintro a b hne rfl
    simp at hne
  · rintro n hn m hm rfl
    obtain ⟨id, scope, -, rfl⟩ := mem_scopeNodes.mp hn
    simpa [Node.isValue] using ((mem_valueNodes h).mp hm).2

/-! ## Handles -/

theorem handles_eq :
    store.handles owners =
      owners.filterMap Owner.node? ++ (store.existing owners).flatMap store.edges := by
  rw [handles, existing, List.flatMap_append, scopeEdges_eq, List.append_assoc]

/-- A node is held on to by an owner or along an edge of a node that exists. -/
theorem mem_handles (h : store.Sound owners) :
    n ∈ store.handles owners ↔
      n ∈ ownedNodes owners ∨ ∃ m ∈ store.present owners, n ∈ store.edges m := by
  simp only [handles_eq, List.mem_append, mem_owned, List.mem_flatMap, mem_existing h]

theorem present_of_handle (h : store.Sound owners) (hn : n ∈ store.handles owners) :
    n ∈ store.present owners := by
  rcases (mem_handles h).mp hn with hn | ⟨m, hm, hedge⟩
  · exact present_of_owned hn
  · exact present_of_edge hm hedge

end Store

end Scriptlet
