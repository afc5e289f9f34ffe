import Scriptlet.Heap.Collector
import Scriptlet.Proofs.Heap.Handles

/-!
# One scan

A scan counts: a member is held elsewhere if it has more handles than there are edges to it inside
the scan. In a sound store the count is exact (`mem_heldElsewhere`): every handle of a member is
either one of those edges, or belongs to an owner, to a node outside the scan, or to a node that the
scan cannot look into.

The members that are not live are condemned. Everything that holds on to a condemned node is itself
condemned (`holder_condemned`), so no owner leads to one (`not_reachable_of_condemned`): emptying
the condemned scopes leaves all that is reachable as it was.
-/

namespace Scriptlet.Store

variable {store new : Store} {owners : List Owner} {view : View} {n m : Node} {id : ScopeId}

/-! ## Edges inside and outside a scan -/

/-- The edges that a scan leaves out. -/
def edgesOut (store : Store) (view : View) (node : Node) : List Node :=
  if view.borrowed.contains node.id then store.edges node
  else (store.edges node).filter (view.excluded.contains ·.id)

theorem edgesIn_subset (store : Store) (view : View) (n : Node) :
    store.edgesIn view n ⊆ store.edges n := by
  unfold edgesIn
  split
  · exact List.nil_subset _
  · exact List.filter_subset_self _

theorem edges_perm (store : Store) (view : View) (n : Node) :
    (store.edges n).Perm (store.edgesIn view n ++ store.edgesOut view n) := by
  unfold edgesIn edgesOut
  split
  · exact List.Perm.refl _
  · have hsplit := List.filter_append_perm (fun m => !view.excluded.contains m.id) (store.edges n)
    simpa using hsplit.symm

theorem mem_edgesOut :
    m ∈ store.edgesOut view n ↔ m ∈ store.edges n ∧ m ∉ store.edgesIn view n := by
  unfold edgesIn edgesOut
  split
  · simp
  · simp only [List.mem_filter]
    cases view.excluded.contains m.id <;> simp

theorem leads_of_leadsIn (h : Leads (store.edgesIn view) n m) : Leads store.edges n m :=
  Relation.ReflTransGen.mono (fun first _ hstep => store.edgesIn_subset view first hstep) _ _ h

theorem Sound.scanDomain (h : store.Sound owners) (view : View) :
    Domain (store.edgesIn view) store.fresh (store.present owners) :=
  h.domain.of_subset (store.edgesIn_subset view)

/-! ## Counting handles -/

/-- Every handle is an edge inside the scan or one of the others. -/
theorem handles_perm (h : store.Sound owners) (view : View) {members : List Node}
    (hnodup : members.Nodup) (hsub : ∀ n ∈ members, n ∈ store.present owners) :
    ∃ rest : List Node, (∀ n, n ∈ rest ↔ n ∈ store.present owners ∧ n ∉ members) ∧
      (store.handles owners).Perm (members.flatMap (store.edgesIn view) ++
        (owners.filterMap Owner.node? ++ members.flatMap (store.edgesOut view) ++
          rest.flatMap store.edges)) := by
  classical
  refine ⟨(store.existing owners).filter (· ∉ members), fun n => ?_, ?_⟩
  · simp [mem_existing h]
  have hmembers : ((store.existing owners).filter (· ∈ members)).Perm members := by
    refine (List.perm_ext_iff_of_nodup ((nodup_existing h).filter _) hnodup).mpr fun n => ?_
    simp only [List.mem_filter, mem_existing h, decide_eq_true_eq]
    exact ⟨And.right, fun hn => ⟨hsub n hn, hn⟩⟩
  have hsplit : (store.existing owners).Perm
      (members ++ (store.existing owners).filter (· ∉ members)) := by
    have hfilter := List.filter_append_perm (· ∈ members) (store.existing owners)
    simpa using hfilter.symm.trans (hmembers.append_right _)
  have hedges : (members.flatMap store.edges).Perm
      (members.flatMap (store.edgesIn view) ++ members.flatMap (store.edgesOut view)) :=
    (List.Perm.flatMap_left members fun n _ => store.edges_perm view n).trans
      (List.flatMap_append_perm members _ _).symm
  have hall : ((store.existing owners).flatMap store.edges).Perm
      (members.flatMap (store.edgesIn view) ++ (members.flatMap (store.edgesOut view) ++
        ((store.existing owners).filter (· ∉ members)).flatMap store.edges)) := by
    refine (hsplit.flatMap_right _).trans ?_
    rw [List.flatMap_append, ← List.append_assoc]
    exact hedges.append_right _
  rw [handles_eq]
  refine (hall.append_left _).trans ?_
  rw [List.append_assoc]
  exact List.perm_append_comm_assoc _ _ _

/-- Whether a node has an owner outside a scan, as a scan with such members sees it. -/
def HeldOutside (store : Store) (owners : List Owner) (view : View) (members : Set Node)
    (n : Node) : Prop :=
  view.borrowed.contains n.id = true ∨ n ∈ ownedNodes owners ∨
    ∃ m ∈ store.present owners, n ∈ store.edges m ∧ ¬(m ∈ members ∧ n ∈ store.edgesIn view m)

/-- **The counts are exact.** -/
theorem mem_heldElsewhere (h : store.Sound owners) {members : List Node} (hnodup : members.Nodup)
    (hsub : ∀ n ∈ members, n ∈ store.present owners) :
    n ∈ store.heldElsewhere owners view members ↔
      n ∈ members ∧ store.HeldOutside owners view {m | m ∈ members} n := by
  simp only [heldElsewhere, List.mem_filter, Bool.or_eq_true, decide_eq_true_eq, tally_getD]
  refine and_congr_right fun hn => or_congr_right ?_
  obtain ⟨rest, hrest, hperm⟩ := handles_perm h view hnodup hsub
  rw [(hperm.map Node.id).count_eq, List.map_append, List.count_append, Nat.lt_add_right_iff_pos,
    List.count_pos_iff]
  have hids : ∀ l : List Node, (∀ m ∈ l, m ∈ store.present owners) →
      (n.id ∈ l.map Node.id ↔ n ∈ l) := by
    intro l hl
    refine ⟨fun hmem => ?_, List.mem_map_of_mem⟩
    obtain ⟨m, hm, hid⟩ := List.mem_map.mp hmem
    exact h.eq_of_id m (hl m hm) n (hsub n hn) hid ▸ hm
  rw [hids _ fun m hm => present_of_handle h (hperm.mem_iff.mpr (List.mem_append_right _ hm))]
  simp only [List.mem_append, mem_owned, List.mem_flatMap, mem_edgesOut, hrest]
  constructor
  · intro hcases
    rcases hcases with (hn | ⟨m, hm, hedge, hout⟩) | ⟨m, ⟨hm, hout⟩, hedge⟩
    · exact .inl hn
    · exact .inr ⟨m, hsub m hm, hedge, fun hin => hout hin.2⟩
    · exact .inr ⟨m, hm, hedge, fun hin => hout hin.1⟩
  · intro hcases
    rcases hcases with hn | ⟨m, hm, hedge, hout⟩
    · exact .inl (.inl hn)
    · by_cases hmem : m ∈ members
      · exact .inl (.inr ⟨m, hmem, hedge, fun hin => hout ⟨hmem, hin⟩⟩)
      · exact .inr ⟨m, ⟨hm, hmem⟩, hedge⟩

/-! ## Members and live members -/

/-- Whether a member of a scan has an owner elsewhere or is led to by such a member. -/
def Live (store : Store) (owners : List Owner) (view : View) (id : ScopeId) (n : Node) : Prop :=
  ∃ s, Leads (store.edgesIn view) (.scope id) s ∧
    store.HeldOutside owners view {m | Leads (store.edgesIn view) (.scope id) m} s ∧
    Leads (store.edgesIn view) s n

/-- The members of a scan that are not live. -/
def condemned (store : Store) (owners : List Owner) (view : View) (id : ScopeId) : Set Node :=
  {n | Leads (store.edgesIn view) (.scope id) n ∧ ¬store.Live owners view id n}

theorem start_present (hid : .scope id ∈ store.present owners) :
    ∀ s ∈ [Node.scope id], s ∈ store.present owners := by
  simpa using hid

theorem mem_members (h : store.Sound owners) (hid : .scope id ∈ store.present owners) :
    n ∈ (store.members view id).nodes ↔ Leads (store.edgesIn view) (.scope id) n := by
  have hmem := mem_visited (h.scanDomain view) (start_present hid) (n := n)
  simpa [members, reach] using hmem

theorem id_mem_members (h : store.Sound owners) (view : View)
    (hid : .scope id ∈ store.present owners) (hn : n ∈ store.present owners) :
    n.id ∈ store.members view id ↔ Leads (store.edgesIn view) (.scope id) n := by
  have hmem := id_mem_visit (h.scanDomain view) (start_present hid) hn
  simpa [members, reach] using hmem

theorem present_of_member (hid : .scope id ∈ store.present owners)
    (hn : Leads (store.edgesIn view) (.scope id) n) : n ∈ store.present owners :=
  present_of_leads hid (leads_of_leadsIn hn)

theorem mem_held (h : store.Sound owners) (hid : .scope id ∈ store.present owners) :
    n ∈ store.heldElsewhere owners view (store.members view id).nodes ↔
      Leads (store.edgesIn view) (.scope id) n ∧
        store.HeldOutside owners view {m | Leads (store.edgesIn view) (.scope id) m} n := by
  have hnodup : (store.members view id).nodes.Nodup :=
    nodup_visited (h.scanDomain view) (start_present hid)
  rw [mem_heldElsewhere h hnodup fun m hm => present_of_member hid ((mem_members h hid).mp hm)]
  simp only [mem_members h hid]

theorem id_mem_live (h : store.Sound owners) (view : View) (hid : .scope id ∈ store.present owners)
    (hn : n ∈ store.present owners) :
    n.id ∈ store.live owners view id ↔ store.Live owners view id n := by
  have hstarts : ∀ s ∈ store.heldElsewhere owners view (store.members view id).nodes,
      s ∈ store.present owners := fun s hs => present_of_member hid ((mem_held h hid).mp hs).1
  have hmem := id_mem_visit (h.scanDomain view) hstarts hn
  rw [live, reach, hmem]
  simp only [mem_held h hid, Live, and_assoc]

/-! ## Condemned members -/

theorem present_of_condemned (hid : .scope id ∈ store.present owners)
    (hn : n ∈ store.condemned owners view id) : n ∈ store.present owners :=
  present_of_member hid hn.1

/-- A condemned node has no owner, is not borrowed, and only condemned nodes hold on to it. -/
theorem holder_condemned (hn : n ∈ store.condemned owners view id) :
    view.borrowed.contains n.id = false ∧ n ∉ ownedNodes owners ∧
      ∀ m ∈ store.present owners, n ∈ store.edges m →
        m ∈ store.condemned owners view id ∧ n ∈ store.edgesIn view m := by
  obtain ⟨hmember, hdead⟩ := hn
  have hinside : ¬store.HeldOutside owners view
      {m | Leads (store.edgesIn view) (.scope id) m} n := fun hheld =>
    hdead ⟨n, hmember, hheld, .refl⟩
  refine ⟨?_, fun howned => hinside (.inr (.inl howned)), fun m hm hedge => ?_⟩
  · exact Bool.eq_false_iff.mpr fun hborrowed => hinside (.inl hborrowed)
  obtain ⟨hmem, hin⟩ := not_not.mp fun hout => hinside (.inr (.inr ⟨m, hm, hedge, hout⟩))
  refine ⟨⟨hmem, ?_⟩, hin⟩
  intro hlive
  obtain ⟨s, hs, hheld, hleads⟩ := hlive
  exact hdead ⟨s, hs, hheld, hleads.tail hin⟩

/-- No owner leads to a condemned node. -/
theorem not_reachable_of_condemned (hn : n ∈ store.condemned owners view id) :
    n ∉ store.reachable owners := by
  have hsubset : store.reachable owners ⊆
      {m | m ∈ store.present owners ∧ m ∉ store.condemned owners view id} := by
    refine reachable_subset ?_ ?_
    · exact fun m hm => ⟨present_of_owned hm, fun hc => (holder_condemned hc).2.1 hm⟩
    · intro m hm o ho
      obtain ⟨hm, hspared⟩ := hm
      exact ⟨present_of_edge hm ho, fun hc => hspared ((holder_condemned hc).2.2 m hm ho).1⟩
  exact fun hreach => (hsubset hreach).2 hn

/-! ## Emptying the condemned scopes -/

theorem scope?_foldl_clear (ids : List ScopeId) (store : Store) (other : ScopeId) :
    (ids.foldl clear store).scope? other =
      if other ∈ ids then (store.scope? other).map fun scope => { scope with bindings := [] }
      else store.scope? other := by
  induction ids generalizing store with
  | nil => simp
  | cons first rest ih =>
    rw [List.foldl_cons, ih, scope?_clear]
    by_cases hfirst : first = other
    · subst hfirst
      cases store.scope? first <;> simp
    · simp [hfirst, Ne.symm hfirst]

theorem reduces_foldl_clear (ids : List ScopeId) (store : Store) :
    Reduces (ids.foldl clear store) store := by
  induction ids generalizing store with
  | nil => exact .refl store
  | cons first rest ih => exact (Reduces.clear store first).trans (ih (store.clear first))

/-- The scan lets a scope be if the scope is borrowed or live. -/
theorem free?_eq_none (h : store.Sound owners) (borrowed : List ScopeId)
    (hid : .scope id ∈ store.present owners) :
    store.free? owners borrowed id = none ↔
      borrowed.contains id = true ∨
        store.Live owners (store.viewFrom borrowed id) id (.scope id) := by
  have hlive := id_mem_live h (store.viewFrom borrowed id) hid hid
  have hnode : Node.id (.scope id) = id := rfl
  rw [hnode, ← Std.TreeMap.contains_iff_mem] at hlive
  rw [← hlive, free?]
  cases hborrowed : borrowed.contains id
  · cases hcontains : (store.live owners (store.viewFrom borrowed id) id).contains id <;>
      simp [hcontains]
  · simp

section Free

variable {borrowed : List ScopeId} (h : store.Sound owners)
  (hid : .scope id ∈ store.present owners) (hfree : store.free? owners borrowed id = some new)

include hfree in
theorem free?_eq_some :
    new = (((store.members (store.viewFrom borrowed id) id).keys.filter
      (!(store.live owners (store.viewFrom borrowed id) id).contains ·)).foldl clear store) := by
  simp only [free?] at hfree
  split at hfree
  · simp at hfree
  · split at hfree
    · simp at hfree
    · simpa using hfree.symm

include h hid in
theorem mem_cleared {other : ScopeId} (hother : .scope other ∈ store.present owners) :
    other ∈ (store.members view id).keys.filter
        (!(store.live owners view id).contains ·) ↔
      .scope other ∈ store.condemned owners view id := by
  have hmember := id_mem_members h view hid hother
  have hlive := id_mem_live h view hid hother
  have hnode : Node.id (.scope other) = other := rfl
  rw [hnode] at hmember hlive
  rw [List.mem_filter, Std.TreeMap.mem_keys, hmember, condemned, Set.mem_ofPred_eq, ← hlive,
    Bool.not_eq_true', ← Bool.not_eq_true, Std.TreeMap.contains_iff_mem]

include hfree in
theorem reduces_free : Reduces new store := free?_eq_some hfree ▸ reduces_foldl_clear _ store

include h hid hfree in
/-- Condemned scopes are emptied. -/
theorem scope?_of_condemned {other : ScopeId}
    (hother : .scope other ∈ store.condemned owners (store.viewFrom borrowed id) id) :
    new.scope? other = (store.scope? other).map fun scope => { scope with bindings := [] } := by
  rw [free?_eq_some hfree, scope?_foldl_clear,
    if_pos ((mem_cleared h hid (present_of_condemned hid hother)).mpr hother)]

include h hid hfree in
/-- All other scopes stay as they are. -/
theorem scope?_of_not_condemned {other : ScopeId}
    (hother : .scope other ∉ store.condemned owners (store.viewFrom borrowed id) id) :
    new.scope? other = store.scope? other := by
  rw [free?_eq_some hfree, scope?_foldl_clear]
  split
  · rename_i hmem
    cases hscope : store.scope? other with
    | none => rfl
    | some scope =>
      exact absurd ((mem_cleared h hid (present_of_scope hscope)).mp hmem) hother
  · rfl

include h hid hfree in
/-- The scope that the scan starts at is condemned if it is freed. -/
theorem condemned_of_free :
    .scope id ∈ store.condemned owners (store.viewFrom borrowed id) id := by
  refine ⟨.refl, fun hlive => ?_⟩
  have hnone := (free?_eq_none h borrowed hid).mpr (.inr hlive)
  simp [hnone] at hfree

end Free

end Scriptlet.Store
