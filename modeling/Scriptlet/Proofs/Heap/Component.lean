import Mathlib.Data.Set.Card
import Scriptlet.Proofs.Heap.Scan

/-!
# Which scopes a scan frees

A scan leaves out the scopes that enclose its starting point. It frees an unreachable scope exactly
if everything that leads to the scope is led to by it on a path below those (`free?_eq_none_iff`);
such a scope is `Topmost`.

Among unreachable scopes there is always a topmost one (`exists_topmost`). Take a component that no
other component leads to, and in it the scope with the least identity: parents are older than their
children, so nothing that encloses it belongs to the component, and the paths inside the component
avoid all that.
-/

namespace Scriptlet.Store

variable {store new : Store} {owners : List Owner} {n m : Node} {id a c : ScopeId}

/-! ## Enclosing scopes -/

/-- Whether a scope is on the way up from another one. -/
def Encloses (store : Store) : ScopeId → ScopeId → Prop :=
  Relation.TransGen fun outer inner => (store.scope? inner).bind Scope.parent = some outer

theorem parent_spec {p : ScopeId} (hp : (store.scope? id).bind Scope.parent = some p) :
    ∃ scope, store.scope? id = some scope ∧ scope.parent = some p := by
  simpa [Option.bind_eq_some_iff] using hp

/-- Whether every parent was made before its children. -/
def Forest (store : Store) : Prop :=
  ∀ id scope, store.scope? id = some scope → ∀ p, scope.parent = some p → p < id

theorem Forest.parent_lt (h : store.Forest) {p : ScopeId}
    (hp : (store.scope? id).bind Scope.parent = some p) : p < id := by
  obtain ⟨scope, hs, hparent⟩ := parent_spec hp
  exact h id scope hs p hparent

theorem Forest.encloses_lt (h : store.Forest) (ha : store.Encloses a c) : a < c := by
  induction ha with
  | single hp => exact h.parent_lt hp
  | tail _ hp ih => exact ih.trans (h.parent_lt hp)

theorem Sound.encloses_lt (h : store.Sound owners) (ha : store.Encloses a c) : a < c :=
  Forest.encloses_lt h.parent_lt ha

theorem leads_of_encloses (ha : store.Encloses a c) :
    Leads store.edges (.scope c) (.scope a) := by
  have hstep : ∀ {p id : ScopeId}, (store.scope? id).bind Scope.parent = some p →
      .scope p ∈ store.edges (.scope id) := by
    intro p id hp
    obtain ⟨scope, hs, hparent⟩ := parent_spec hp
    exact mem_edges_scope.mpr ⟨scope, hs, Scope.mem_edges.mpr (.inr ⟨p, hparent, rfl⟩)⟩
  induction ha with
  | single hp => exact .single (hstep hp)
  | tail _ hp ih => exact ih.head (hstep hp)

theorem encloses_iff :
    store.Encloses a c ↔
      ∃ p ∈ (store.scope? c).bind Scope.parent, a = p ∨ store.Encloses a p := by
  rw [Encloses, Relation.TransGen.tail'_iff]
  constructor
  · intro hup
    obtain ⟨p, hle, hp⟩ := hup
    rcases Relation.reflTransGen_iff_eq_or_transGen.mp hle with rfl | hlt
    · exact ⟨p, hp, .inl rfl⟩
    · exact ⟨p, hp, .inr hlt⟩
  · intro hcases
    obtain ⟨p, hp, rfl | hlt⟩ := hcases
    · exact ⟨a, .refl, hp⟩
    · exact ⟨p, hlt.to_reflTransGen, hp⟩

theorem Sound.mem_enclosing (h : store.Sound owners) (steps : Nat) (next : Option ScopeId)
    (hnext : ∀ p ∈ next, p < steps) :
    a ∈ store.enclosing [] steps next ↔ ∃ p ∈ next, a = p ∨ store.Encloses a p := by
  induction steps generalizing next with
  | zero =>
    cases next with
    | none => simp [enclosing]
    | some p => exact absurd (hnext p rfl) (Nat.not_lt_zero p)
  | succ steps ih =>
    cases next with
    | none => simp [enclosing]
    | some p =>
      have hparent : ∀ q ∈ (store.scope? p).bind Scope.parent, q < steps := fun q hq =>
        (h.encloses_lt (.single hq)).trans_le (Nat.lt_succ_iff.mp (hnext p rfl))
      simp only [enclosing, List.contains_nil, Bool.false_eq_true, if_false, List.mem_cons,
        ih _ hparent, Option.mem_def, Option.some.injEq, exists_eq_left']
      exact or_congr_right encloses_iff.symm

theorem Sound.mem_excluded (h : store.Sound owners) :
    a ∈ (store.viewFrom [] c).excluded ↔ store.Encloses a c := by
  have hparent : ∀ q ∈ (store.scope? c).bind Scope.parent, q < c + 1 := fun q hq =>
    (h.encloses_lt (.single hq)).trans (Nat.lt_succ_self c)
  rw [viewFrom, h.mem_enclosing (c + 1) _ hparent, ← encloses_iff]

/-! ## Topmost scopes -/

/-- A path from one node to another below all that encloses a scope. -/
def LeadsBelow (store : Store) (c : ScopeId) : Node → Node → Prop :=
  Relation.ReflTransGen fun first second =>
    second ∈ store.edges first ∧ ∀ a, store.Encloses a c → second ≠ .scope a

/-- Whether everything that leads to a scope is led to by it, below all that encloses it. -/
def Topmost (store : Store) (owners : List Owner) (c : ScopeId) : Prop :=
  ∀ n ∈ store.present owners, Leads store.edges n (.scope c) → store.LeadsBelow c (.scope c) n

theorem mem_edgesIn (h : store.Sound owners) (hm : m ∈ store.present owners) :
    m ∈ store.edgesIn (store.viewFrom [] c) n ↔
      m ∈ store.edges n ∧ ∀ a, store.Encloses a c → m ≠ .scope a := by
  have hexcluded : m.id ∈ (store.viewFrom [] c).excluded ↔
      ∃ a, store.Encloses a c ∧ m = .scope a := by
    rw [h.mem_excluded]
    constructor
    · intro hencloses
      obtain ⟨_, _, hp⟩ := (Relation.TransGen.tail'_iff.mp hencloses)
      obtain ⟨scope, hs, -⟩ := parent_spec hp
      have hc : .scope c ∈ store.present owners := present_of_scope hs
      have ha := present_of_leads hc (leads_of_encloses hencloses)
      exact ⟨m.id, hencloses, h.eq_of_id m hm _ ha rfl⟩
    · intro houter
      obtain ⟨a, hencloses, rfl⟩ := houter
      exact hencloses
  have hborrowed : ¬(store.viewFrom [] c).borrowed.contains n.id = true := by simp [viewFrom]
  rw [edgesIn, if_neg hborrowed]
  simp only [List.mem_filter, Bool.not_eq_true', List.contains_eq_mem, decide_eq_false_iff_not,
    hexcluded, not_exists, not_and, ne_eq]

theorem leadsIn_iff (h : store.Sound owners) (hc : .scope c ∈ store.present owners) :
    Leads (store.edgesIn (store.viewFrom [] c)) (.scope c) n ↔
      store.LeadsBelow c (.scope c) n := by
  constructor
  · intro hleads
    induction hleads with
    | refl => exact .refl
    | tail hpath hstep ih =>
      have hpresent := present_of_member hc (hpath.tail hstep)
      exact ih.tail ((mem_edgesIn h hpresent).mp hstep)
  · intro hleads
    induction hleads with
    | refl => exact .refl
    | tail _ hstep ih =>
      have hpresent := present_of_edge (present_of_member hc ih) hstep.1
      exact ih.tail ((mem_edgesIn h hpresent).mpr hstep)

/-- The starting point of a scan is live exactly if an owner leads to it or it is not topmost. -/
theorem live_iff (h : store.Sound owners) (hc : .scope c ∈ store.present owners) :
    store.Live owners (store.viewFrom [] c) c (.scope c) ↔
      .scope c ∈ store.reachable owners ∨ ¬store.Topmost owners c := by
  constructor
  · intro hlive
    obtain ⟨s, hs, hheld, hleads⟩ := hlive
    rcases hheld with hborrowed | howned | ⟨m, hm, hedge, hout⟩
    · simp [viewFrom] at hborrowed
    · exact .inl ⟨s, howned, leads_of_leadsIn hleads⟩
    · refine .inr fun htop => hout ?_
      have hmember := htop m hm ((leads_of_leadsIn hleads).head hedge)
      refine ⟨(leadsIn_iff h hc).mpr hmember, ?_⟩
      refine (mem_edgesIn h (present_of_edge hm hedge)).mpr ⟨hedge, ?_⟩
      rintro a hencloses rfl
      rcases Relation.ReflTransGen.cases_tail hs with heq | ⟨_, _, hstep⟩
      · cases heq
        exact absurd (h.encloses_lt hencloses) (Nat.lt_irrefl _)
      · exact ((mem_edgesIn h (present_of_edge hm hedge)).mp hstep).2 a hencloses rfl
  · contrapose!
    intro hdead
    have hcondemned : .scope c ∈ store.condemned owners (store.viewFrom [] c) c := ⟨.refl, hdead⟩
    refine ⟨not_reachable_of_condemned hcondemned, fun n hn hleads => ?_⟩
    -- Backwards along the path: whatever holds on to a condemned node is condemned.
    have hback : n ∈ store.condemned owners (store.viewFrom [] c) c := by
      induction hleads using Relation.ReflTransGen.head_induction_on with
      | refl => exact hcondemned
      | head hstep _ ih =>
        exact ((holder_condemned (ih (present_of_edge hn hstep))).2.2 _ hn hstep).1
    exact (leadsIn_iff h hc).mp hback.1

/-- **A scan frees a scope exactly if no owner leads to it and it is topmost.** -/
theorem free?_eq_none_iff (h : store.Sound owners) (hc : .scope c ∈ store.present owners) :
    store.free? owners [] c = none ↔
      .scope c ∈ store.reachable owners ∨ ¬store.Topmost owners c := by
  rw [free?_eq_none h [] hc, live_iff h hc]
  simp

/-! ## There is a topmost scope -/

/-- The scopes that exist although no owner leads to them. -/
def unreachable (store : Store) (owners : List Owner) : Set ScopeId :=
  {id | (∃ scope, store.scope? id = some scope) ∧ .scope id ∉ store.reachable owners}

/-- The scopes that lead to a scope. -/
def above (store : Store) (id : ScopeId) : Set ScopeId :=
  {a | (∃ scope, store.scope? a = some scope) ∧ Leads store.edges (.scope a) (.scope id)}

theorem Sound.finite_scopes (h : store.Sound owners) :
    {id | ∃ scope, store.scope? id = some scope}.Finite := by
  apply (Set.finite_lt_nat store.fresh).subset
  intro id hid
  obtain ⟨scope, hs⟩ := hid
  exact h.id_lt _ (present_of_scope hs)

theorem Sound.finite_unreachable (h : store.Sound owners) : (store.unreachable owners).Finite :=
  h.finite_scopes.subset fun _ hid => hid.1

theorem not_reachable_of_leads (hm : m ∉ store.reachable owners) (hleads : Leads store.edges n m) :
    n ∉ store.reachable owners := by
  intro hreach
  obtain ⟨r, hr, hn⟩ := hreach
  exact hm ⟨r, hr, hn.trans hleads⟩

/-- Some unreachable scope leads to every scope that leads to it. -/
theorem exists_source (h : store.Sound owners) (hid : id ∈ store.unreachable owners) :
    ∃ c ∈ store.unreachable owners, ∀ a ∈ store.above c, c ∈ store.above a := by
  induction hcard : (store.above id).ncard using Nat.strong_induction_on generalizing id with
  | _ count ih =>
    by_cases hsource : ∀ a ∈ store.above id, id ∈ store.above a
    · exact ⟨id, hid, hsource⟩
    · push Not at hsource
      obtain ⟨a, ha, hnot⟩ := hsource
      have hless : (store.above a).ncard < count := by
        rw [← hcard]
        refine Set.ncard_lt_ncard ?_ (h.finite_scopes.subset fun _ hb => hb.1)
        refine ⟨fun b hb => ⟨hb.1, hb.2.trans ha.2⟩, fun hsub => hnot (hsub ⟨hid.1, .refl⟩)⟩
      exact ih _ hless ⟨ha.1, not_reachable_of_leads hid.2 ha.2⟩ rfl

/-- **If any scope is unreachable, one of them is topmost.** -/
theorem exists_topmost (h : store.Sound owners) (hid : id ∈ store.unreachable owners) :
    ∃ c ∈ store.unreachable owners, store.Topmost owners c := by
  obtain ⟨start, hstart, hsource⟩ := exists_source h hid
  -- The oldest scope of the component.
  obtain ⟨c, ⟨hc, hsource⟩, hleast⟩ := WellFounded.has_min (r := ((· < ·) : Nat → Nat → Prop))
    wellFounded_lt {c | c ∈ store.unreachable owners ∧ ∀ a ∈ store.above c, c ∈ store.above a}
    ⟨start, hstart, hsource⟩
  refine ⟨c, hc, fun n hn hleads => ?_⟩
  have hforth : Leads store.edges (.scope c) n := by
    obtain ⟨r, hr | ⟨a, scope, hs, rfl⟩, hpath⟩ := hn
    · exact absurd ⟨r, hr, hpath.trans hleads⟩ hc.2
    · exact (hsource a ⟨⟨scope, hs⟩, hpath.trans hleads⟩).2.trans hpath
  obtain ⟨scope, hs⟩ := hc.1
  have hpresent : .scope c ∈ store.present owners := present_of_scope hs
  induction hforth with
  | refl => exact .refl
  | tail hpath hstep ih =>
    have hbefore := present_of_leads hpresent hpath
    refine (ih hbefore (hleads.head hstep)).tail ⟨hstep, ?_⟩
    rintro a hencloses rfl
    obtain ⟨outer, houter⟩ := h.scope_exists a hn
    refine hleast a ⟨⟨⟨outer, houter⟩, not_reachable_of_leads hc.2 hleads⟩, fun b hb => ?_⟩
      (h.encloses_lt hencloses)
    exact ⟨⟨outer, houter⟩, hleads.trans (hsource b ⟨hb.1, hb.2.trans hleads⟩).2⟩

end Scriptlet.Store
