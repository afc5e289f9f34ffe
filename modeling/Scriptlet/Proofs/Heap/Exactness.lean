import Scriptlet.Proofs.Heap.Component
import Scriptlet.Proofs.Heap.Workbench

/-!
# One scan is exact

A scan of a scope concerns the nodes that the scope leads to without entering what encloses it
(`Store.scanned`). Of these it has to keep what is led to by one with an owner outside: an owner of
its own, or a node that exists and is not scanned, such as an enclosing scope (`Store.Kept`).

The scan itself works differently. It counts, stops at scopes that are borrowed, and no longer knows
what encloses those. What it condemns is still exactly what need not be kept (`mem_condemned_iff`).
Both sets are closed against the edges: nothing in them is owned, and whatever holds on to a member
is a member. No enclosing scope is condemned, since the child on the way down to the starting point
would be condemned with it, and the last parent on that way is left out of every scan.

Nothing here depends on the order in which a scan goes through holds and nodes. `Enumeration` is any
such order, and a scan in any order has the same outcome (`Enumeration.outcome_eq`).
-/

namespace Scriptlet

namespace Store

variable {store new : Store} {owners : List Owner} {borrowed : List ScopeId} {view : View}
  {n m : Node} {s a : ScopeId}

/-! ## What has to be kept -/

/-- What a scope leads to without entering what encloses it. -/
def scanned (store : Store) (s : ScopeId) : Set Node := {n | store.LeadsBelow s (.scope s) n}

/-- Whether something that a scan of a scope does not concern holds on to a node. -/
def OwnedOutside (store : Store) (owners : List Owner) (s : ScopeId) (n : Node) : Prop :=
  n ∈ ownedNodes owners ∨
    ∃ m ∈ store.present owners, m ∉ store.scanned s ∧ n ∈ store.edges m

/-- Whether a scanned node with an owner outside leads to a node. -/
def Kept (store : Store) (owners : List Owner) (s : ScopeId) (n : Node) : Prop :=
  ∃ o ∈ store.scanned s, store.OwnedOutside owners s o ∧ Leads store.edges o n

/-- A scanned node that need not be kept has no owner, and what holds on to it is like it. -/
theorem holder_not_kept (hn : n ∈ store.scanned s) (hfree : ¬store.Kept owners s n) :
    n ∉ ownedNodes owners ∧ ∀ m ∈ store.present owners, n ∈ store.edges m →
      m ∈ store.scanned s ∧ ¬store.Kept owners s m := by
  refine ⟨fun howned => hfree ⟨n, hn, .inl howned, .refl⟩, fun m hm hedge => ⟨?_, ?_⟩⟩
  · by_contra hout
    exact hfree ⟨n, hn, .inr ⟨m, hm, hout, hedge⟩, .refl⟩
  · intro hkept
    obtain ⟨o, ho, hout, hleads⟩ := hkept
    exact hfree ⟨o, ho, hout, hleads.tail hedge⟩

/-- Backwards along a path: a set that has the holders of its members has what leads to them. -/
theorem mem_of_leads_back {nodes : Set Node}
    (hclosed : ∀ n ∈ nodes, ∀ m ∈ store.present owners, n ∈ store.edges m → m ∈ nodes)
    (hm : m ∈ store.present owners) (hleads : Leads store.edges m n) (hn : n ∈ nodes) :
    m ∈ nodes := by
  induction hleads using Relation.ReflTransGen.head_induction_on with
  | refl => exact hn
  | head hstep _ ih => exact hclosed _ (ih (present_of_edge hm hstep)) _ hm hstep

theorem leads_of_scanned (hn : n ∈ store.scanned s) : Leads store.edges (.scope s) n :=
  Relation.ReflTransGen.mono (fun _ _ hstep => hstep.1) _ _ hn

theorem Sound.not_encloses_of_scanned (h : store.Sound owners) (hn : .scope a ∈ store.scanned s) :
    ¬store.Encloses a s := by
  intro hencloses
  rcases Relation.ReflTransGen.cases_tail hn with heq | ⟨_, _, hstep⟩
  · cases heq
    exact Nat.lt_irrefl _ (h.encloses_lt hencloses)
  · exact hstep.2 a hencloses rfl

/-! ## What is condemned -/

/-- A scan leaves out only what encloses its starting point. -/
theorem encloses_of_excluded (ha : a ∈ (store.viewFrom borrowed s).excluded) :
    store.Encloses a s := by
  have hup : ∀ (steps : Nat) (next : Option ScopeId), a ∈ store.enclosing borrowed steps next →
      ∃ p ∈ next, a = p ∨ store.Encloses a p := by
    intro steps
    induction steps with
    | zero => simp [enclosing]
    | succ steps ih =>
      intro next hmem
      cases next with
      | none => simp [enclosing] at hmem
      | some p =>
        refine ⟨p, rfl, ?_⟩
        rcases List.mem_cons.mp hmem with rfl | hrest
        · exact .inl rfl
        · split at hrest
          · simp at hrest
          · exact .inr (encloses_iff.mpr (ih _ hrest))
  exact encloses_iff.mpr (hup _ _ ha)

/-- It does leave out the parent. -/
theorem excluded_of_parent {p : ScopeId} (hp : (store.scope? s).bind Scope.parent = some p) :
    p ∈ (store.viewFrom borrowed s).excluded := by
  rw [viewFrom, hp]
  exact List.mem_cons_self

theorem not_mem_edgesIn_of_excluded (ha : a ∈ view.excluded) :
    .scope a ∉ store.edgesIn view n := by
  intro hmem
  unfold edgesIn at hmem
  split at hmem
  · simp at hmem
  · have hout := (List.mem_filter.mp hmem).2
    simp [Node.id, ha] at hout

/-- No scope that encloses the starting point is condemned. -/
theorem not_encloses_of_condemned
    (ha : .scope a ∈ store.condemned owners (store.viewFrom borrowed s) s) :
    ¬store.Encloses a s := by
  intro hencloses
  have hholder : ∀ {p c : ScopeId}, (store.scope? c).bind Scope.parent = some p →
      .scope c ∈ store.present owners ∧ .scope p ∈ store.edges (.scope c) := by
    intro p c hp
    obtain ⟨scope, hs, hparent⟩ := parent_spec hp
    exact ⟨present_of_scope hs,
      mem_edges_scope.mpr ⟨scope, hs, Scope.mem_edges.mpr (.inr ⟨p, hparent, rfl⟩)⟩⟩
  -- Downwards from the enclosing scope: each child on the way is condemned with its parent.
  induction hencloses using Relation.TransGen.head_induction_on with
  | single hp =>
    obtain ⟨hchild, hedge⟩ := hholder hp
    exact not_mem_edgesIn_of_excluded (excluded_of_parent hp)
      ((holder_condemned ha).2.2 _ hchild hedge).2
  | head hp _ ih =>
    obtain ⟨hchild, hedge⟩ := hholder hp
    exact ih ((holder_condemned ha).2.2 _ hchild hedge).1

theorem scanned_of_condemned (hs : .scope s ∈ store.present owners)
    (hn : n ∈ store.condemned owners (store.viewFrom borrowed s) s) : n ∈ store.scanned s := by
  have hpath := hn.1
  induction hpath with
  | refl => exact .refl
  | tail hbefore hstep ih =>
    have hedge := store.edgesIn_subset _ _ hstep
    have hholder := (holder_condemned hn).2.2 _ (present_of_member hs hbefore) hedge
    refine (ih hholder.1).tail ⟨hedge, ?_⟩
    rintro a hencloses rfl
    exact not_encloses_of_condemned hn hencloses

section Condemned

variable (h : store.Sound owners) (hs : .scope s ∈ store.present owners)
  (hborrowed : ∀ b ∈ borrowed, .scope b ∈ owners)

include h hs hborrowed

/-- A scan does not overlook a hold among nodes that need not be kept. -/
theorem mem_edgesIn_of_not_kept (hm : m ∈ store.scanned s) (hfree : ¬store.Kept owners s m)
    (hn : n ∈ store.scanned s) (hedge : n ∈ store.edges m) :
    n ∈ store.edgesIn (store.viewFrom borrowed s) m := by
  have hmpresent := present_of_leads hs (leads_of_scanned hm)
  have hnpresent := present_of_leads hs (leads_of_scanned hn)
  have hlooked : m.id ∉ borrowed := by
    intro hmem
    have howner := hborrowed _ hmem
    have hnode : .scope m.id ∈ ownedNodes owners := ⟨_, howner, rfl⟩
    have heq : m = .scope m.id := h.eq_of_id m hmpresent _ (present_of_owned hnode) rfl
    exact (holder_not_kept hm hfree).1 (heq ▸ hnode)
  have hbelow : n.id ∉ (store.viewFrom borrowed s).excluded := by
    intro hmem
    have hencloses := encloses_of_excluded hmem
    have houter := present_of_leads hs (leads_of_encloses hencloses)
    have heq : n = .scope n.id := h.eq_of_id n hnpresent _ houter rfl
    exact h.not_encloses_of_scanned (heq ▸ hn) hencloses
  have hview : (store.viewFrom borrowed s).borrowed = borrowed := rfl
  rw [edgesIn, hview, if_neg (by simpa using hlooked)]
  exact List.mem_filter.mpr ⟨hedge, by simpa using hbelow⟩

theorem member_of_not_kept (hn : n ∈ store.scanned s) (hfree : ¬store.Kept owners s n) :
    Leads (store.edgesIn (store.viewFrom borrowed s)) (.scope s) n := by
  have hpath := hn
  induction hpath with
  | refl => exact .refl
  | tail hbefore hstep ih =>
    have hpresent := present_of_leads hs (leads_of_scanned hbefore)
    obtain ⟨hscanned, hnot⟩ := (holder_not_kept hn hfree).2 _ hpresent hstep.1
    exact (ih hscanned hnot).tail
      (mem_edgesIn_of_not_kept h hs hborrowed hscanned hnot hn hstep.1)

theorem not_heldOutside_of_not_kept (hn : n ∈ store.scanned s) (hfree : ¬store.Kept owners s n) :
    ¬store.HeldOutside owners (store.viewFrom borrowed s)
      {m | Leads (store.edgesIn (store.viewFrom borrowed s)) (.scope s) m} n := by
  obtain ⟨hunowned, hholders⟩ := holder_not_kept hn hfree
  have hpresent := present_of_leads hs (leads_of_scanned hn)
  rintro (hlent | howned | ⟨m, hm, hedge, hout⟩)
  · have hnode : .scope n.id ∈ ownedNodes owners :=
      ⟨_, hborrowed _ (by simpa [viewFrom] using hlent), rfl⟩
    exact hunowned (h.eq_of_id n hpresent _ (present_of_owned hnode) rfl ▸ hnode)
  · exact hunowned howned
  · obtain ⟨hscanned, hnot⟩ := hholders m hm hedge
    exact hout ⟨member_of_not_kept h hs hborrowed hscanned hnot,
      mem_edgesIn_of_not_kept h hs hborrowed hscanned hnot hn hedge⟩

/-- **A scan condemns exactly the scanned nodes that need not be kept.** -/
theorem mem_condemned_iff :
    n ∈ store.condemned owners (store.viewFrom borrowed s) s ↔
      n ∈ store.scanned s ∧ ¬store.Kept owners s n := by
  constructor
  · intro hn
    refine ⟨scanned_of_condemned hs hn, ?_⟩
    rintro ⟨o, ho, hout, hleads⟩
    have hback : o ∈ store.condemned owners (store.viewFrom borrowed s) s :=
      mem_of_leads_back (fun _ hc m hm hedge => ((holder_condemned hc).2.2 m hm hedge).1)
        (present_of_leads hs (leads_of_scanned ho)) hleads hn
    rcases hout with howned | ⟨m, hm, hout, hedge⟩
    · exact (holder_condemned hback).2.1 howned
    · exact hout (scanned_of_condemned hs ((holder_condemned hback).2.2 m hm hedge).1)
  · rintro ⟨hn, hfree⟩
    refine ⟨member_of_not_kept h hs hborrowed hn hfree, ?_⟩
    rintro ⟨q, hq, hheld, hleads⟩
    have hback : q ∈ {n | n ∈ store.scanned s ∧ ¬store.Kept owners s n} :=
      mem_of_leads_back (fun _ hc m hm hedge => (holder_not_kept hc.1 hc.2).2 m hm hedge)
        (present_of_member hs hq) (leads_of_leadsIn hleads) ⟨hn, hfree⟩
    exact not_heldOutside_of_not_kept h hs hborrowed hback.1 hback.2 hheld

end Condemned

/-! ## The order of a scan -/

/-- An order for a scan to go through things: the holds of each node, the nodes that it has found,
and the scopes that it empties. -/
structure Enumeration (store : Store) where
  holds : Node → List Node
  holds_perm : ∀ n, (holds n).Perm (store.edges n)
  nodes : List Node → List Node
  nodes_perm : ∀ l, (nodes l).Perm l
  scopes : List ScopeId → List ScopeId
  scopes_perm : ∀ l, (scopes l).Perm l

namespace Enumeration

/-- The order in which a scan goes by itself. -/
def given (store : Store) : store.Enumeration :=
  ⟨store.edges, fun _ => .refl _, id, fun _ => .refl _, id, fun _ => .refl _⟩

variable (order : store.Enumeration)

/-- `Store.edgesIn` in some order. -/
def edgesIn (view : View) (node : Node) : List Node :=
  if view.borrowed.contains node.id then []
  else (order.holds node).filter (!view.excluded.contains ·.id)

/-- `Store.members` in some order. -/
def members (view : View) (s : ScopeId) : Nodes :=
  visit (order.edgesIn view) store.fresh [.scope s] ∅

/-- `Store.heldElsewhere` in some order. -/
def heldElsewhere (owners : List Owner) (view : View) (members : List Node) : List Node :=
  let held := tally ((store.handles owners).map Node.id)
  let inner := tally ((members.flatMap (order.edgesIn view)).map Node.id)
  members.filter fun node =>
    view.borrowed.contains node.id || inner.getD node.id 0 < held.getD node.id 0

/-- `Store.live` in some order. -/
def live (owners : List Owner) (view : View) (s : ScopeId) : Nodes :=
  visit (order.edgesIn view) store.fresh
    (order.heldElsewhere owners view (order.nodes (order.members view s).nodes)) ∅

/-- `Store.free?` in some order. -/
def free? (owners : List Owner) (borrowed : List ScopeId) (s : ScopeId) : Option Store :=
  if borrowed.contains s then none
  else
    let view := store.viewFrom borrowed s
    let live := order.live owners view s
    if live.contains s then none
    else some ((order.scopes ((order.members view s).keys.filter (!live.contains ·))).foldl
      clear store)

/-- In the order in which it goes by itself, a scan is `Store.free?`. -/
example (owners : List Owner) (borrowed : List ScopeId) (s : ScopeId) :
    (given store).free? owners borrowed s = store.free? owners borrowed s := rfl

theorem edgesIn_perm (view : View) (n : Node) :
    (order.edgesIn view n).Perm (store.edgesIn view n) := by
  unfold edgesIn Store.edgesIn
  split
  · exact .refl _
  · exact (order.holds_perm n).filter _

section Outcome

variable (h : store.Sound owners) (hs : .scope s ∈ store.present owners)

include h

/-- Two visits that start at the same nodes see the same. -/
theorem getElem?_visit_congr {starts starts' : List Node} (hsame : ∀ n, n ∈ starts' ↔ n ∈ starts)
    (hstarts : ∀ n ∈ starts, n ∈ store.present owners) (id : Nat) :
    (visit (order.edgesIn view) store.fresh starts' ∅)[id]? =
      (visit (store.edgesIn view) store.fresh starts ∅)[id]? := by
  have hedge : ∀ n m, m ∈ order.edgesIn view n ↔ m ∈ store.edgesIn view n := fun n m =>
    (order.edgesIn_perm view n).mem_iff
  have hdom := h.scanDomain view
  have hdom' : Domain (order.edgesIn view) store.fresh (store.present owners) :=
    hdom.of_subset fun n => (order.edgesIn_perm view n).subset
  refine Option.ext fun n => ?_
  rw [getElem?_visit hdom hstarts,
    getElem?_visit hdom' fun n hn => hstarts n ((hsame n).mp hn)]
  simp only [Leads, hedge, hsame]

include hs

theorem getElem?_members (id : Nat) :
    (order.members view s)[id]? = (store.members view s)[id]? :=
  order.getElem?_visit_congr h (fun _ => Iff.rfl) (start_present hs) id

theorem nodes_members_perm :
    (order.nodes (order.members view s).nodes).Perm (store.members view s).nodes := by
  have hdom := h.scanDomain view
  have hdom' : Domain (order.edgesIn view) store.fresh (store.present owners) :=
    hdom.of_subset fun n => (order.edgesIn_perm view n).subset
  refine (order.nodes_perm _).trans ?_
  refine (List.perm_ext_iff_of_nodup (nodup_visited hdom' (start_present hs))
    (nodup_visited hdom (start_present hs))).mpr fun n => ?_
  simp only [Nodes.mem_nodes]
  refine exists_congr fun id => ?_
  rw [order.getElem?_visit_congr h (fun _ => Iff.rfl) (start_present hs) id]

omit h hs in
/-- The counts do not depend on the order. -/
theorem mem_heldElsewhere {l l' : List Node} (hperm : l'.Perm l) :
    n ∈ order.heldElsewhere owners view l' ↔ n ∈ store.heldElsewhere owners view l := by
  have hinner : (l'.flatMap (order.edgesIn view)).Perm (l.flatMap (store.edgesIn view)) :=
    (hperm.flatMap_right _).trans
      (List.Perm.flatMap_left l fun m _ => order.edgesIn_perm view m)
  simp only [heldElsewhere, Store.heldElsewhere, List.mem_filter, tally_getD, hperm.mem_iff,
    (hinner.map Node.id).count_eq]

theorem getElem?_live (id : Nat) :
    (order.live owners view s)[id]? = (store.live owners view s)[id]? := by
  refine order.getElem?_visit_congr h (fun n => ?_) (fun n hn => ?_) id
  · exact order.mem_heldElsewhere (order.nodes_members_perm h hs)
  · exact present_of_member hs ((mem_held h hs).mp hn).1

/-- **The outcome of a scan does not depend on the order.** -/
theorem outcome_eq (borrowed : List ScopeId) :
    (order.free? owners borrowed s).map (fun new => (new.fresh, new.scope?)) =
      (store.free? owners borrowed s).map fun new => (new.fresh, new.scope?) := by
  have hlive : ∀ id, (order.live owners (store.viewFrom borrowed s) s).contains id =
      (store.live owners (store.viewFrom borrowed s) s).contains id := fun id => by
    rw [Std.TreeMap.contains_eq_isSome_getElem?, Std.TreeMap.contains_eq_isSome_getElem?,
      order.getElem?_live h hs id]
  have hmembers : ∀ id, id ∈ order.members (store.viewFrom borrowed s) s ↔
      id ∈ store.members (store.viewFrom borrowed s) s := fun id => by
    rw [Nodes.mem_iff, Nodes.mem_iff, order.getElem?_members h hs id]
  simp only [free?, Store.free?, hlive]
  split
  · rfl
  · split
    · rfl
    · simp only [Option.map_some, Option.some.injEq, Prod.mk.injEq]
      refine ⟨?_, funext fun c => ?_⟩
      · rw [(reduces_foldl_clear _ store).fresh, (reduces_foldl_clear _ store).fresh]
      · simp only [scope?_foldl_clear, (order.scopes_perm _).mem_iff, List.mem_filter,
          Std.TreeMap.mem_keys, hmembers]

end Outcome

end Enumeration

/-! ## The law of a scan -/

/-- **A scan lets its starting point be exactly if it has to be kept. Otherwise it empties exactly
the scanned scopes that need not be kept, changes no other scope, and what it emptied is gone as
soon as the handle that was given up no longer counts. The order of the scan makes no difference.**
The handle that is given up is one owner of the scope, the others are given. Any scopes may be
borrowed, each through a handle of its own. -/
theorem scan_exact (h : store.Sound (.scope s :: owners))
    (hborrowed : ∀ b ∈ borrowed, .scope b ∈ owners) :
    (store.free? owners borrowed s = none ↔ store.Kept owners s (.scope s)) ∧
    (∀ new, store.free? owners borrowed s = some new →
      new.fresh = store.fresh ∧
      (∀ c, .scope c ∈ store.scanned s → ¬store.Kept owners s (.scope c) →
        new.scope? c = (store.scope? c).map (fun scope => { scope with bindings := [] }) ∧
        (new.sweep owners).scope? c = none) ∧
      ∀ c, .scope c ∉ store.scanned s ∨ store.Kept owners s (.scope c) →
        new.scope? c = store.scope? c) ∧
    ∀ order : store.Enumeration,
      (order.free? owners borrowed s).map (fun new => (new.fresh, new.scope?)) =
        (store.free? owners borrowed s).map fun new => (new.fresh, new.scope?) := by
  obtain ⟨scope, hscope⟩ := h.scope_exists s (present_of_owned ⟨_, List.mem_cons_self, rfl⟩)
  have hsound := h.mono (List.subset_cons_self _ _)
  have hs : .scope s ∈ store.present owners := present_of_scope hscope
  have hcondemned : ∀ n, n ∈ store.condemned owners (store.viewFrom borrowed s) s ↔
      n ∈ store.scanned s ∧ ¬store.Kept owners s n := fun n =>
    mem_condemned_iff hsound hs hborrowed
  refine ⟨?_, fun new hfree => ⟨(reduces_free hfree).fresh, fun c hc hnot => ?_, fun c hc => ?_⟩,
    fun order => order.outcome_eq hsound hs borrowed⟩
  · constructor
    · intro hnone
      by_contra hnot
      have hstart := (hcondemned (.scope s)).mpr ⟨.refl, hnot⟩
      rcases (free?_eq_none hsound borrowed hs).mp hnone with hlent | hlive
      · have hclear := (holder_condemned hstart).1
        simp [viewFrom, Node.id] at hclear hlent
        exact hclear hlent
      · exact hstart.2 hlive
    · intro hkept
      by_contra hsome
      obtain ⟨new, hfree⟩ := Option.ne_none_iff_exists'.mp hsome
      exact ((hcondemned _).mp (condemned_of_free hsound hs hfree)).2 hkept
  · have hgone := (hcondemned (.scope c)).mpr ⟨hc, hnot⟩
    exact ⟨scope?_of_condemned hsound hs hfree hgone, hsound.gone_of_condemned hs hfree c hgone⟩
  · refine scope?_of_not_condemned hsound hs hfree fun hgone => ?_
    obtain ⟨hscanned, hnot⟩ := (hcondemned _).mp hgone
    exact hc.elim (· hscanned) hnot

/-- A scope with two functions, one over itself and one over a scope beside it that has a handle. The
scope goes, although what encloses it is borrowed, and the one beside it stays. -/
theorem scan_exact_beside :
    let store := (Workbench.empty.after [.newScope "root" none, .newScope "s" (some "root"),
      .newScope "t" (some "root"), .declare "s" "f" (.function "f" "s") false,
      .declare "s" "g" (.function "g" "t") false]).heap.store
    let owners : List Owner := [.scope 0, .scope 2]
    store.Sound (.scope 1 :: owners) ∧ (∀ b ∈ [0], .scope b ∈ owners) ∧
      ¬store.Kept owners 1 (.scope 1) ∧
      (.scope 2 ∉ store.scanned 1 ∨ store.Kept owners 1 (.scope 2)) ∧
      ∃ new, store.free? owners [0] 1 = some new ∧ (new.sweep owners).scope? 1 = none := by
  intro store owners
  have hhistory := Workbench.history_after [.newScope "root" none, .newScope "s" (some "root"),
    .newScope "t" (some "root"), .declare "s" "f" (.function "f" "s") false,
    .declare "s" "g" (.function "g" "t") false]
    (by simp [Command.Plain, Command.specs, ValueSpec.Plain])
  have hsound : store.Sound (.scope 1 :: owners) := by
    refine hhistory.sound.mono fun o ho => List.mem_append_left _ (List.mem_map.mpr ?_)
    simp only [owners, List.mem_cons, List.not_mem_nil, or_false] at ho
    rcases ho with rfl | rfl | rfl
    · exact ⟨("s", 1), by decide +kernel, rfl⟩
    · exact ⟨("root", 0), by decide +kernel, rfl⟩
    · exact ⟨("t", 2), by decide +kernel, rfl⟩
  have hborrowed : ∀ b ∈ [0], Owner.scope b ∈ owners := by simp [owners]
  obtain ⟨hnone, hsome, -⟩ := scan_exact hsound hborrowed
  have hfreed : (store.free? owners [0] 1).isSome = true := by decide +kernel
  obtain ⟨new, hfree⟩ := Option.isSome_iff_exists.mp hfreed
  have hnot : ¬store.Kept owners 1 (.scope 1) := fun hkept => by
    simp [hnone.mpr hkept] at hfree
  obtain ⟨-, hempty, -⟩ := hsome new hfree
  have hstays : ((store.free? owners [0] 1).any fun new => (new.sweep owners).holds 2) = true := by
    decide +kernel
  have hholds : (new.sweep owners).holds 2 = true := by simpa [hfree] using hstays
  obtain ⟨scope, hscope⟩ := holds_iff.mp hholds
  refine ⟨hsound, hborrowed, hnot, ?_, new, hfree, (hempty 1 .refl hnot).2⟩
  by_contra hgone
  push Not at hgone
  simp [(hempty 2 hgone.1 hgone.2).2] at hscope

end Store

end Scriptlet
