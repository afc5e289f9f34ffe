import Scriptlet.Heap.Ownership
import Scriptlet.Proofs.Heap.Visit

/-!
# Sound stores

The nodes that exist are those that an owner or a scope of the store leads to; those that an owner
leads to are reachable. A store is sound for its owners if every identity among the existing nodes
stands for one node and has been given out, every scope that is mentioned is in the store, and every
parent was made before its children.

`Reduces` compares a store with an earlier one from which only bindings and scopes were removed. A
reduced store leads to no new node, so it stays sound as soon as it mentions no removed scope.
`Agree` compares two stores on what some owners lead to; that is then the same in both.
-/

namespace Scriptlet

namespace Scope

theorem mem_edges {scope : Scope} {n : Node} :
    n ∈ scope.edges ↔
      (∃ v ∈ scope.values, v.node? = some n) ∨ ∃ p, scope.parent = some p ∧ n = .scope p := by
  simp only [edges, List.mem_append, List.mem_filterMap, List.mem_map, Option.mem_toList]
  constructor
  · intro hcases
    rcases hcases with h | ⟨p, hp, rfl⟩
    · exact .inl h
    · exact .inr ⟨p, hp, rfl⟩
  · intro hcases
    rcases hcases with h | ⟨p, hp, rfl⟩
    · exact .inl h
    · exact .inr ⟨p, hp, rfl⟩

end Scope

namespace Store

variable {store new old : Store} {owners owners' : List Owner} {n m : Node} {id : ScopeId}

theorem mem_edges_scope :
    n ∈ store.edges (.scope id) ↔ ∃ scope, store.scope? id = some scope ∧ n ∈ scope.edges := by
  cases h : store.scope? id <;> simp [edges, h]

@[simp] theorem mem_edges_function {f : Function} :
    n ∈ store.edges (.function f) ↔ n = .scope f.closure :=
  List.mem_singleton

theorem edges_of_isValue (h : n.isValue = true) : store.edges n = new.edges n := by
  cases n with
  | scope id => simp [Node.isValue] at h
  | function f => rfl
  | object id fields => rfl

/-! ## Reachable and existing nodes -/

/-- The nodes that some owners hold on to. -/
def ownedNodes (owners : List Owner) : Set Node := {n | ∃ o ∈ owners, o.node? = some n}

/-- The nodes that some owners lead to. -/
def reachable (store : Store) (owners : List Owner) : Set Node :=
  {n | ∃ r ∈ ownedNodes owners, Leads store.edges r n}

/-- The nodes that some owners or the scopes of a store lead to. -/
def present (store : Store) (owners : List Owner) : Set Node :=
  {n | ∃ r, (r ∈ ownedNodes owners ∨ ∃ id scope, store.scope? id = some scope ∧ r = .scope id) ∧
    Leads store.edges r n}

theorem ownedNodes_mono (h : owners' ⊆ owners) : ownedNodes owners' ⊆ ownedNodes owners := by
  intro n hn
  obtain ⟨o, ho, hnode⟩ := hn
  exact ⟨o, h ho, hnode⟩

theorem reachable_of_owned (h : n ∈ ownedNodes owners) : n ∈ store.reachable owners :=
  ⟨n, h, .refl⟩

theorem owned_subset_reachable (h : owners' ⊆ owners) :
    ownedNodes owners' ⊆ store.reachable owners :=
  fun _ hn => reachable_of_owned (ownedNodes_mono h hn)

theorem reachable_of_scope_mem (h : .scope id ∈ owners) :
    .scope id ∈ store.reachable owners :=
  reachable_of_owned ⟨_, h, rfl⟩

theorem reachable_of_edge (h : n ∈ store.reachable owners) (hm : m ∈ store.edges n) :
    m ∈ store.reachable owners := by
  obtain ⟨r, hr, hleads⟩ := h
  exact ⟨r, hr, hleads.tail hm⟩

/-- Whatever contains the owned nodes and is closed under edges contains the reachable nodes. -/
theorem reachable_subset {nodes : Set Node} (howned : ownedNodes owners ⊆ nodes)
    (hclosed : ∀ n ∈ nodes, ∀ m ∈ store.edges n, m ∈ nodes) : store.reachable owners ⊆ nodes := by
  intro n hn
  obtain ⟨r, hr, hleads⟩ := hn
  induction hleads with
  | refl => exact howned hr
  | tail _ hstep ih => exact hclosed _ ih _ hstep

theorem present_of_scope {scope : Scope} (h : store.scope? id = some scope) :
    .scope id ∈ store.present owners :=
  ⟨.scope id, .inr ⟨id, scope, h, rfl⟩, .refl⟩

theorem present_of_owned (h : n ∈ ownedNodes owners) : n ∈ store.present owners :=
  ⟨n, .inl h, .refl⟩

theorem present_of_edge (h : n ∈ store.present owners) (hm : m ∈ store.edges n) :
    m ∈ store.present owners := by
  obtain ⟨r, hr, hleads⟩ := h
  exact ⟨r, hr, hleads.tail hm⟩

theorem present_of_leads (h : n ∈ store.present owners) (hm : Leads store.edges n m) :
    m ∈ store.present owners := by
  obtain ⟨r, hr, hleads⟩ := h
  exact ⟨r, hr, hleads.trans hm⟩

/-- Whatever contains the owned nodes and the scopes and is closed under edges contains the existing
nodes. -/
theorem present_subset {nodes : Set Node} (howned : ownedNodes owners ⊆ nodes)
    (hscope : ∀ id scope, store.scope? id = some scope → .scope id ∈ nodes)
    (hclosed : ∀ n ∈ nodes, ∀ m ∈ store.edges n, m ∈ nodes) : store.present owners ⊆ nodes := by
  intro n hn
  obtain ⟨r, hr, hleads⟩ := hn
  induction hleads with
  | refl =>
    rcases hr with hr | ⟨id, scope, hs, rfl⟩
    · exact howned hr
    · exact hscope id scope hs
  | tail _ hstep ih => exact hclosed _ ih _ hstep

theorem present_of_reachable (h : n ∈ store.reachable owners) : n ∈ store.present owners :=
  reachable_subset (fun _ => present_of_owned) (fun _ hn _ hm => present_of_edge hn hm) h

theorem reachable_mono (h : owners' ⊆ owners) : store.reachable owners' ⊆ store.reachable owners :=
  reachable_subset (owned_subset_reachable h) fun _ hn _ hm => reachable_of_edge hn hm

/-! ## Soundness -/

/-- What every store keeps to, with its owners. -/
structure Sound (store : Store) (owners : List Owner) : Prop where
  eq_of_id : ∀ n ∈ store.present owners, ∀ m ∈ store.present owners, n.id = m.id → n = m
  id_lt : ∀ n ∈ store.present owners, n.id < store.fresh
  scope_exists : ∀ id, .scope id ∈ store.present owners → ∃ scope, store.scope? id = some scope
  parent_lt : ∀ id scope, store.scope? id = some scope → ∀ p, scope.parent = some p → p < id

theorem Sound.domain (h : store.Sound owners) :
    Domain store.edges store.fresh (store.present owners) :=
  ⟨fun _ hn _ hm => present_of_edge hn hm, h.eq_of_id, h.id_lt⟩

theorem sound_empty : empty.Sound [] := by
  have hnone : ∀ n, n ∉ empty.present [] := by
    intro n hn
    obtain ⟨r, ⟨o, ho, -⟩ | ⟨id, scope, hs, -⟩, -⟩ := hn
    · simp at ho
    · simp at hs
  exact ⟨fun n hn => absurd hn (hnone n), fun n hn => absurd hn (hnone n),
    fun id hn => absurd hn (hnone _), by simp⟩

/-! ## Reduced stores -/

/-- A store compared with an earlier one from which bindings and scopes were removed. -/
structure Reduces (new old : Store) : Prop where
  fresh : new.fresh = old.fresh
  scope : ∀ id s, new.scope? id = some s →
    ∃ t, old.scope? id = some t ∧ s.parent = t.parent ∧ s.bindings ⊆ t.bindings

namespace Reduces

theorem refl (store : Store) : Reduces store store :=
  ⟨rfl, fun _ s hs => ⟨s, hs, rfl, fun _ h => h⟩⟩

/-- A scope that is gone stays gone. -/
theorem scope?_eq_none (h : Reduces new old) (hnone : old.scope? id = none) :
    new.scope? id = none := by
  by_contra hsome
  obtain ⟨s, hs⟩ := Option.ne_none_iff_exists'.mp hsome
  obtain ⟨t, ht, -⟩ := h.scope id s hs
  simp [hnone] at ht

theorem trans {first second third : Store} (h : Reduces second first) (h' : Reduces third second) :
    Reduces third first := by
  refine ⟨h'.fresh.trans h.fresh, fun id s hs => ?_⟩
  obtain ⟨t, ht, hparent, hbindings⟩ := h'.scope id s hs
  obtain ⟨u, hu, hparent', hbindings'⟩ := h.scope id t ht
  exact ⟨u, hu, hparent.trans hparent', fun _ hb => hbindings' (hbindings hb)⟩

theorem clear (store : Store) (id : ScopeId) : Reduces (store.clear id) store := by
  refine ⟨fresh_clear store id, fun other s hs => ?_⟩
  rw [scope?_clear] at hs
  split at hs
  · rename_i heq
    subst heq
    obtain ⟨t, ht, rfl⟩ := Option.map_eq_some_iff.mp hs
    exact ⟨t, ht, rfl, by simp⟩
  · exact ⟨s, hs, rfl, fun _ h => h⟩

theorem erase (store : Store) (id : ScopeId) : Reduces (store.erase id) store := by
  refine ⟨rfl, fun other s hs => ?_⟩
  rw [scope?_erase] at hs
  split at hs
  · simp at hs
  · exact ⟨s, hs, rfl, fun _ h => h⟩

theorem edges_subset (h : Reduces new old) (n : Node) : new.edges n ⊆ old.edges n := by
  intro m hm
  cases n with
  | function f => exact hm
  | object id fields => exact hm
  | scope id =>
    obtain ⟨s, hs, hm⟩ := mem_edges_scope.mp hm
    obtain ⟨t, ht, hparent, hbindings⟩ := h.scope id s hs
    refine mem_edges_scope.mpr ⟨t, ht, Scope.mem_edges.mpr ?_⟩
    rw [← hparent]
    rcases Scope.mem_edges.mp hm with ⟨v, hv, hnode⟩ | hp
    · exact .inl ⟨v, List.map_subset _ hbindings hv, hnode⟩
    · exact .inr hp

theorem leads (h : Reduces new old) (hleads : Leads new.edges n m) : Leads old.edges n m :=
  Relation.ReflTransGen.mono (fun first _ hstep => h.edges_subset first hstep) _ _ hleads

theorem present_subset (h : Reduces new old) (hsub : owners' ⊆ owners) :
    new.present owners' ⊆ old.present owners := by
  intro n hn
  obtain ⟨r, hr, hleads⟩ := hn
  refine ⟨r, hr.imp (ownedNodes_mono hsub ·) ?_, h.leads hleads⟩
  intro hscope
  obtain ⟨id, s, hs, rfl⟩ := hscope
  obtain ⟨t, ht, -, -⟩ := h.scope id s hs
  exact ⟨id, t, ht, rfl⟩

theorem reachable_subset (h : Reduces new old) (hsub : owners' ⊆ owners) :
    new.reachable owners' ⊆ old.reachable owners := by
  intro n hn
  obtain ⟨r, hr, hleads⟩ := hn
  exact ⟨r, ownedNodes_mono hsub hr, h.leads hleads⟩

/-- A reduced store is sound if it mentions only scopes that it has. -/
theorem sound (h : Reduces new old) (hsound : old.Sound owners) (hsub : owners' ⊆ owners)
    (hexists : ∀ id, .scope id ∈ new.present owners' → ∃ scope, new.scope? id = some scope) :
    new.Sound owners' := by
  have hpresent := h.present_subset hsub
  refine ⟨fun n hn m hm => hsound.eq_of_id n (hpresent hn) m (hpresent hm), fun n hn => ?_, hexists,
    fun id s hs p hp => ?_⟩
  · rw [h.fresh]
    exact hsound.id_lt n (hpresent hn)
  · obtain ⟨t, ht, hparent, -⟩ := h.scope id s hs
    exact hsound.parent_lt id t ht p (hparent ▸ hp)

end Reduces

/-- Letting owners go keeps a store sound. -/
theorem Sound.mono (h : store.Sound owners) (hsub : owners' ⊆ owners) : store.Sound owners' :=
  (Reduces.refl store).sound h hsub fun id hid =>
    h.scope_exists id ((Reduces.refl store).present_subset hsub hid)

/-! ## Agreement -/

/-- Two stores that agree on what some owners lead to. -/
structure Agree (owners : List Owner) (old new : Store) : Prop where
  fresh : new.fresh = old.fresh
  scope : ∀ id, .scope id ∈ old.reachable owners → new.scope? id = old.scope? id

namespace Agree

theorem refl (owners : List Owner) (store : Store) : Agree owners store store :=
  ⟨rfl, fun _ _ => rfl⟩

theorem edges_eq (h : Agree owners old new) (hn : n ∈ old.reachable owners) :
    new.edges n = old.edges n := by
  cases n with
  | function f => rfl
  | object id fields => rfl
  | scope id => rw [edges, edges, h.scope id hn]

/-- The owners lead to the same nodes in both stores. -/
theorem reachable_eq (h : Agree owners old new) :
    new.reachable owners = old.reachable owners := by
  refine subset_antisymm ?_ ?_
  · refine reachable_subset (fun _ => reachable_of_owned) fun n hn m hm => ?_
    exact reachable_of_edge hn (h.edges_eq hn ▸ hm)
  · have hboth : old.reachable owners ⊆
        {n | n ∈ old.reachable owners ∧ n ∈ new.reachable owners} := by
      refine reachable_subset ?_ ?_
      · exact fun n hn => ⟨reachable_of_owned hn, reachable_of_owned hn⟩
      · intro n hn m hm
        obtain ⟨hold, hnew⟩ := hn
        exact ⟨reachable_of_edge hold hm, reachable_of_edge hnew (h.edges_eq hold ▸ hm)⟩
    exact fun n hn => (hboth hn).2

end Agree

end Store

end Scriptlet
