import Scriptlet.Heap.Collector
import Scriptlet.Proofs.Heap.Like
import Scriptlet.Proofs.Heap.Sweep

/-!
# Collections in like heaps

The collector goes by identities, and these are the same in like heaps. So it makes the same decisions
in both, and leaves like heaps behind (`Heap.Like.release`, `Heap.Like.collect`). There is one lemma for
each function that it is made of, in their order.
-/

namespace Scriptlet

open List (Forall₂)

variable {ℓ : Likeness}

/-! ## Maps -/

theorem forall₂_of_mem {α β : Type} {R S : α → β → Prop} {as : List α} {bs : List β}
    (h : Forall₂ R as bs) (himp : ∀ a ∈ as, ∀ b ∈ bs, R a b → S a b) : Forall₂ S as bs := by
  induction h with
  | nil => exact .nil
  | cons hab _ ih =>
    refine .cons (himp _ List.mem_cons_self _ List.mem_cons_self hab) (ih fun a ha b hb => ?_)
    exact himp a (List.mem_cons_of_mem _ ha) b (List.mem_cons_of_mem _ hb)

/-- Maps that are related entry by entry list related entries. -/
theorem forall₂_toList {α β : Type} {R : α → β → Prop} {t : Std.TreeMap Nat α}
    {t' : Std.TreeMap Nat β} (h : ∀ id : Nat, Option.Rel R t[id]? t'[id]?) :
    t'.keys = t.keys ∧ Forall₂ (fun a b => b.1 = a.1 ∧ R a.2 b.2) t.toList t'.toList := by
  have hmem : ∀ id, id ∈ t'.keys ↔ id ∈ t.keys := by
    intro id
    have hid := h id
    rw [Std.TreeMap.mem_keys, Std.TreeMap.mem_keys, Std.TreeMap.mem_iff_isSome_getElem?,
      Std.TreeMap.mem_iff_isSome_getElem?]
    revert hid
    cases t[id]? <;> cases t'[id]? <;> rintro ⟨⟩ <;> simp
  have hsorted : ∀ {γ : Type} (t : Std.TreeMap Nat γ), t.keys.Pairwise (· < ·) := fun t =>
    t.ordered_keys.imp fun hlt => compare_lt_iff_lt.mp hlt
  have hkeys : t'.keys = t.keys := (hsorted t').eq_of_mem_iff (hsorted t) hmem
  refine ⟨hkeys, ?_⟩
  have hsame : Forall₂ (fun a b => b.1 = a.1) t.toList t'.toList := by
    have heq : Forall₂ (· = ·) (t.toList.map Prod.fst) (t'.toList.map Prod.fst) := by
      rw [Std.TreeMap.map_fst_toList_eq_keys, Std.TreeMap.map_fst_toList_eq_keys, hkeys]
      exact List.forall₂_refl _
    rw [List.forall₂_map_left_iff, List.forall₂_map_right_iff] at heq
    exact heq.imp fun _ _ hab => hab.symm
  refine forall₂_of_mem hsame fun a ha b hb hab => ⟨hab, ?_⟩
  have hget := Std.TreeMap.mem_toList_iff_getElem?_eq_some.mp ha
  have hget' := Std.TreeMap.mem_toList_iff_getElem?_eq_some.mp hb
  have hrel := h a.1
  rw [hget, ← hab, hget'] at hrel
  cases hrel
  assumption

/-! ## Nodes -/

/-- Like nodes. -/
inductive Node.Like (ℓ : Likeness) : Node → Node → Prop where
  | scope (id : ScopeId) : Like ℓ (.scope id) (.scope id)
  | function {f f' : Function} (hf : f.Like ℓ f') : Like ℓ (.function f) (.function f')
  | object {id : Nat} {fields fields' : List (String × Value)}
    (hfields : Forall₂ (Record.Like (Value.Like ℓ)) fields fields') :
    Like ℓ (.object id fields) (.object id fields')

/-- Owners of like nodes. -/
inductive Owner.Like (ℓ : Likeness) : Owner → Owner → Prop where
  | scope (id : ScopeId) : Like ℓ (.scope id) (.scope id)
  | value {v v' : Value} (hv : v.Like ℓ v') : Like ℓ (.value v) (.value v')

theorem Owner.like_refl {ℓ : Likeness} (hℓ : ℓ.IsRefl) (o : Owner) : o.Like ℓ o := by
  cases o with
  | scope id => exact .scope id
  | value v => exact .value (Value.like_refl hℓ v)

namespace Node.Like

variable {n n' : Node}

theorem id (h : n.Like ℓ n') : n'.id = n.id := by
  cases h with
  | function hf => exact hf.id
  | _ => rfl

theorem isValue (h : n.Like ℓ n') : n'.isValue = n.isValue := by
  cases h <;> rfl

theorem ids {ns ns' : List Node} (h : Forall₂ (Node.Like ℓ) ns ns') :
    ns'.map Node.id = ns.map Node.id := by
  induction h with
  | nil => rfl
  | cons hn _ ih => rw [List.map_cons, List.map_cons, hn.id, ih]

end Node.Like

theorem Value.Like.node? {v v' : Value} (h : v.Like ℓ v') :
    Option.Rel (Node.Like ℓ) v.node? v'.node? := by
  cases h with
  | object hfields => exact .some (.object hfields)
  | function hf => exact .some (.function hf)
  | _ => exact .none

theorem Owner.Like.node? {o o' : Owner} (h : o.Like ℓ o') :
    Option.Rel (Node.Like ℓ) o.node? o'.node? := by
  cases h with
  | scope id => exact .some (.scope id)
  | value hv => exact hv.node?

theorem Owner.Like.nodes {owners owners' : List Owner} (h : Forall₂ (Owner.Like ℓ) owners owners') :
    Forall₂ (Node.Like ℓ) (owners.filterMap Owner.node?) (owners'.filterMap Owner.node?) :=
  List.rel_filterMap (fun _ _ h => h.node?) h

theorem Node.Like.parts {n n' : Node} (h : n.Like ℓ n') :
    Forall₂ (Node.Like ℓ) n.parts n'.parts := by
  cases h with
  | object hfields =>
    refine List.rel_filterMap (fun _ _ h => ?_) hfields
    obtain ⟨hv⟩ := h
    exact hv.node?
  | _ => exact .nil

theorem Scope.Like.edges {scope scope' : Scope} (h : scope.Like ℓ scope') :
    Forall₂ (Node.Like ℓ) scope.edges scope'.edges := by
  have hvalues : Forall₂ (Value.Like ℓ) scope.values scope'.values := by
    refine List.rel_map (fun _ _ h => ?_) h.bindings
    obtain ⟨hbinding⟩ := h
    exact hbinding.value
  refine List.rel_append (List.rel_filterMap (fun _ _ h => h.node?) hvalues) ?_
  rw [h.parent]
  cases scope.parent with
  | none => exact .nil
  | some parent => exact .cons (.scope parent) .nil

/-! ## Visits -/

/-- Nodes seen under the same identities. -/
def Nodes.Like (ℓ : Likeness) (seen seen' : Nodes) : Prop :=
  ∀ id : Nat, Option.Rel (Node.Like ℓ) seen[id]? seen'[id]?

namespace Nodes.Like

variable {seen seen' : Nodes}

theorem empty : Nodes.Like ℓ ∅ ∅ := fun id => by simp

theorem contains (h : seen.Like ℓ seen') (id : Nat) : seen'.contains id = seen.contains id := by
  have hid := h id
  rw [Std.TreeMap.contains_eq_isSome_getElem?, Std.TreeMap.contains_eq_isSome_getElem?]
  revert hid
  cases seen[id]? <;> cases seen'[id]? <;> rintro ⟨⟩ <;> rfl

theorem insert (h : seen.Like ℓ seen') {n n' : Node} (hn : n.Like ℓ n') :
    Nodes.Like ℓ (seen.insert n.id n) (seen'.insert n'.id n') := by
  intro id
  rw [hn.id, Std.TreeMap.getElem?_insert, Std.TreeMap.getElem?_insert]
  split
  · exact .some hn
  · exact h id

theorem nodes (h : seen.Like ℓ seen') : Forall₂ (Node.Like ℓ) seen.nodes seen'.nodes :=
  List.rel_map (fun _ _ h => h.2) (forall₂_toList h).2

theorem keys (h : seen.Like ℓ seen') : seen'.keys = seen.keys := (forall₂_toList h).1

end Nodes.Like

/-- Edges that lead from like nodes to like nodes. -/
def LikeEdges (ℓ : Likeness) (edges edges' : Node → List Node) : Prop :=
  ∀ n n', n.Like ℓ n' → Forall₂ (Node.Like ℓ) (edges n) (edges' n')

theorem like_visit {edges edges' : Node → List Node} (hedges : LikeEdges ℓ edges edges') {steps : Nat}
    {stack stack' : List Node} {seen seen' : Nodes} (hstack : Forall₂ (Node.Like ℓ) stack stack')
    (hseen : seen.Like ℓ seen') :
    (visit edges steps stack seen).Like ℓ (visit edges' steps stack' seen') := by
  induction steps generalizing stack stack' seen seen' with
  | zero => exact hseen
  | succ steps ih =>
    have hrest : Forall₂ (Node.Like ℓ) (stack.dropWhile (seen.contains ·.id))
        (stack'.dropWhile (seen'.contains ·.id)) :=
      forall₂_dropWhile (fun n n' hn => by rw [hn.id, hseen.contains]) hstack
    rw [visit, visit]
    revert hrest
    cases stack.dropWhile (seen.contains ·.id) <;> cases stack'.dropWhile (seen'.contains ·.id) <;>
      rintro (_ | ⟨hnode, hrest⟩)
    · exact hseen
    · exact ih (List.rel_append (hedges _ _ hnode) hrest) (hseen.insert hnode)

namespace Store

variable {store store' : Store} {owners owners' : List Owner}

namespace Like

/-! ## Who owns what -/

theorem holds (h : store.Like ℓ store') (id : ScopeId) : store'.holds id = store.holds id := by
  have hscope := h.scope id
  rw [Store.holds, Store.holds, Std.TreeMap.contains_eq_isSome_getElem?,
    Std.TreeMap.contains_eq_isSome_getElem?]
  revert hscope
  unfold Store.scope?
  cases store.scopes[id]? <;> cases store'.scopes[id]? <;> rintro ⟨⟩ <;> rfl

theorem size (h : store.Like ℓ store') : store'.size = store.size := by
  rw [Store.size, Store.size, ← Std.TreeMap.length_keys, ← Std.TreeMap.length_keys,
    (forall₂_toList h.scope).1]

theorem edges (h : store.Like ℓ store') : LikeEdges ℓ store.edges store'.edges := by
  intro n n' hn
  cases hn with
  | scope id =>
    have hscope := h.scope id
    rw [Store.edges, Store.edges]
    revert hscope
    cases store.scope? id <;> cases store'.scope? id <;> rintro ⟨⟩
    · exact .nil
    · rename_i hscope
      exact hscope.edges
  | function hf =>
    rw [Store.edges, Store.edges, hf.closure]
    exact .cons (.scope _) .nil
  | @object id _ _ hfields =>
    have hnode : Node.Like ℓ (.object id _) (.object id _) := .object hfields
    exact hnode.parts

theorem scopeEdges (h : store.Like ℓ store') :
    Forall₂ (Node.Like ℓ) store.scopeEdges store'.scopeEdges :=
  List.rel_flatMap (forall₂_toList h.scope).2 fun _ _ h => h.2.edges

theorem valueNodes (h : store.Like ℓ store') (howners : Forall₂ (Owner.Like ℓ) owners owners') :
    Forall₂ (Node.Like ℓ) (store.valueNodes owners) (store'.valueNodes owners') := by
  have hheld := List.rel_append (Owner.Like.nodes howners) h.scopeEdges
  rw [Store.valueNodes, Store.valueNodes, h.fresh]
  refine (like_visit (fun _ _ hn => hn.parts) (List.rel_filter ?_ hheld) .empty).nodes
  exact fun _ _ hn => iff_of_eq (congrArg (· = true) hn.isValue.symm)

theorem handles (h : store.Like ℓ store') (howners : Forall₂ (Owner.Like ℓ) owners owners') :
    Forall₂ (Node.Like ℓ) (store.handles owners) (store'.handles owners') :=
  List.rel_append (List.rel_append (Owner.Like.nodes howners) h.scopeEdges)
    (List.rel_flatMap (h.valueNodes howners) h.edges)

theorem isOwned (h : store.Like ℓ store') (howners : Forall₂ (Owner.Like ℓ) owners owners')
    (id : ScopeId) : store'.isOwned owners' id = store.isOwned owners id := by
  have hids := Node.Like.ids (h.handles howners)
  have hany : ∀ nodes : List Node, nodes.any (·.id == id) = (nodes.map Node.id).any (· == id) :=
    fun nodes => by rw [List.any_map]; rfl
  rw [Store.isOwned, Store.isOwned, hany, hany, hids]

theorem sweepOnce (h : store.Like ℓ store') (howners : Forall₂ (Owner.Like ℓ) owners owners') :
    (store.sweepOnce owners).Like ℓ (store'.sweepOnce owners') := by
  refine ⟨h.fresh, fun id => ?_⟩
  rw [scope?_sweepOnce, scope?_sweepOnce, Node.Like.ids (h.handles howners)]
  split
  · exact h.scope id
  · exact .none

theorem sweepRounds (h : store.Like ℓ store') (howners : Forall₂ (Owner.Like ℓ) owners owners')
    (rounds : Nat) :
    Store.Like ℓ (sweepRounds owners rounds store) (Store.sweepRounds owners' rounds store') := by
  induction rounds generalizing store store' with
  | zero => exact h
  | succ rounds ih =>
    have hkept := h.sweepOnce howners
    rw [sweepRounds_succ, sweepRounds_succ, hkept.size, h.size]
    split
    · exact h
    · exact ih hkept

theorem sweep (h : store.Like ℓ store') (howners : Forall₂ (Owner.Like ℓ) owners owners') :
    (store.sweep owners).Like ℓ (store'.sweep owners') := by
  rw [Store.sweep, Store.sweep, h.size]
  exact h.sweepRounds howners _

/-! ## A scan -/

theorem parent (h : store.Like ℓ store') (id : ScopeId) :
    (store'.scope? id).bind Scope.parent = (store.scope? id).bind Scope.parent := by
  have hscope := h.scope id
  revert hscope
  cases store.scope? id <;> cases store'.scope? id <;> rintro ⟨⟩
  · rfl
  · rename_i hscope
    exact hscope.parent

theorem enclosing (h : store.Like ℓ store') (borrowed : List ScopeId) (steps : Nat)
    (next : Option ScopeId) :
    store'.enclosing borrowed steps next = store.enclosing borrowed steps next := by
  induction steps generalizing next with
  | zero => rw [Store.enclosing, Store.enclosing]
  | succ steps ih =>
    cases next with
    | none => rw [Store.enclosing, Store.enclosing] <;> nofun
    | some id => rw [Store.enclosing, Store.enclosing, h.parent, ih]

theorem viewFrom (h : store.Like ℓ store') (borrowed : List ScopeId) (id : ScopeId) :
    store'.viewFrom borrowed id = store.viewFrom borrowed id := by
  rw [Store.viewFrom, Store.viewFrom, h.parent, h.enclosing]

theorem edgesIn (h : store.Like ℓ store') (view : View) :
    LikeEdges ℓ (store.edgesIn view) (store'.edgesIn view) := by
  intro n n' hn
  rw [Store.edgesIn, Store.edgesIn, hn.id]
  split
  · exact .nil
  · refine List.rel_filter (fun m m' hm => ?_) (h.edges n n' hn)
    dsimp only
    rw [hm.id]

theorem reach (h : store.Like ℓ store') (view : View) {starts starts' : List Node}
    (hstarts : Forall₂ (Node.Like ℓ) starts starts') :
    (store.reach view starts).Like ℓ (store'.reach view starts') := by
  rw [Store.reach, Store.reach, h.fresh]
  exact like_visit (h.edgesIn view) hstarts .empty

theorem members (h : store.Like ℓ store') (view : View) (id : ScopeId) :
    (store.members view id).Like ℓ (store'.members view id) :=
  h.reach view (.cons (.scope id) .nil)

theorem heldElsewhere (h : store.Like ℓ store') (howners : Forall₂ (Owner.Like ℓ) owners owners')
    (view : View) {members members' : List Node} (hmembers : Forall₂ (Node.Like ℓ) members members') :
    Forall₂ (Node.Like ℓ) (store.heldElsewhere owners view members)
      (store'.heldElsewhere owners' view members') := by
  have hheld := Node.Like.ids (h.handles howners)
  have hinner := Node.Like.ids (List.rel_flatMap hmembers (h.edgesIn view))
  rw [Store.heldElsewhere, Store.heldElsewhere]
  refine List.rel_filter (fun m m' hm => ?_) hmembers
  dsimp only [Function.swap] at hinner ⊢
  rw [hm.id, hheld, hinner]

theorem live (h : store.Like ℓ store') (howners : Forall₂ (Owner.Like ℓ) owners owners')
    (view : View) (id : ScopeId) :
    (store.live owners view id).Like ℓ (store'.live owners' view id) :=
  h.reach view (h.heldElsewhere howners view (h.members view id).nodes)

theorem foldl_clear (h : store.Like ℓ store') (ids : List ScopeId) :
    (ids.foldl Store.clear store).Like ℓ (ids.foldl Store.clear store') := by
  induction ids generalizing store store' with
  | nil => exact h
  | cons first rest ih => exact ih (h.clear first)

theorem free? (h : store.Like ℓ store') (howners : Forall₂ (Owner.Like ℓ) owners owners')
    (borrowed : List ScopeId) (id : ScopeId) :
    Option.Rel (Store.Like ℓ) (store.free? owners borrowed id)
      (store'.free? owners' borrowed id) := by
  have hlive := h.live howners (store.viewFrom borrowed id) id
  have hcontains := funext hlive.contains
  rw [Store.free?, Store.free?, h.viewFrom]
  dsimp only
  rw [(h.members _ id).keys, hlive.contains]
  split
  · exact .none
  · split
    · exact .none
    · refine .some ?_
      rw [hcontains]
      exact h.foldl_clear _

end Like

end Store

/-! ## The collector's memory -/

/-- Heaps with like stores and the same candidates. -/
structure Heap.Like (ℓ : Likeness) (heap heap' : Heap) : Prop where
  store : heap.store.Like ℓ heap'.store
  candidates : heap'.candidates = heap.candidates
  threshold : heap'.threshold = heap.threshold
  reclaims : heap'.reclaims = heap.reclaims

namespace Heap

variable {heap heap' : Heap} {store store' : Store} {owners owners' : List Owner}

theorem like_empty : Heap.Like ℓ empty empty := ⟨Store.like_empty, rfl, rfl, rfl⟩

theorem like_refl (hℓ : ℓ.IsRefl) (heap : Heap) : heap.Like ℓ heap :=
  ⟨heap.store.like_refl hℓ, rfl, rfl, rfl⟩

theorem like_free? (h : store.Like ℓ store') (howners : Forall₂ (Owner.Like ℓ) owners owners')
    (reclaims : Bool) (borrowed : List ScopeId) (id : ScopeId) :
    Option.Rel (Store.Like ℓ) (free? reclaims owners borrowed store id)
      (free? reclaims owners' borrowed store' id) := by
  rw [free?, free?]
  split
  · exact h.free? howners borrowed id
  · exact .none

theorem like_rescan (howners : Forall₂ (Owner.Like ℓ) owners owners') (reclaims : Bool)
    (borrowed candidates : List ScopeId) {store store' : Store} (h : store.Like ℓ store') :
    (rescan reclaims owners borrowed candidates store).1.Like ℓ
        (rescan reclaims owners' borrowed candidates store').1 ∧
      (rescan reclaims owners' borrowed candidates store').2 =
        (rescan reclaims owners borrowed candidates store).2 := by
  induction candidates generalizing store store' with
  | nil => exact ⟨h, rfl⟩
  | cons id rest ih =>
    rw [rescan, rescan, h.holds]
    split
    · have hfree := like_free? h howners reclaims borrowed id
      revert hfree
      cases free? reclaims owners borrowed store id <;>
        cases free? reclaims owners' borrowed store' id <;> rintro ⟨⟩
      · obtain ⟨hstore, hids⟩ := ih h
        exact ⟨hstore, congrArg (id :: ·) hids⟩
      · rename_i hnew
        exact ih (hnew.sweep howners)
    · exact ih h

namespace Like

theorem withStore (h : heap.Like ℓ heap') (hstore : store.Like ℓ store') :
    Heap.Like ℓ { heap with store } { heap' with store := store' } :=
  { h with store := hstore }

theorem exists_store (h : heap.Like ℓ heap') :
    ∃ store', heap' = { heap with store := store' } ∧ heap.store.Like ℓ store' := by
  refine ⟨heap'.store, ?_, h.store⟩
  obtain ⟨store', candidates', threshold', reclaims'⟩ := heap'
  obtain ⟨-, rfl, rfl, rfl⟩ := h
  rfl

/-- **A collection goes alike in like heaps.** -/
theorem collect (h : heap.Like ℓ heap') (howners : Forall₂ (Owner.Like ℓ) owners owners')
    (borrowed : List ScopeId) :
    (heap.collect owners borrowed).Like ℓ (heap'.collect owners' borrowed) := by
  obtain ⟨store', rfl, hstore⟩ := h.exists_store
  obtain ⟨hrescan, hlive⟩ :=
    like_rescan howners heap.reclaims borrowed heap.candidates (hstore.sweep howners)
  exact ⟨hrescan, hlive, congrArg (fun live : List ScopeId => max (2 * live.length) leastThreshold) hlive, rfl⟩

theorem remember (h : heap.Like ℓ heap') (howners : Forall₂ (Owner.Like ℓ) owners owners')
    (borrowed : List ScopeId) (id : ScopeId) :
    (heap.remember owners borrowed id).Like ℓ (heap'.remember owners' borrowed id) := by
  obtain ⟨store', rfl, hstore⟩ := h.exists_store
  have hmore : Heap.Like ℓ { heap with candidates := heap.candidates ++ [id] }
      { heap with store := store', candidates := heap.candidates ++ [id] } :=
    ⟨hstore, rfl, rfl, rfl⟩
  rw [Heap.remember, Heap.remember]
  dsimp only
  split
  · exact hmore.collect howners borrowed
  · exact hmore

/-- **Giving up a handle goes alike in like heaps.** -/
theorem release (h : heap.Like ℓ heap') (howners : Forall₂ (Owner.Like ℓ) owners owners')
    (borrowed : List ScopeId) (id : ScopeId) :
    (heap.release owners borrowed id).Like ℓ (heap'.release owners' borrowed id) := by
  obtain ⟨store', rfl, hstore⟩ := h.exists_store
  have hswept := hstore.sweep (.cons (.scope id) howners)
  have hfree := like_free? hswept howners heap.reclaims borrowed id
  rw [Heap.release, Heap.release, hstore.isOwned howners]
  dsimp only
  split
  · exact h.withStore (hstore.erase id)
  · rw [hswept.isOwned howners]
    split
    · exact h.withStore (hswept.erase id)
    · revert hfree
      cases Heap.free? heap.reclaims owners borrowed (heap.store.sweep (.scope id :: owners)) id <;>
        cases Heap.free? heap.reclaims owners' borrowed (store'.sweep (.scope id :: owners')) id <;>
        rintro ⟨⟩
      · exact (h.withStore hswept).remember howners borrowed id
      · rename_i hnew
        exact h.withStore (hnew.sweep howners)

end Like

end Heap

end Scriptlet
