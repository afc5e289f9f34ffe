import Mathlib.Data.Finset.Card
import Mathlib.Data.List.TakeWhile
import Mathlib.Logic.Relation
import Scriptlet.Heap.Graph

/-!
# What a visit sees

`visit` is told the number of identities instead of the number of nodes, so it is exact only on a
part of the graph in which an identity stands for one node and every identity is in range. Such a
part is a `Domain`. On a domain, `mem_visited` says that a visit sees exactly the nodes that its
starting points lead to.

The proof follows the loop. The nodes seen so far have their edges either seen or on the stack, and
there are never fewer steps left than identities not seen: looking at a node uses up one of each.
-/

namespace Scriptlet

/-- A path along edges. -/
abbrev Leads (edges : Node → List Node) : Node → Node → Prop :=
  Relation.ReflTransGen fun first second => second ∈ edges first

/-- Nodes with nothing missing among their edges, told apart by identities below a bound. -/
structure Domain (edges : Node → List Node) (bound : Nat) (nodes : Set Node) : Prop where
  closed : ∀ n ∈ nodes, ∀ m ∈ edges n, m ∈ nodes
  eq_of_id : ∀ n ∈ nodes, ∀ m ∈ nodes, n.id = m.id → n = m
  id_lt : ∀ n ∈ nodes, n.id < bound

namespace Domain

variable {edges edges' : Node → List Node} {bound : Nat} {nodes : Set Node}

theorem mem_of_leads (h : Domain edges bound nodes) {n m : Node} (hn : n ∈ nodes)
    (hm : Leads edges n m) : m ∈ nodes := by
  induction hm with
  | refl => exact hn
  | tail _ hstep ih => exact h.closed _ ih _ hstep

/-- Fewer edges leave a domain closed. -/
theorem of_subset (h : Domain edges bound nodes) (hsub : ∀ n, edges' n ⊆ edges n) :
    Domain edges' bound nodes :=
  ⟨fun n hn m hm => h.closed n hn m (hsub n hm), h.eq_of_id, h.id_lt⟩

end Domain

/-! ## The loop -/

namespace Nodes

/-- Every node is filed under its own identity and belongs to a domain. -/
def Within (seen : Nodes) (domain : Set Node) : Prop :=
  ∀ (id : Nat) (n : Node), seen[id]? = some n → n.id = id ∧ n ∈ domain

/-- The identities below a bound that are not seen yet. -/
def unseen (seen : Nodes) (bound : Nat) : Finset Nat :=
  (Finset.range bound).filter (· ∉ seen)

theorem mem_nodes {seen : Nodes} {n : Node} : n ∈ seen.nodes ↔ ∃ id : Nat, seen[id]? = some n := by
  simp [nodes, Std.TreeMap.mem_toList_iff_getElem?_eq_some]

theorem mem_iff {seen : Nodes} {id : Nat} : id ∈ seen ↔ ∃ n, seen[id]? = some n := by
  rw [Std.TreeMap.mem_iff_isSome_getElem?, Option.isSome_iff_exists]

theorem Within.insert {seen : Nodes} {domain : Set Node} {node : Node}
    (h : seen.Within domain) (hnode : node ∈ domain) :
    Within (seen.insert node.id node) domain := by
  intro id n hn
  rw [Std.TreeMap.getElem?_insert] at hn
  split at hn
  · rename_i heq
    obtain rfl : node = n := by simpa using hn
    exact ⟨compare_eq_iff_eq.mp heq, hnode⟩
  · exact h id n hn

theorem card_unseen_insert {seen : Nodes} {bound : Nat} {node : Node} (hlt : node.id < bound)
    (hnew : node.id ∉ seen) :
    (unseen (seen.insert node.id node) bound).card < (seen.unseen bound).card := by
  apply Finset.card_lt_card
  refine Finset.ssubset_iff_subset_ne.mpr ⟨fun id hid => ?_, fun heq => ?_⟩
  · simp only [unseen, Finset.mem_filter, Std.TreeMap.mem_insert] at hid ⊢
    exact ⟨hid.1, fun h => hid.2 (.inr h)⟩
  · have hmem : node.id ∈ seen.unseen bound := by simp [unseen, hlt, hnew]
    rw [← heq] at hmem
    simp [unseen] at hmem

end Nodes

section Visit

variable {edges : Node → List Node} {bound : Nat} {domain : Set Node}

theorem dropWhile_cons {α : Type} {p : α → Bool} {stack rest : List α} {x : α}
    (h : stack.dropWhile p = x :: rest) :
    ¬p x ∧ x ∈ stack ∧ rest ⊆ stack ∧ ∀ y ∈ stack, p y ∨ y = x ∨ y ∈ rest := by
  have hsplit := List.takeWhile_append_dropWhile (p := p) (l := stack)
  rw [h] at hsplit
  have hx : ¬p x := by
    have := List.head_dropWhile_not p (l := stack) (by simp [h])
    simpa [h] using this
  refine ⟨hx, by rw [← hsplit]; simp, fun y hy => by rw [← hsplit]; simp [hy], fun y hy => ?_⟩
  rw [← hsplit] at hy
  rcases List.mem_append.mp hy with hy | hy
  · exact .inl (List.mem_takeWhile_imp hy)
  · simpa using Or.inr (List.mem_cons.mp hy)

/-- What a visit adds is led to from the stack. -/
theorem leads_of_visit (steps : Nat) (stack : List Node) (seen : Nodes) {id : Nat} {n : Node}
    (h : (visit edges steps stack seen)[id]? = some n) :
    seen[id]? = some n ∨ n.id = id ∧ ∃ s ∈ stack, Leads edges s n := by
  induction steps generalizing stack seen with
  | zero => exact .inl (by simpa [visit] using h)
  | succ steps ih =>
    rw [visit] at h
    split at h
    · exact .inl h
    · rename_i node rest hdrop
      obtain ⟨-, hnode, hrest, -⟩ := dropWhile_cons hdrop
      rcases ih _ _ h with hold | ⟨hid, s, hs, hleads⟩
      · rw [Std.TreeMap.getElem?_insert] at hold
        split at hold
        · rename_i heq
          obtain rfl : node = n := by simpa using hold
          exact .inr ⟨compare_eq_iff_eq.mp heq, node, hnode, .refl⟩
        · exact .inl hold
      · refine .inr ⟨hid, ?_⟩
        rcases List.mem_append.mp hs with hs | hs
        · exact ⟨node, hnode, hleads.head hs⟩
        · exact ⟨s, hrest hs, hleads⟩

/-- Whether what the seen nodes hold on to is seen or on the stack. -/
def Covers (edges : Node → List Node) (stack : List Node) (seen : Nodes) : Prop :=
  ∀ (id : Nat) (n : Node), seen[id]? = some n → ∀ m ∈ edges n, m.id ∈ seen ∨ m ∈ stack

section Step

variable {stack rest : List Node} {seen : Nodes} {node : Node}
  (hdrop : stack.dropWhile (seen.contains ·.id) = node :: rest)

include hdrop

/-- Looking at a node loses nothing that was seen or on the stack. -/
theorem mem_of_look {m : Node} (hm : m.id ∈ seen ∨ m ∈ stack) :
    m.id ∈ seen.insert node.id node ∨ m ∈ edges node ++ rest := by
  obtain ⟨-, -, -, hcover⟩ := dropWhile_cons hdrop
  rcases hm with hm | hm
  · exact .inl (by simp [hm])
  · rcases hcover m hm with hm | rfl | hm
    · exact .inl (by simp_all)
    · exact .inl (by simp)
    · exact .inr (List.mem_append_right _ hm)

theorem Covers.look (h : Covers edges stack seen) :
    Covers edges (edges node ++ rest) (seen.insert node.id node) := by
  intro id n hn m hm
  rw [Std.TreeMap.getElem?_insert] at hn
  split at hn
  · obtain rfl : node = n := by simpa using hn
    exact .inr (List.mem_append_left _ hm)
  · exact mem_of_look hdrop (h id n hn m hm)

end Step

/-- A visit with enough steps sees the stack and leaves no edge of a seen node out. -/
theorem visit_closed (hdom : Domain edges bound domain) (steps : Nat) (stack : List Node)
    (seen : Nodes) (hstack : ∀ s ∈ stack, s ∈ domain) (hseen : seen.Within domain)
    (hsteps : (seen.unseen bound).card ≤ steps) (hcovers : Covers edges stack seen) :
    let final := visit edges steps stack seen
    final.Within domain ∧ (∀ s ∈ stack, s.id ∈ final) ∧ (∀ id ∈ seen, id ∈ final) ∧
      ∀ (id : Nat) (n : Node), final[id]? = some n → ∀ m ∈ edges n, m.id ∈ final := by
  have hstop (hall : ∀ s ∈ stack, s.id ∈ seen) : ∀ (id : Nat) (n : Node), seen[id]? = some n →
      ∀ m ∈ edges n, m.id ∈ seen := fun id n hn m hm => (hcovers id n hn m hm).elim (·) (hall m)
  induction steps generalizing stack seen with
  | zero =>
    have hall : ∀ s ∈ stack, s.id ∈ seen := by
      intro s hs
      by_contra hnew
      have hmem : s.id ∈ seen.unseen bound := by
        simp [Nodes.unseen, hdom.id_lt s (hstack s hs), hnew]
      exact absurd (Finset.card_pos.mpr ⟨_, hmem⟩) (by omega)
    exact ⟨hseen, hall, fun _ h => h, hstop hall⟩
  | succ steps ih =>
    rw [visit]
    split
    · rename_i hdrop
      have hall : ∀ s ∈ stack, s.id ∈ seen := by simpa using hdrop
      exact ⟨hseen, hall, fun _ h => h, hstop hall⟩
    · rename_i node rest hdrop
      obtain ⟨hnew, hnode, hrest, -⟩ := dropWhile_cons hdrop
      have hdomain := hstack node hnode
      have hpush : ∀ s ∈ edges node ++ rest, s ∈ domain := by
        intro s hs
        rcases List.mem_append.mp hs with hs | hs
        · exact hdom.closed node hdomain s hs
        · exact hstack s (hrest hs)
      have hless := Nodes.card_unseen_insert (hdom.id_lt node hdomain) (by simpa using hnew)
      have hcovers' := hcovers.look hdrop
      obtain ⟨hwithin, hstack', hseen', hclosed⟩ :=
        ih (edges node ++ rest) (seen.insert node.id node) hpush (hseen.insert hdomain) (by omega)
          hcovers' fun hall id n hn m hm => (hcovers' id n hn m hm).elim (·) (hall m)
      refine ⟨hwithin, fun s hs => ?_, fun id hid => hseen' id (by simp [hid]), hclosed⟩
      exact (mem_of_look hdrop (.inr hs)).elim (hseen' _) (hstack' s)

/-! ## Exactness -/

/-- **A visit sees exactly what its starting points lead to.** -/
theorem getElem?_visit (hdom : Domain edges bound domain) {starts : List Node}
    (hstarts : ∀ s ∈ starts, s ∈ domain) {id : Nat} {n : Node} :
    (visit edges bound starts ∅)[id]? = some n ↔ n.id = id ∧ ∃ s ∈ starts, Leads edges s n := by
  obtain ⟨hwithin, hmem, -, hclosed⟩ := visit_closed hdom bound starts ∅ hstarts
    (fun id n hn => by simp at hn) (le_trans (Finset.card_filter_le _ _) (by simp))
    (fun id n hn => by simp at hn)
  constructor
  · intro h
    rcases leads_of_visit bound starts ∅ h with h | h
    · simp at h
    · exact h
  · intro hled
    obtain ⟨rfl, s, hs, hleads⟩ := hled
    have hfiled : ∀ m ∈ domain, m.id ∈ visit edges bound starts ∅ →
        (visit edges bound starts ∅)[m.id]? = some m := by
      intro m hm hseen
      obtain ⟨m', hm'⟩ := Nodes.mem_iff.mp hseen
      obtain ⟨hid, hdomain⟩ := hwithin _ _ hm'
      rw [hm', hdom.eq_of_id m' hdomain m hm hid]
    induction hleads with
    | refl => exact hfiled s (hstarts s hs) (hmem s hs)
    | tail hpath hstep ih =>
      have hdomain := hdom.mem_of_leads (hstarts s hs) (hpath.tail hstep)
      exact hfiled _ hdomain (hclosed _ _ ih _ hstep)

/-- The nodes that a visit sees. -/
theorem mem_visited (hdom : Domain edges bound domain) {starts : List Node}
    (hstarts : ∀ s ∈ starts, s ∈ domain) {n : Node} :
    n ∈ (visit edges bound starts ∅).nodes ↔ ∃ s ∈ starts, Leads edges s n := by
  simp only [Nodes.mem_nodes, getElem?_visit hdom hstarts]
  constructor
  · intro hseen
    obtain ⟨_, _, hled⟩ := hseen
    exact hled
  · intro hled
    exact ⟨n.id, rfl, hled⟩

/-- The identities that a visit sees. -/
theorem id_mem_visit (hdom : Domain edges bound domain) {starts : List Node}
    (hstarts : ∀ s ∈ starts, s ∈ domain) {n : Node} (hn : n ∈ domain) :
    n.id ∈ visit edges bound starts ∅ ↔ ∃ s ∈ starts, Leads edges s n := by
  simp only [Nodes.mem_iff, getElem?_visit hdom hstarts]
  constructor
  · intro hled
    obtain ⟨m, hid, s, hs, hleads⟩ := hled
    have hm := hdom.mem_of_leads (hstarts s hs) hleads
    exact ⟨s, hs, hdom.eq_of_id m hm n hn hid ▸ hleads⟩
  · exact fun h => ⟨n, rfl, h⟩

end Visit

end Scriptlet
