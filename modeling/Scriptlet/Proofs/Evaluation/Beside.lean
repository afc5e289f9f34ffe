import Scriptlet.Proofs.Evaluation.Program
import Scriptlet.Proofs.Heap.Collection

/-!
# Machines that hold on to more

Two machines are `Beside` each other if they agree on what the owners that a program works through lead
to, while each of them may have other owners besides. These keep scopes alive that a collector would
otherwise free, so the stores can differ in many places. But nothing leads there, and being beside each
other is a discipline (`Beside.discipline`): what a program does is the same in both.

Each machine by itself only has to keep its store sound for all its owners (`Guarded`); the rest is the
agreement.
-/

namespace Scriptlet

open Store (ownedNodes)

variable {others others' base hand hand' : List Owner} {m n : Machine} {s : ScopeId}

/-- A machine whose owners are those that a program works through and some others, with a store that is
sound for them and for what is in hand. -/
structure Guarded (others base hand : List Owner) (m : Machine) : Prop where
  owners : ∀ o, o ∈ m.owners ↔ o ∈ base ∨ o ∈ others
  sound : m.heap.store.Sound (hand ++ base ++ others)

namespace Guarded

/-- What the program leads to is there. -/
theorem present_of_reachable (others : List Owner) {store : Store} {r : Node}
    (hr : r ∈ store.reachable (hand ++ base)) : r ∈ store.present (hand ++ base ++ others) :=
  Store.present_of_reachable (Store.reachable_mono (List.subset_append_left _ _) hr)

theorem of_owned (h : Guarded others base hand m)
    (howned : ownedNodes hand' ⊆ m.heap.store.reachable (hand ++ base)) :
    Guarded others base hand' m := by
  refine ⟨h.owners, h.sound.of_owned ?_⟩
  rw [List.append_assoc, Store.ownedNodes_append]
  refine Set.union_subset (fun r hr => present_of_reachable others (howned hr)) fun r hr => ?_
  obtain ⟨o, ho, hnode⟩ := hr
  refine Store.present_of_owned ⟨o, ?_, hnode⟩
  rw [List.append_assoc]
  exact List.mem_append_right _ ho

theorem push (h : Guarded others base (hand ++ hand') m) :
    Guarded others (hand ++ base) hand' { m with owners := hand ++ m.owners } where
  owners o := by rw [List.mem_append, List.mem_append, h.owners, or_assoc]
  sound := h.sound.mono fun o ho => by
    simp only [List.mem_append] at ho ⊢
    tauto

theorem pop {held : List Owner} {m' : Machine} (h : Guarded others base hand m)
    (h' : Guarded others (held ++ base) hand' m') :
    Guarded others base (hand' ++ held) { m' with owners := m.owners } where
  owners := h.owners
  sound := by
    rw [List.append_assoc hand' held base]
    exact h'.sound

theorem newId (h : Guarded others base hand m) {v : Value}
    (hv : ∀ r, v.node? = some r → r.id = m.heap.store.fresh ∧
      ∀ q ∈ m.heap.store.edges r, q ∈ m.heap.store.reachable (hand ++ base)) :
    Guarded others base (.value v :: hand) (m.withStore m.heap.store.newId.2) := by
  refine ⟨h.owners, h.sound.newId fun r hr => ?_⟩
  obtain ⟨hid, hedges⟩ := hv r hr
  exact ⟨hid, fun q hq => present_of_reachable others (hedges q hq)⟩

theorem newScope (h : Guarded others base hand m) {parent : Option ScopeId}
    (hparent : ∀ p, parent = some p → .scope p ∈ m.heap.store.reachable (hand ++ base)) :
    Guarded others base (.scope m.heap.store.fresh :: hand)
      (m.withStore (m.heap.store.newScope parent).2) :=
  ⟨h.owners, h.sound.newScope fun p hp => present_of_reachable others (hparent p hp)⟩

theorem bind (h : Guarded others base hand m) {name : String} {binding : Binding}
    (hv : m.heap.store.Knows (hand ++ base) binding.value) (id : ScopeId) :
    Guarded others base hand (m.withStore (m.heap.store.bind id name binding)) :=
  ⟨h.owners, h.sound.bind fun r hr => present_of_reachable others (hv r hr)⟩

theorem collected_erase (h : Guarded others base (.scope s :: hand) m)
    (hunheld : .scope s ∉ m.heap.store.handles (hand ++ base ++ others)) :
    Store.Collected (hand ++ base ++ others) (m.heap.store.erase s) m.heap.store :=
  (h.sound.mono (List.subset_cons_self _ _)).collected_erase hunheld

/-- The collector takes all owners of the machine into account. -/
theorem collected_leave {result : List Value}
    (h : Guarded others base (.scope s :: Owner.values result) m) :
    Store.Collected (Owner.values result ++ base ++ others) (m.leave s result).heap.store
      m.heap.store := by
  have hsound : m.heap.store.Sound (.scope s :: (Owner.values result ++ m.owners)) :=
    h.sound.mono fun o ho => by
      simp only [List.cons_append, List.mem_cons, List.mem_append, h.owners] at ho ⊢
      tauto
  refine (Heap.release_spec hsound).1.mono fun o ho => ?_
  simp only [List.mem_append, h.owners] at ho ⊢
  tauto

end Guarded

/-- Two machines that agree on what the owners of a program lead to, each with other owners besides. -/
structure Beside (others others' base hand : List Owner) (m n : Machine) : Prop where
  left : Guarded others base hand m
  right : Guarded others' base hand n
  console : n.console = m.console
  depth : n.depth = m.depth
  limit : n.limit = m.limit
  agree : Store.Agree (hand ++ base) m.heap.store n.heap.store

namespace Beside

theorem of_owned (h : Beside others others' base hand m n)
    (howned : ownedNodes hand' ⊆ m.heap.store.reachable (hand ++ base)) :
    Beside others others' base hand' m n := by
  refine { h with
    left := h.left.of_owned howned
    right := h.right.of_owned (h.agree.reachable_eq ▸ howned)
    agree := h.agree.of_owned ?_ }
  rw [Store.ownedNodes_append]
  refine Set.union_subset howned (Store.owned_subset_reachable ?_)
  exact List.subset_append_right _ _

theorem push (h : Beside others others' base (hand ++ hand') m n) :
    Beside others others' (hand ++ base) hand' { m with owners := hand ++ m.owners }
      { n with owners := hand ++ n.owners } :=
  { h with
    left := h.left.push
    right := h.right.push
    agree := h.agree.of_owned (Store.owned_subset_reachable fun o ho => by
      simp only [List.mem_append] at ho ⊢
      tauto) }

theorem pop {held : List Owner} {m' n' : Machine} (h : Beside others others' base hand m n)
    (h' : Beside others others' (held ++ base) hand' m' n') :
    Beside others others' base (hand' ++ held) { m' with owners := m.owners }
      { n' with owners := n.owners } :=
  { h' with
    left := h.left.pop h'.left
    right := h.right.pop h'.right
    agree := by
      rw [List.append_assoc]
      exact h'.agree }

/-- What is collected on either side goes unnoticed. -/
theorem collected (h : Beside others others' base (.scope s :: hand) m n) {a b : Store}
    (hleft : Store.Collected (hand ++ base ++ others) a m.heap.store)
    (hright : Store.Collected (hand ++ base ++ others') b n.heap.store) :
    Store.Agree (hand ++ base) a b := by
  have hagree : Store.Agree (hand ++ base) m.heap.store n.heap.store :=
    h.agree.of_owned (Store.owned_subset_reachable (List.subset_cons_self _ _))
  have hsub : ∀ others, hand ++ base ⊆ hand ++ base ++ others := fun _ =>
    List.subset_append_left _ _
  exact (hagree.collected_left (hleft.mono (hsub others))).collected_right
    (hright.mono (hsub others'))

theorem leave {result : List Value}
    (h : Beside others others' base (.scope s :: Owner.values result) m n) :
    Beside others others' base (Owner.values result) (m.leave s result) (n.leave s result) where
  left := ⟨h.left.owners, h.left.collected_leave.sound⟩
  right := ⟨h.right.owners, h.right.collected_leave.sound⟩
  console := h.console
  depth := congrArg (· - 1) h.depth
  limit := h.limit
  agree := h.collected h.left.collected_leave h.right.collected_leave

/-- One machine, holding on to more in two ways. -/
theorem of_extended (hleft : m.heap.store.Sound (m.owners ++ others))
    (hright : m.heap.store.Sound (m.owners ++ others')) :
    Beside others others' m.owners [] { m with owners := others ++ m.owners }
      { m with owners := others' ++ m.owners } where
  left := ⟨fun o => by rw [List.mem_append, or_comm], hleft⟩
  right := ⟨fun o => by rw [List.mem_append, or_comm], hright⟩
  console := rfl
  depth := rfl
  limit := rfl
  agree := .refl _ _

/-- What is held on to besides may be let go. -/
theorem let_go (h : Beside others others' base hand m n) :
    Beside [] [] base hand { m with owners := base } { n with owners := base } :=
  { h with
    left := ⟨by simp, h.left.sound.mono (by simp)⟩
    right := ⟨by simp, h.right.sound.mono (by simp)⟩ }

/-- **Holding on to more is a discipline.** -/
def discipline (others others' : List Owner) : Discipline where
  point := Beside others others'
  others := others
  others' := others'
  declares := fun _ => True
  console_eq := Beside.console
  depth_eq := Beside.depth
  limit_eq := Beside.limit
  agree := Beside.agree
  left h := h.left.sound
  right h := h.right.sound
  of_owned h howned _ := h.of_owned howned
  push := Beside.push
  pop h h' := h.pop h'
  withConsole h _ := { h with
    left := ⟨h.left.owners, h.left.sound⟩
    right := ⟨h.right.owners, h.right.sound⟩
    console := rfl }
  withDepth h _ := { h with
    left := ⟨h.left.owners, h.left.sound⟩
    right := ⟨h.right.owners, h.right.sound⟩
    depth := rfl }
  newId h _ hv := { h with
    left := h.left.newId hv
    right := h.right.newId (h.agree.new_right hv)
    agree := h.agree.newId fun r hr => (hv r hr).2 }
  newScope h _ hparent := { h with
    left := h.left.newScope hparent
    right := by
      rw [← h.agree.fresh]
      exact h.right.newScope fun p hp => h.agree.reachable_eq ▸ hparent p hp
    agree := h.agree.newScope (h.left.sound.mono (List.subset_append_left _ _)) hparent }
  declares_new _ := trivial
  bind h _ hid _ _ _ hv := { h with
    left := h.left.bind hv _
    right := h.right.bind (fun r hr => h.agree.reachable_eq ▸ hv r hr) _
    agree := h.agree.bind hid hv }
  erase h hleft hright :=
    { h with
      left := ⟨h.left.owners, (h.left.collected_erase hleft).sound⟩
      right := ⟨h.right.owners, (h.right.collected_erase hright).sound⟩
      agree := h.collected (h.left.collected_erase hleft) (h.right.collected_erase hright) }
  leave := Beside.leave

end Beside

end Scriptlet
