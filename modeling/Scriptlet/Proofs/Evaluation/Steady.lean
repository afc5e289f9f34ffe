import Scriptlet.Proofs.Evaluation.Program
import Scriptlet.Proofs.Heap.Alike

/-!
# Steady computations

Two machines are `At` the same point if nothing tells them apart through the owners and what is in
hand. That is a discipline (`At.discipline`), and so every computation of a program is `Steady`: it
takes two machines from one such point to another.

Steadiness says at once that the collector goes unnoticed, since the two machines may differ in all
that it does, and that every heap on the way has a history of moves of its owners, since a machine
can be compared with itself.
-/

namespace Scriptlet

open Store (ownedNodes)

/-- Two machines that cannot be told apart through their owners and what is in hand. -/
structure At (base hand : List Owner) (m n : Machine) : Prop where
  left : m.owners = base
  right : n.owners = base
  console : n.console = m.console
  depth : n.depth = m.depth
  limit : n.limit = m.limit
  heaps : Heap.Alike (hand ++ base) m.heap n.heap

namespace At

variable {base hand hand' : List Owner} {m n : Machine}

/-- What is in hand may be exchanged for what it leads to, if no handle to a scope is let go. -/
theorem of_owned (h : At base hand m n)
    (howned : ownedNodes hand' ⊆ m.heap.store.reachable (hand ++ base))
    (hhandles : ∀ id, .scope id ∈ hand → .scope id ∈ hand' ++ base) : At base hand' m n := by
  refine { h with heaps := h.heaps.of_owned ?_ fun id hid => ?_ }
  · rw [Store.ownedNodes_append]
    intro r hr
    rcases hr with hr | hr
    · exact howned hr
    · exact Store.owned_subset_reachable (List.subset_append_right _ _) hr
  · rcases List.mem_append.mp hid with hid | hid
    · exact hhandles id hid
    · exact List.mem_append_right _ hid

theorem withStore (h : At base hand m n) {a b : Store}
    (halike : Heap.Alike (hand' ++ base) { m.heap with store := a } { n.heap with store := b }) :
    At base hand' (m.withStore a) (n.withStore b) :=
  { h with heaps := halike }

/-- The same console operation on both machines. -/
theorem withConsole (h : At base hand m n) (change : Console → Console) :
    At base hand { m with console := change m.console } { n with console := change n.console } :=
  { h with console := by rw [h.console] }

/-- The owners may be extended by what is in hand. -/
theorem push (h : At base (hand ++ hand') m n) :
    At (hand ++ base) hand' { m with owners := hand ++ m.owners }
      { n with owners := hand ++ n.owners } where
  left := by rw [h.left]
  right := by rw [h.right]
  console := h.console
  depth := h.depth
  limit := h.limit
  heaps := by
    refine h.heaps.congr fun o => ?_
    simp only [List.mem_append]
    tauto

/-- What the owners were extended by may be taken back in hand. -/
theorem pop {m' n' : Machine} (hm : m.owners = base) (hn : n.owners = base)
    (h' : At (hand ++ base) hand' m' n') :
    At base (hand' ++ hand) { m' with owners := m.owners } { n' with owners := n.owners } where
  left := hm
  right := hn
  console := h'.console
  depth := h'.depth
  limit := h'.limit
  heaps := by
    rw [List.append_assoc]
    exact h'.heaps

/-- A body is left with its result in hand. -/
theorem leave {result : List Value} {s : ScopeId}
    (h : At base (.scope s :: Owner.values result) m n) :
    At base (Owner.values result) (m.leave s result) (n.leave s result) := by
  refine { h with depth := by simp only [Machine.leave, h.depth], heaps := ?_ }
  have halike : Heap.Alike (.scope s :: (Owner.values result ++ base)) m.heap n.heap := h.heaps
  simpa only [Machine.leave, h.left, h.right] using halike.release

/-- **To be indistinguishable is a discipline.** -/
def discipline : Discipline where
  point := At
  others := []
  others' := []
  declares := fun _ => True
  console_eq := At.console
  depth_eq := At.depth
  limit_eq := At.limit
  agree h := h.heaps.agree
  left h := by
    rw [List.append_nil]
    exact h.heaps.left.sound
  right h := by
    rw [List.append_nil]
    exact h.heaps.right.sound
  of_owned := At.of_owned
  push := At.push
  pop h h' := h'.pop h.left h.right
  withConsole h _ := { h with console := rfl }
  withDepth h _ := { h with depth := rfl }
  newId h _ hv := h.withStore (h.heaps.newId hv)
  newScope h _ hparent := h.withStore (h.heaps.newScope hparent)
  declares_new _ := trivial
  bind h _ hid _ _ _ hv := h.withStore (h.heaps.bind hid hv)
  erase h hleft hright := by
    rw [List.append_nil] at hleft hright
    exact h.withStore (h.heaps.erase hleft hright)
  leave := At.leave

end At

/-- A computation that keeps two machines together, with what the result says in hand. -/
abbrev Steady {α : Type} (base : List Owner) (hand : List Value) (x : Eval α)
    (result : α → List Value) : Prop :=
  At.discipline.Keeps base hand x result

namespace Steady

/-- **Evaluating and executing is steady.** -/
theorem evaluation (steps : Nat) {scope : ScopeId} {base : List Owner}
    (hscope : .scope scope ∈ base) :
    (∀ expr, Steady base [] (Eval.evaluate steps expr scope) fun v => [v]) ∧
    (∀ stmt, Steady base [] (Eval.execute steps stmt scope) fun v => [v]) ∧
    ∀ block, Steady base [] (Eval.executeBlock steps block scope) fun v => [v] := by
  obtain ⟨heval, hexec, hblock⟩ := At.discipline.evaluation steps
  exact ⟨fun expr => heval expr scope base hscope,
    fun stmt => hexec stmt scope base hscope trivial,
    fun block => hblock block scope base hscope trivial⟩

theorem program (steps : Nat) (program : Program) {scope : ScopeId} {base : List Owner}
    (hscope : .scope scope ∈ base) :
    Steady base [] (Eval.program steps program scope) fun v => [v] :=
  At.discipline.program steps program scope base hscope trivial

end Steady

end Scriptlet
