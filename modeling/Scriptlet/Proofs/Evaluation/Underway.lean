import Scriptlet.Proofs.Evaluation.Program
import Scriptlet.Proofs.Heap.Course

/-!
# Runs keep to their course

That the heap of a machine is on the course of a run is a discipline, in which a machine is compared
only with itself. So whatever a program does, it ends with a heap on the course, whether it ends
well or not (`Underway.ends`).
-/

namespace Scriptlet

open Heap (Course Outset)

/-- A machine, compared with itself, whose heap is on the course of a run. Its owners are those that
the run works through, but for what is in hand, and the others. -/
structure Underway (o : Outset) (base hand : List Owner) (m n : Machine) : Prop where
  same : m = n
  owners : ∀ w, w ∈ m.owners ↔ w ∈ base ∨ w ∈ o.others
  course : Course o (hand ++ base) m.heap

namespace Underway

variable {o : Outset} {base hand hand' : List Owner} {m n : Machine}

theorem of_owned (h : Underway o base hand m n)
    (howned : Store.ownedNodes hand' ⊆ m.heap.store.reachable (hand ++ base)) :
    Underway o base hand' m n := by
  refine { h with course := h.course.take ?_ }
  rw [Store.ownedNodes_append]
  refine Set.union_subset howned ?_
  exact Store.owned_subset_reachable (List.subset_append_right _ _)

theorem push (h : Underway o base (hand ++ hand') m n) :
    Underway o (hand ++ base) hand' { m with owners := hand ++ m.owners }
      { n with owners := hand ++ n.owners } where
  same := by rw [h.same]
  owners w := by rw [List.mem_append, List.mem_append, h.owners, or_assoc]
  course := h.course.congr fun w => by
    simp only [List.mem_append]
    tauto

theorem pop {held : List Owner} {m' n' : Machine} (h : Underway o base hand m n)
    (h' : Underway o (held ++ base) hand' m' n') :
    Underway o base (hand' ++ held) { m' with owners := m.owners }
      { n' with owners := n.owners } where
  same := by rw [h'.same, h.same]
  owners := h.owners
  course := by
    rw [List.append_assoc]
    exact h'.course

theorem erase {s : ScopeId} (h : Underway o base (.scope s :: hand) m n)
    (hunheld : .scope s ∉ m.heap.store.handles (hand ++ base ++ o.others)) :
    Underway o base hand (m.withStore (m.heap.store.erase s)) (n.withStore (n.heap.store.erase s)) := by
  have hsub : hand ++ base ⊆ .scope s :: hand ++ base := List.subset_cons_self _ _
  have hsound : m.heap.store.Sound (hand ++ base ++ o.others) :=
    h.course.sound.mono fun w hw => List.mem_cons_of_mem _ hw
  obtain rfl := h.same
  exact ⟨rfl, h.owners, h.course.collect hsub (hsound.reclaimed_erase hunheld)⟩

/-- A body is left with its result in hand. -/
theorem leave {result : List Value} {s : ScopeId}
    (h : Underway o base (.scope s :: Owner.values result) m n) :
    Underway o base (Owner.values result) (m.leave s result) (n.leave s result) := by
  obtain rfl := h.same
  have hsound : m.heap.store.Sound (.scope s :: (Owner.values result ++ m.owners)) := by
    refine h.course.sound.mono fun w hw => ?_
    simp only [List.mem_cons, List.mem_append, h.owners] at hw ⊢
    tauto
  have hreclaimed : Store.Reclaimed (Owner.values result ++ base ++ o.others)
      (m.leave s result).heap.store m.heap.store := by
    refine (Heap.reclaimed_release hsound).mono fun w hw => ?_
    simp only [List.mem_append, h.owners] at hw ⊢
    tauto
  exact ⟨rfl, h.owners, h.course.collect (List.subset_cons_self _ _) hreclaimed⟩

end Underway

/-- **To stay on course is a discipline.** -/
def Heap.Outset.discipline (o : Outset) : Discipline where
  point := Underway o
  others := o.others
  others' := o.others
  declares := o.admits
  console_eq h := by rw [h.same]
  depth_eq h := by rw [h.same]
  limit_eq h := by rw [h.same]
  agree h := by
    rw [h.same]
    exact .refl _ _
  left h := h.course.sound
  right h := by
    rw [← h.same]
    exact h.course.sound
  of_owned h howned _ := h.of_owned howned
  push := Underway.push
  pop h h' := h.pop h'
  withConsole h _ := ⟨by rw [h.same], h.owners, h.course⟩
  withDepth h _ := ⟨by rw [h.same], h.owners, h.course⟩
  newId h _ hv := ⟨by rw [h.same], h.owners, h.course.newId hv⟩
  newScope h _ hparent := ⟨by rw [h.same], h.owners, h.course.newScope _ hparent⟩
  declares_new h := .inr h.course.fresh_le
  bind h _ hid _ _ hwrites hv := ⟨by rw [h.same], h.owners, h.course.bind hid hwrites hv⟩
  erase h hleft _ := h.erase hleft
  leave := Underway.leave

/-- However a computation ends on a machine, with a value or without, there is something to say of
that value, if any, and of the machine afterwards. -/
structure Eval.EndsIn (x : Eval Value) (m : Machine) (P : List Value → Machine → Prop) : Prop where
  ok : ∀ v after, x m = .ok v after → P [v] after
  error : ∀ halt after, x m = .error halt after → P [] after

theorem Eval.EndsIn.mono {x : Eval Value} {m : Machine} {P Q : List Value → Machine → Prop}
    (h : x.EndsIn m P) (himp : ∀ result after, P result after → Q result after) :
    x.EndsIn m Q :=
  ⟨fun v after hrun => himp _ _ (h.ok v after hrun),
    fun halt after hrun => himp _ _ (h.error halt after hrun)⟩

/-- **A run ends on its course.** -/
theorem Underway.ends {o : Outset} {base : List Owner} {hand : List Value} {x : Eval Value}
    {m : Machine} (h : Underway o base (Owner.values hand) m m)
    (hkeeps : o.discipline.Keeps base hand x fun v => [v]) :
    x.EndsIn m fun result after => Course o (Owner.values result ++ base) after.heap := by
  have hrun : Together (Underway o base (Owner.values hand)) x
      (fun v => Underway o base (Owner.values [v])) (Underway o base []) := hkeeps
  rcases hrun m m h with ⟨v, after, _, hm, -, hafter⟩ | ⟨halt, after, _, hm, -, hafter⟩
  · refine ⟨fun w last hrun => ?_, fun e last hrun => ?_⟩ <;> cases hrun.symm.trans hm
    exact hafter.course
  · refine ⟨fun w last hrun => ?_, fun e last hrun => ?_⟩ <;> cases hrun.symm.trans hm
    exact hafter.course

end Scriptlet
