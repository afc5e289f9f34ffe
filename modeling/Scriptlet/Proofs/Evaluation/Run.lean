import Scriptlet.Proofs.Evaluation.Steady
import Scriptlet.Run

/-!
# Runs start in order

A new root scope is made like the scope of a call, and the truth values and the console are declared
in it. On a machine that has run nothing this cannot fail, and it leaves an orderly heap whose only
owner is the handle to the root scope.
-/

namespace Scriptlet

variable {base hand : List Owner} {m n : Machine}

/-- The first value in hand may be let go. -/
theorem At.drop_second {v w : Value} (h : At base (.value v :: .value w :: hand) m n) :
    At base (.value v :: hand) m n := by
  refine h.of_owned ?_ fun id hid => ?_
  · refine Store.owned_subset_reachable fun o ho => ?_
    simp only [List.mem_append, List.mem_cons] at ho ⊢
    tauto
  · simp only [List.mem_cons, reduceCtorEq, false_or] at hid
    exact List.mem_append_left _ (List.mem_cons_of_mem _ hid)

theorem Together.newObject (fields : List (String × Value))
    (hfields : ∀ field ∈ fields, ∀ store : Store, store.Knows (hand ++ base) field.2) :
    Together (At base hand) Eval.freshId (fun id => At base (.value (.object id fields) :: hand))
      (fun _ _ => True) := by
  have hnew : Together (At base hand) Eval.freshId
      (fun id => At base (.value (.object id fields) :: hand)) (At base hand) := by
    refine At.discipline.together_freshId (.object · fields) fun store id r hr => ?_
    cases hr
    refine ⟨rfl, fun q hq => ?_⟩
    obtain ⟨field, hfield, hnode⟩ := List.mem_filterMap.mp hq
    exact hfields field hfield store q hnode
  exact hnew.mono (fun _ _ hat => hat) (fun _ _ _ hat => hat) fun _ _ _ => trivial

theorem Together.consoleObject :
    Together (At base hand) Eval.consoleObject (fun v => At base (.value v :: hand))
      (fun _ _ => True) := by
  refine Together.bind (Together.newObject
    [("print", .native .print), ("println", .native .println)] fun field hfield store => ?_)
    fun inner => ?_
  · rcases List.mem_cons.mp hfield with rfl | hfield
    · exact Store.knows_of_plain rfl
    · obtain rfl := List.mem_singleton.mp hfield
      exact Store.knows_of_plain rfl
  refine Together.bind (Together.newObject
    [("out", .object inner [("print", .native .print), ("println", .native .println)]),
      ("in", .native .input)] fun field hfield store => ?_)
    fun outer => Together.pure fun _ _ hat => hat.drop_second
  rcases List.mem_cons.mp hfield with rfl | hfield
  · exact Store.knows_of_mem List.mem_cons_self
  · obtain rfl := List.mem_singleton.mp hfield
    exact Store.knows_of_plain rfl

theorem Together.rootScope :
    Together (At base []) Eval.rootScope (fun root => At base [.scope root]) (fun _ _ => True) := by
  have hopen : Together (At base []) (Eval.openScope none) (fun root => At base [.scope root])
      (fun _ _ => True) := by
    have hentering : Together (At base (Owner.values [])) (Eval.openScope none)
        (fun root => At.discipline.Entering base [] root) (At base []) :=
      At.discipline.together_openScope (by simp)
    exact hentering.mono (fun _ _ hat => hat) (fun _ _ _ h => h.point) fun _ _ _ => trivial
  have hdeclare : ∀ (hand : List Owner) (root : ScopeId) (name : String) (v : Value),
      .scope root ∈ hand → (∀ store : Store, store.Knows (hand ++ base) v) →
        Together (At base hand) (Eval.declare root name v true) (fun _ => At base hand)
          (fun _ _ => True) := by
    intro hand root name v hroot hv
    exact (At.discipline.together_declare (List.mem_append_left _ hroot) trivial hv name true).mono
      (fun _ _ hat => hat) (fun _ _ _ hat => hat) fun _ _ _ => trivial
  refine Together.bind hopen fun root => ?_
  refine Together.bind (hdeclare _ root "true" _ List.mem_cons_self fun _ => ?_) fun _ => ?_
  · exact Store.knows_of_plain rfl
  refine Together.bind (hdeclare _ root "false" _ List.mem_cons_self fun _ => ?_) fun _ => ?_
  · exact Store.knows_of_plain rfl
  refine Together.bind Together.consoleObject fun con => ?_
  refine Together.bind (hdeclare _ root "con" con (by simp) fun _ => ?_) fun _ => ?_
  · exact Store.knows_of_mem List.mem_cons_self
  refine Together.pure fun m n hat => hat.of_owned ?_ fun id hid => ?_
  · refine Store.owned_subset_reachable fun o ho => ?_
    exact List.mem_append_left _ (List.mem_cons_of_mem _ ho)
  · exact List.mem_append_left _ (by simpa using hid)

/-- The heap of a run that has just begun. -/
theorem at_start (console : Console) (limit : Nat) :
    At [] [] (Machine.start console limit) (Machine.start console limit) where
  left := rfl
  right := rfl
  console := rfl
  depth := rfl
  limit := rfl
  heaps := .refl .empty rfl

/-- **The root scope of a run is made without fail and leaves the heap in order.** -/
theorem rootScope_start (console : Console) (limit : Nat) :
    ∃ root machine, Eval.rootScope (Machine.start console limit) = .ok root machine ∧
      At [] [.scope root] machine machine := by
  have hstart := Together.rootScope _ _ (at_start console limit)
  rcases hstart with ⟨root, m, n, hm, hn, hrel⟩ | ⟨halt, m, n, hm, -⟩
  · rw [hm] at hn
    cases hn
    exact ⟨root, m, hm, hrel⟩
  · -- The names declared in a new root scope differ.
    have hok : ∃ machine, Eval.rootScope (Machine.start console limit) = .ok 0 machine := ⟨_, rfl⟩
    obtain ⟨machine, hok⟩ := hok
    rw [hm] at hok
    cases hok

end Scriptlet
