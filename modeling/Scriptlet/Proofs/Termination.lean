import Scriptlet.Proofs.Bindings
import Scriptlet.Proofs.Evaluation.Kept

/-!
# Programs without loops end

Without loops, only calls can keep a program going. Functions are values, so a call may lead anywhere,
but it leads one level deeper, and the depth is limited. So a program ends that has no loop itself and
can get hold of no function with one, however its functions call each other
(`Session.loopFree_programs_end`).

The bound on the steps is no part of the language. To end means to come to the same ending for every
number of steps from some number on, and not for lack of them (`Eval.Terminates`).
-/

namespace Scriptlet

variable {α β : Type} {m m' : Machine}

namespace Eval

/-- Endings with a value or with a failure of the program. -/
inductive Ended : EStateM.Result Halt Machine α → Prop where
  | value (a : α) (after : Machine) : Ended (.ok a after)
  | failure (f : Failure) (after : Machine) : Ended (.error (.failure f) after)

/-- A computation that ends on a machine, once it is given enough steps. -/
def Terminates (x : Nat → Eval α) (m : Machine) : Prop :=
  ∃ bound ending, Ended ending ∧ ∀ steps, bound ≤ steps → x steps m = ending

namespace Terminates

variable {x : Nat → Eval α} {f : Nat → α → Eval β}

theorem of_ended {x : Eval α} (h : Ended (x m)) : Terminates (fun _ => x) m :=
  ⟨0, x m, h, fun _ _ => rfl⟩

/-- What comes to an ending whenever another computation does. -/
theorem of_terminates {y : Nat → Eval β} (hx : Terminates x m')
    (hy : ∀ ending, Ended ending → ∃ ending', Ended ending' ∧
      ∀ steps, x steps m' = ending → y steps m = ending') : Terminates y m := by
  obtain ⟨bound, ending, hended, hbound⟩ := hx
  obtain ⟨ending', hended', hends⟩ := hy ending hended
  exact ⟨bound, ending', hended', fun steps hsteps => hends steps (hbound steps hsteps)⟩

/-- The second computation has to end on whatever machine the first one leaves. -/
theorem bind (hx : Terminates x m)
    (hf : ∀ steps a after, x steps m = .ok a after → Terminates (fun steps => f steps a) after) :
    Terminates (fun steps => x steps >>= f steps) m := by
  obtain ⟨bound, ending, hended, hbound⟩ := hx
  cases hended with
  | value a after =>
    obtain ⟨bound', ending', hended', hbound'⟩ := hf bound a after (hbound bound (Nat.le_refl _))
    refine ⟨max bound bound', ending', hended', fun steps hsteps => ?_⟩
    obtain ⟨hle, hle'⟩ := Nat.max_le.mp hsteps
    exact (bind_of_ok (hbound steps hle)).trans (hbound' steps hle')
  | failure failure after =>
    exact ⟨bound, _, .failure failure after, fun steps hsteps => bind_of_error (hbound steps hsteps)⟩

theorem step (h : Terminates (fun steps => x (steps + 1)) m) : Terminates x m := by
  obtain ⟨bound, ending, hended, hbound⟩ := h
  refine ⟨bound + 1, ending, hended, fun steps hsteps => ?_⟩
  obtain ⟨steps, rfl⟩ := Nat.exists_eq_add_of_le' (Nat.le_of_add_left_le hsteps)
  exact hbound steps (Nat.le_of_succ_le_succ hsteps)

end Terminates

end Eval

open Eval (Ended Terminates)

/-- **Where there are no loops, code ends.** -/
theorem Composed.terminates {σ : Setting} (hloops : ¬σ.loops) {depth : Nat} {placed : Bool}
    {x : Nat → Eval α} {Q : α → Prop} (h : Composed σ depth placed x Q)
    (hm : σ.Holds depth m) : Terminates x m := by
  induction h generalizing m with
  | @onStore _ _ _ _ g _ =>
    refine .of_ended ?_
    unfold Eval.onStore
    split
    · exact .value _ _
    · exact .failure _ _
  | write text =>
    refine .of_ended ?_
    rw [Eval.write_apply]
    split
    · exact .value _ _
    · exact .failure _ _
  | read =>
    refine .of_ended ?_
    rw [Eval.read_apply]
    split
    · exact .value _ _
    · exact .value _ _
    · exact .failure _ _
  | bind hx _ ihx ihf =>
    refine (ihx hm).bind fun steps a after hrun => ?_
    have hkept := hx.keeps steps m hm
    rw [hrun] at hkept
    exact ihf a hkept.1 hkept.2
  | located _ _ ih =>
    refine (ih hm).of_terminates fun ending hended => ?_
    cases hended with
    | value a after => exact ⟨_, .value a after, fun _ => Eval.located_ok⟩
    | failure f after => exact ⟨_, .failure _ after, fun _ => Eval.located_failure⟩
  | holding owners _ ih =>
    have hheld : σ.Holds _ { m with owners := owners ++ m.owners } := ⟨hm.store, hm.depth, hm.limit⟩
    refine (ih hheld).of_terminates fun ending hended => ?_
    cases hended with
    | value a after => exact ⟨_, .value a _, fun _ => Eval.holding_ok⟩
    | failure f after => exact ⟨_, .failure f _, fun _ => Eval.holding_error⟩
  | orDrop scope _ ih =>
    refine (ih hm).of_terminates fun ending hended => ?_
    cases hended with
    | value a after => exact ⟨_, .value a after, fun _ => Eval.orDrop_ok⟩
    | failure f after => exact ⟨_, .failure f _, fun _ => Eval.orDrop_error⟩
  | inBody scope _ ih =>
    refine (ih (hm.entered scope)).of_terminates fun ending hended => ?_
    cases hended with
    | value v after => exact ⟨_, .value v _, fun _ => Eval.inBody_ok⟩
    | failure f after => exact ⟨_, .failure f _, fun _ => Eval.inBody_error⟩
  | loop h => exact absurd h hloops
  | step _ _ ih => exact (ih hm).step
  | weaken _ _ _ ih => exact ih hm

/-! ## What a scope leads to -/

theorem Value.Carries.leads {v : Value} {f : Function} (h : v.Carries f) (store : Store) :
    ∃ n, v.node? = some n ∧ Leads store.edges n (.function f) := by
  induction h with
  | itself f => exact ⟨.function f, rfl, .refl⟩
  | @part id fields entry f hentry _ ih =>
    obtain ⟨n, hn, hleads⟩ := ih
    have hedge : n ∈ store.edges (.object id fields) :=
      List.mem_filterMap.mpr ⟨entry, hentry, hn⟩
    exact ⟨.object id fields, rfl, .head hedge hleads⟩

/-- The setting of a program without loops: the scopes that a scope leads to, and all to come. -/
def Setting.around (m : Machine) (scope : ScopeId) : Setting where
  place _ := True
  loops := False
  scopes id := .scope id ∈ m.heap.store.reachable [.scope scope] ∨ m.heap.store.fresh ≤ id
  limit := m.limit

theorem Setting.holds_around {owners : List Owner} (hsound : m.heap.store.Sound owners)
    {scope : ScopeId} (hloopFree : ∀ f, .function f ∈ m.heap.store.reachable [.scope scope] →
      f.body.loopFree = true) : (Setting.around m scope).Holds m.depth m := by
  have hedge : ∀ id s, m.heap.store.scope? id = some s → (Setting.around m scope).scopes id →
      ∀ n ∈ s.edges, n ∈ m.heap.store.reachable [.scope scope] := by
    intro id s hs hid n hn
    have hold : ¬m.heap.store.fresh ≤ id :=
      Nat.not_le_of_lt (hsound.id_lt _ (Store.present_of_scope hs))
    exact Store.reachable_of_edge (hid.resolve_right hold) (Store.mem_edges_scope.mpr ⟨s, hs, hn⟩)
  refine ⟨⟨fun _ => .inr, fun id s hs hid p hp => ?_, fun id s hs hid v hv f hf => ?_⟩, rfl, rfl⟩
  · exact .inl (hedge id s hs hid _ (Scope.mem_edges.mpr (.inr ⟨p, hp, rfl⟩)))
  · obtain ⟨n, hn, hleads⟩ := hf.leads m.heap.store
    obtain ⟨r, hr, hn⟩ := hedge id s hs hid n (Scope.mem_edges.mpr (.inl ⟨v, hv, hn⟩))
    have hf : .function f ∈ m.heap.store.reachable [.scope scope] := ⟨r, hr, hn.trans hleads⟩
    refine ⟨f.body.within_of_loopFree (fun _ => trivial) fun _ => hloopFree f hf, .inl ?_⟩
    exact Store.reachable_of_edge hf List.mem_cons_self

/-- Whether a node is no function with a loop. -/
def Node.loopFree : Node → Bool
  | .function f => f.body.loopFree
  | .scope _ | .object .. => true

/-- A visit from an owned scope finds every function that the scope leads to. -/
theorem Machine.loopFree_of_visit {args : List Value} (hsound : m.SoundWith args) {scope : ScopeId}
    (hscope : .scope scope ∈ m.owners)
    (hvisit : (visit m.heap.store.edges m.heap.store.fresh [.scope scope] ∅).nodes.all
      Node.loopFree = true) :
    ∀ f, .function f ∈ m.heap.store.reachable [.scope scope] → f.body.loopFree = true := by
  rintro f ⟨r, ⟨o, ho, hr⟩, hleads⟩
  obtain rfl := List.mem_singleton.mp ho
  cases hr
  have hstart : ∀ n ∈ [Node.scope scope],
      n ∈ m.heap.store.present (Owner.values args ++ m.owners) := by
    simpa using Store.present_of_owned ⟨_, List.mem_append_right _ hscope, rfl⟩
  have hvisited := (mem_visited hsound.domain hstart).mpr ⟨_, List.mem_cons_self, hleads⟩
  exact List.all_eq_true.mp hvisit _ hvisited

namespace Session

/-- **Programs without loops end**: on a machine with a sound store, as sessions have it, with whatever
limit to the depth of calls, a program that contains no loop comes to a value or to a failure in every
scope that leads to no function with a loop. -/
theorem loopFree_programs_end (console : Console) (limit : Nat) :
    (∀ row : List Step, (start console limit).Legal row →
      ((start console limit).after row).working.SoundWith []) ∧
    ∀ m : Machine, m.SoundWith [] → ∀ (program : Program) (scope : ScopeId),
      bodyLoopFree program = true →
      (∀ f, .function f ∈ m.heap.store.reachable [.scope scope] → f.body.loopFree = true) →
        Eval.Terminates (fun steps => Eval.program steps program scope) m := by
  refine ⟨fun row => sound_working console limit, ?_⟩
  intro m hsound program scope hprogram hreach
  have hholds := Setting.holds_around hsound hreach
  have hstart : (Setting.around m scope).scopes scope :=
    .inl (Store.reachable_of_scope_mem List.mem_cons_self)
  have hcode : ∀ stmt ∈ program, stmt.Within (Setting.around m scope).toCode :=
    within_of_bodyLoopFree (fun _ => trivial) program fun _ => hprogram
  exact (Composed.program hcode hstart).terminates (fun h => h) hholds

/-- Two functions, one of them from an earlier step, that call each other through an argument and
never return. -/
theorem loopFree_programs_end_calling_each_other :
    let s := (start (Console.ofLines []) defaultDepthLimit).after
      [.evaluate "def ping(other, n) { other(ping, n + 1) }"]
    let program := (parse "def pong(other, n) { other(pong, n + 1) } ping(pong, 0)").toOption.getD []
    program.length = 2 ∧ Eval.Terminates (fun steps => Eval.program steps program 0) s.working := by
  intro s program
  have hlegal : (start (Console.ofLines []) defaultDepthLimit).Legal
      [.evaluate "def ping(other, n) { other(ping, n + 1) }"] :=
    legal_of_plain _ (by simp [Step.args])
  obtain ⟨hsessions, hends⟩ := loopFree_programs_end (Console.ofLines []) defaultDepthLimit
  have hsound : s.working.SoundWith [] := hsessions _ hlegal
  have hroot : s.root = some 0 := by decide +kernel
  have hvisit : (visit s.working.heap.store.edges s.working.heap.store.fresh [.scope 0] ∅).nodes.all
      Node.loopFree = true := by decide +kernel
  have hprogram : program.length = 2 ∧ bodyLoopFree program = true := by decide +kernel
  clear_value s program
  have hscope : .scope 0 ∈ s.working.owners := by
    rw [working, owners_of_root hroot]
    exact List.mem_cons_self
  have hreach := Machine.loopFree_of_visit hsound hscope hvisit
  exact ⟨hprogram.1, hends s.working hsound program 0 hprogram.2 hreach⟩

end Session

end Scriptlet
