import Scriptlet.Proofs.Evaluation.Depth
import Scriptlet.Proofs.Heap.Convergence
import Scriptlet.Proofs.Heap.Leak
import Scriptlet.Proofs.Session

/-!
# How long scopes live

Sessions and runs only give up scopes through the collector, so their heaps have histories in which
no scope is forgotten. Two things follow from what is known about the collector.

After a collection, or when the root scope of a run has been given up, every scope that is still
there is reachable exactly if each candidate of that collection was reachable or topmost when its
turn came (`clean_iff_timely`). This is not always so: a collection may take a scope for live
because of a scope that it frees later, and then the first one stays (`not_clean_nested_calls`).

Whatever one collection leaves behind, more of them free: a collection that frees nothing has
nothing to free, and as many as there are unreachable scopes leave none (`settles_throughout`).
-/

namespace Scriptlet

/-! ## Runs -/

/-- A program that has ended in a root scope of its own, with the value that is kept if there is
one, and the machine just before the root scope is given up. -/
inductive Ended (initial : Machine) (steps : Nat) (program : Program) :
    ScopeId → List Value → Machine → Prop where
  | value {root : ScopeId} {machine after : Machine} {v : Value}
    (hroot : Eval.rootScope initial = .ok root machine)
    (hrun : Eval.holding [.scope root] (Eval.program steps program root) machine = .ok v after) :
    Ended initial steps program root [v] after
  | halt {root : ScopeId} {machine after : Machine} {halt : Halt}
    (hroot : Eval.rootScope initial = .ok root machine)
    (hrun : Eval.holding [.scope root] (Eval.program steps program root) machine =
      .error halt after) :
    Ended initial steps program root [] after

variable {initial machine : Machine} {steps : Nat} {program : Program} {root : ScopeId}
  {kept : List Value}

/-- A run is over when its root scope has been given up. -/
theorem Ended.lastState_runProgram (h : Ended initial steps program root kept machine) :
    lastState (runProgram steps program initial) = machine.releaseRoot root kept := by
  unfold runProgram
  cases h with
  | value hroot hrun | halt hroot hrun =>
    rw [hroot]
    dsimp only
    rw [hrun]
    rfl

theorem exists_ended (console : Console) (limit : Nat) (steps : Nat) (program : Program) :
    ∃ root kept machine, Ended (Machine.start console limit) steps program root kept machine := by
  obtain ⟨root, machine, hroot, -⟩ := rootScope_start console limit
  cases hrun : Eval.holding [.scope root] (Eval.program steps program root) machine with
  | ok v after => exact ⟨root, [v], after, .value hroot hrun⟩
  | error halt after => exact ⟨root, [], after, .halt hroot hrun⟩

/-- The heap of a program that has ended. -/
theorem Ended.history {console : Console} {limit : Nat}
    (h : Ended (Machine.start console limit) steps program root kept machine) :
    machine.owners = [] ∧ machine.heap.reclaims = true ∧
      Heap.History False (.scope root :: kept.map .value) machine.heap := by
  obtain ⟨root', first, hstart, hat⟩ := rootScope_start console limit
  have hprogram : Together (At [] ([.scope root'] ++ Owner.values []))
      (Eval.holding [.scope root'] (Eval.program steps program root'))
      (fun v => At [] (Owner.values [v] ++ [.scope root'])) (At [] [.scope root']) := by
    have hsteady : Steady ([.scope root'] ++ []) [] (Eval.program steps program root')
        fun v => [v] := Steady.program steps program (by simp)
    exact At.discipline.together_holding hsteady
  cases h with
  | value hroot hrun =>
    cases hroot.symm.trans hstart
    rcases hprogram _ _ hat with ⟨_, m, _, hm, -, hrel⟩ | ⟨_, m, _, hm, -⟩
    · cases hrun.symm.trans hm
      exact ⟨hrel.left, hrel.heaps.reclaims,
        hrel.heaps.left.congr fun _ => (List.Perm.swap _ _ _).mem_iff⟩
    · cases hrun.symm.trans hm
  | halt hroot hrun =>
    cases hroot.symm.trans hstart
    rcases hprogram _ _ hat with ⟨_, m, _, hm, -⟩ | ⟨_, m, _, hm, -, hrel⟩
    · cases hrun.symm.trans hm
    · cases hrun.symm.trans hm
      exact ⟨hrel.left, hrel.heaps.reclaims, hrel.heaps.left⟩

/-! ## What one collection leaves behind -/

/-- Giving up a root scope and collecting leaves nothing behind exactly if that collection has all
its turns in time. -/
theorem Heap.clean_release_collect_iff {heap : Heap} {owners : List Owner} {id : ScopeId}
    (h : Heap.History False (.scope id :: owners) heap) (hreclaims : heap.reclaims = true) :
    ((heap.release owners [] id).collect owners []).Clean owners ↔
      (heap.release owners [] id).Timely owners :=
  clean_collect_iff (h.release []).orderly (reclaims_release.trans hreclaims)

namespace Session

variable {s : Session}

/-- Whether everything that still exists is reachable. -/
def Clean (s : Session) : Prop := s.machine.heap.Clean s.owners

theorem Orderly.clean_of_no_candidates (h : s.Orderly) (hnone : s.machine.heap.candidates = []) :
    s.Clean :=
  (Heap.clean_iff h.heap.orderly).mpr (by simp [hnone])

theorem clean_collect_step_iff (h : s.Orderly) :
    (s.step .collect).2.2.Clean ↔ s.machine.heap.Timely s.owners :=
  Heap.clean_collect_iff h.heap.orderly h.reclaims

theorem clean_releaseRoot_step_iff (h : s.Orderly) {root : ScopeId} (hroot : s.root = some root) :
    (s.step .releaseRoot).2.2.Clean ↔
      (s.machine.heap.release (s.held.map (.value ·.2)) [] root).Timely
        (s.held.map (.value ·.2)) := by
  rw [step_releaseRoot hroot]
  have hheap := h.heap
  rw [owners_of_root hroot] at hheap
  exact Heap.clean_release_collect_iff hheap h.reclaims

/-- **After a collection, and when a root scope has been given up, nothing unreachable is left
exactly if each candidate of the collection was gone, reachable or topmost when its turn came.** -/
theorem clean_iff_timely (console : Console) (limit : Nat) :
    (∀ row : List Step, (start console limit).Legal row →
      let s := (start console limit).after row
      ((s.step .collect).2.2.Clean ↔ s.machine.heap.Timely s.owners) ∧
      ∀ root, s.root = some root →
        let owners := s.held.map (Owner.value ·.2)
        ((s.step .releaseRoot).2.2.Clean ↔
          (s.machine.heap.release owners [] root).Timely owners)) ∧
    ∀ steps program, ∃ root kept machine,
      Ended (Machine.start console limit) steps program root kept machine ∧
        lastState (runProgram steps program (Machine.start console limit)) =
          machine.releaseRoot root kept ∧
        let owners := kept.map Owner.value
        ((machine.releaseRoot root kept).heap.Clean owners ↔
          (machine.heap.release owners [] root).Timely owners) := by
  refine ⟨fun row hlegal => ?_, fun steps program => ?_⟩
  · have h := (orderly_start console limit).after row hlegal
    exact ⟨clean_collect_step_iff h, fun root hroot => clean_releaseRoot_step_iff h hroot⟩
  · obtain ⟨root, kept, machine, hended⟩ := exists_ended console limit steps program
    obtain ⟨howners, hreclaims, hheap⟩ := hended.history
    have hiff := Heap.clean_release_collect_iff hheap hreclaims
    refine ⟨root, kept, machine, hended, hended.lastState_runProgram, ?_⟩
    simpa only [Machine.releaseRoot, howners, List.append_nil] using hiff

/-- The scope of a call is freed in time once its only function is gone. -/
theorem timely_after_closure :
    let s := (start (Console.ofLines []) defaultDepthLimit).after
      [.evaluate "def f() { def g() { 1 } g } declare h = f() h = null"]
    s.machine.heap.candidates = [4] ∧ s.machine.heap.Timely s.owners := by
  refine ⟨by decide +kernel, ?_⟩
  have hlegal : (start (Console.ofLines []) defaultDepthLimit).Legal
      [.evaluate "def f() { def g() { 1 } g } declare h = f() h = null"] :=
    legal_of_plain _ (by simp [Step.args])
  refine ((clean_iff_timely _ _).1 _ hlegal).1.mp ?_
  refine Orderly.clean_of_no_candidates (((orderly_start _ _).after _ hlegal).step .collect ?_) ?_
  · simp [Step.args]
  · decide +kernel

/-- A scope that the next collection frees was not reachable before. -/
theorem not_clean_of_gone (h : s.Orderly) (id : ScopeId)
    (hthere : s.machine.heap.store.holds id = true)
    (hgone : (s.step .collect).2.2.machine.heap.store.holds id = false) : ¬s.Clean := by
  intro hclean
  have hcollected : Store.Collected s.owners (s.step .collect).2.2.machine.heap.store
      s.machine.heap.store := Heap.collected_collect h.heap.sound
  obtain ⟨scope, hscope⟩ := Store.holds_iff.mp hthere
  have hkept := hcollected.keeps id (hclean.1 id scope hscope)
  have hholds := Store.holds_iff.mpr ⟨scope, hkept.trans hscope⟩
  exact absurd (hholds.symm.trans hgone) (by simp)

/-- A scope may outlive a collection, and the release of the root scope, although nothing leads to
it: here the scope of the outer call, which the scope of the inner call still holds on to when its
turn comes. -/
theorem not_clean_nested_calls :
    let s := (start (Console.ofLines []) defaultDepthLimit).after
      [.evaluate "def outer() { def inner() { def g() { 1 } g } inner }",
        .evaluate "declare f = outer() declare h = f()", .evaluate "f = null; h = null"]
    ¬(s.step .collect).2.2.Clean ∧ ¬(s.step .releaseRoot).2.2.Clean := by
  intro s
  have hs : s.Orderly := (orderly_start _ _).after _ (legal_of_plain _ (by simp [Step.args]))
  have hruns : ∀ step ∈ [Step.collect, Step.releaseRoot],
      (s.step step).2.2.machine.heap.store.holds 4 = true ∧
        ((s.step step).2.2.step .collect).2.2.machine.heap.store.holds 4 = false := by
    decide +kernel
  have hnot : ∀ step ∈ [Step.collect, Step.releaseRoot], step.args = [] →
      ¬(s.step step).2.2.Clean := by
    intro step hstep hargs
    obtain ⟨hthere, hgone⟩ := hruns step hstep
    exact not_clean_of_gone (hs.step step (by simp [hargs])) 4 hthere hgone
  exact ⟨hnot .collect (by simp) rfl, hnot .releaseRoot (by simp) rfl⟩

end Session

/-! ## Repeated collection -/

/-- A machine whose owners, with what is in hand, only gave up scopes through the collector, and
whose collector frees what it can. -/
structure Machine.Tidy (hand : List Owner) (m : Machine) : Prop where
  history : Heap.History False (hand ++ m.owners) m.heap
  reclaims : m.heap.reclaims = true

/-- A computation that starts on a tidy machine with some owners leaves it tidy, with the result in
hand. -/
def Eval.StaysTidy (owners : List Owner) (x : Eval Value) : Prop :=
  ∀ m : Machine, m.owners = owners → m.Tidy [] →
    match x m with
    | .ok v after => after.owners = owners ∧ after.Tidy [.value v]
    | .error _ after => after.owners = owners ∧ after.Tidy []

theorem Steady.staysTidy {base : List Owner} {x : Eval Value} (h : Steady base [] x fun v => [v]) :
    x.StaysTidy base := by
  intro m howners htidy
  have htidy_of_at : ∀ {hand : List Owner} {after other : Machine}, At base hand after other →
      after.owners = base ∧ after.Tidy hand := by
    intro hand after other hat
    refine ⟨hat.left, ?_, hat.heaps.reclaims⟩
    rw [hat.left]
    exact hat.heaps.left
  have hat : At base (Owner.values []) m m :=
    ⟨howners, howners, rfl, rfl, rfl, howners ▸ .refl htidy.history htidy.reclaims⟩
  rcases h m m hat with ⟨v, after, _, hrun, -, hafter⟩ | ⟨halt, after, _, hrun, -, hafter⟩
  · rw [hrun]
    exact htidy_of_at hafter
  · rw [hrun]
    exact htidy_of_at hafter

namespace Session

/-- **Between the steps of a session, and before and after whatever is evaluated within, repeated
collection frees everything unreachable.** -/
theorem settles_throughout (console : Console) (limit : Nat) :
    (∀ row : List Step, (start console limit).Legal row →
      let s := (start console limit).after row
      s.machine.owners = [] ∧ s.machine.Tidy s.owners) ∧
    (∀ (steps : Nat) (scope : ScopeId) (owners : List Owner), .scope scope ∈ owners →
      (∀ expr, (Eval.evaluate steps expr scope).StaysTidy owners) ∧
      (∀ stmt, (Eval.execute steps stmt scope).StaysTidy owners) ∧
      ∀ block, (Eval.executeBlock steps block scope).StaysTidy owners) ∧
    ∀ (hand : List Owner) (m : Machine), m.Tidy hand → m.heap.Settles (hand ++ m.owners) := by
  refine ⟨fun row hlegal => ?_, fun steps scope owners hscope => ?_, fun hand m htidy => ?_⟩
  · have h := (orderly_start console limit).after row hlegal
    refine ⟨h.owners, ?_, h.reclaims⟩
    rw [h.owners, List.append_nil]
    exact h.heap
  · obtain ⟨hevaluate, hexecute, hblock⟩ := Steady.evaluation steps hscope
    exact ⟨fun expr => (hevaluate expr).staysTidy, fun stmt => (hexecute stmt).staysTidy,
      fun block => (hblock block).staysTidy⟩
  · exact htidy.history.orderly.settles htidy.reclaims

/-- What one collection leaves behind of nested calls, more of them free. -/
theorem settles_nested_calls :
    let s := (start (Console.ofLines []) defaultDepthLimit).after
      [.evaluate "def outer() { def inner() { def g() { 1 } g } inner }",
        .evaluate "declare f = outer() declare h = f()", .evaluate "f = null; h = null", .collect]
    s.machine.heap.Settles (s.owners ++ s.machine.owners) := by
  have hlegal : (start (Console.ofLines []) defaultDepthLimit).Legal
      [.evaluate "def outer() { def inner() { def g() { 1 } g } inner }",
        .evaluate "declare f = outer() declare h = f()", .evaluate "f = null; h = null",
        .collect] := legal_of_plain _ (by simp [Step.args])
  obtain ⟨hsessions, -, htidy⟩ := settles_throughout (Console.ofLines []) defaultDepthLimit
  exact htidy _ _ (hsessions _ hlegal).2

end Session

end Scriptlet
