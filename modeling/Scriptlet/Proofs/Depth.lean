import Scriptlet.Proofs.Evaluation.Overflow
import Scriptlet.Proofs.Evaluation.Source
import Scriptlet.Proofs.Pieces
import Scriptlet.Proofs.SessionInvariant

/-!
# The depth of calls is exact

A session counts how deep calls are nested and refuses the call that would go beyond its limit. Were
the count off by one after some failure, later programs of the session could fail for it.

**Theorem (`Session.depth_exact`).** Whatever is evaluated, executed or called leaves the depth as it
was, whether it ends well or not, so it is zero between the steps of a session. In a run that begins at
depth zero, the depth is the number of bodies of declared functions that are being executed, at most the
limit. Too deep a call is reported exactly where a declared function is called with enough arguments
while as many bodies as the limit allows are being executed; calls of the console do not count.

The reports are told apart from failures that are only passed on: a point raises a fault if it fails with
it and nothing on its way does (`Point.Raises`).
-/

namespace Scriptlet

variable {limit : Nat}

/-! ## Raising -/

/-- Whether what begins at a point fails with a fault, and nothing on its way does. -/
def Point.Raises (p : Point) (fault : Fault) : Prop :=
  p.Fails fault ∧ ∀ q, ComesTo p q → ¬q.Fails fault

/-- Without room nothing comes after a call. -/
theorem Point.Overflows.not_comesTo {p q : Point} (h : p.Overflows) : ¬ComesTo p q := by
  obtain ⟨⟨f, args, htask, -⟩, hfull⟩ := h
  intro hnext
  cases hnext with
  | params _ hdepth _ => exact absurd hdepth (Nat.not_lt_of_le hfull)
  | enter _ hdepth _ => exact absurd hdepth (Nat.not_lt_of_le hfull)
  | _ => cases htask

theorem Point.raises_iff {p : Point} :
    p.Raises (.callDepthExceeded limit) ↔ p.Overflows ∧ p.machine.limit = limit := by
  constructor
  · rintro ⟨hfails, hnone⟩
    rcases hfails.descends with hoverflows | ⟨q, hnext, hq⟩
    · exact hoverflows
    · exact absurd hq (hnone q hnext)
  · rintro ⟨hoverflows, rfl⟩
    exact ⟨hoverflows.fails, fun q hnext => absurd hnext hoverflows.not_comesTo⟩

/-- What is said of the depth of calls in a run. -/
structure ExactDepth (first : Point) : Prop where
  /-- There is a number of bodies at every point. -/
  counted : ∀ p, Reaches first p → ∃ n, ReachesIn first n p
  depth : ∀ n p, ReachesIn first n p → p.machine.depth = n ∧ n ≤ first.machine.limit
  raised : ∀ n p limit, ReachesIn first n p →
    (p.Raises (.callDepthExceeded limit) ↔
      p.Calls ∧ n = first.machine.limit ∧ limit = first.machine.limit)
  /-- What is raised is what the run fails with. -/
  failed : ∀ limit, first.Fails (.callDepthExceeded limit) ↔
    ∃ n p, ReachesIn first n p ∧ p.Raises (.callDepthExceeded limit)
  /-- A call of the console enters no body and is never too deep. -/
  natives : ∀ p g args, Reaches first p → p.task = .call (.native g) args →
    (∀ q, ¬ComesTo p q) ∧ ∀ limit, ¬p.Fails (.callDepthExceeded limit)

theorem exactDepth {first : Point} (hdepth : first.machine.depth = 0) : ExactDepth first := by
  have hlevel : ∀ {n p}, ReachesIn first n p →
      p.machine.depth = n ∧ p.machine.limit = first.machine.limit := by
    intro n p hreaches
    obtain ⟨hn, hlimit⟩ := Prod.mk.inj hreaches.level
    rw [hdepth, Nat.zero_add] at hn
    exact ⟨hn, hlimit⟩
  have hle : ∀ {n p}, ReachesIn first n p → n ≤ first.machine.limit := by
    intro n p hreaches
    obtain ⟨hn, hlimit⟩ := hlevel hreaches
    have hroom := hreaches.depth_le (hdepth ▸ Nat.zero_le _)
    rwa [hn, hlimit] at hroom
  refine ⟨fun p => reaches_iff_reachesIn.mp, fun n p hreaches => ⟨(hlevel hreaches).1, hle hreaches⟩,
    fun n p limit hreaches => ?_, fun limit => ?_, fun p g args hreaches htask => ?_⟩
  · obtain ⟨hn, hlimit⟩ := hlevel hreaches
    rw [Point.raises_iff, hlimit]
    constructor
    · rintro ⟨⟨hcalls, hfull⟩, rfl⟩
      rw [hn, hlimit] at hfull
      exact ⟨hcalls, Nat.le_antisymm (hle hreaches) hfull, rfl⟩
    · rintro ⟨hcalls, hfull, rfl⟩
      refine ⟨⟨hcalls, ?_⟩, rfl⟩
      rw [hn, hlimit]
      exact Nat.le_of_eq hfull.symm
  · simp only [Point.raises_iff]
    exact Point.fails_iff
  · obtain ⟨steps, scope, task, m⟩ := p
    obtain rfl : task = .call (.native g) args := htask
    constructor
    · intro q hnext
      cases hnext
    · intro limit hfails
      exact Eval.callNative_ne_depth (Eval.fails_map.mp hfails)

/-! ## Sessions -/

namespace Session

variable {α : Type} {x : Work α} {s : Session}

/-- Whether work leaves the depth of calls as it was. -/
def KeepsLevel (x : Work α) : Prop := ∀ s, (lastState (x s)).machine.level = s.machine.level

namespace KeepsLevel

/-- What keeps every depth leaves the depth as it was. -/
theorem of_keeps {Q : α → Prop} (h : ∀ level, Keeps (fun s => s.machine.level = level) x Q) :
    KeepsLevel x := by
  intro s
  cases hx : x s with
  | ok a t => exact ((h _).of_ok rfl hx).2
  | error trouble t => exact (h _).of_error rfl hx

theorem runMachine {x : Eval α} {level : Nat × Nat} (hx : ∀ m, (lastState (x m)).level = m.level) :
    Keeps (fun s => s.machine.level = level) (Session.runMachine x) fun _ => True := by
  have hlast : ∀ (s : Session) result, x s.working = result →
      (lastState result).level = s.machine.level := by
    rintro s _ rfl
    exact hx s.working
  exact .runMachine (fun s hs a m h => ⟨trivial, (hlast s _ h).trans hs⟩)
    fun s hs halt m h => (hlast s _ h).trans hs

theorem invariant (level : Nat × Nat) :
    Invariant (fun s => s.machine.level = level) fun _ => True where
  quiet _ hs := hs
  lookup root name := runMachine fun m => by
    rw [Eval.lookup_apply]
    cases m.heap.store.lookup root name <;> rfl
  held _ _ _ _ _ := trivial
  hold _ _ _ hs _ := hs
  unhold _ _ hs := hs
  watch _ _ hs := hs
  unroot _ hs := hs
  release _ _ hs := hs
  collect _ hs := hs

theorem runs (level : Nat × Nat) (step : Step) :
    step.Runs (fun s => s.machine.level = level) fun _ => True where
  program _ program root _ _ := runMachine fun m => by
    have hlast := Point.level_last ⟨ampleSteps, root, .sequence .null program, m⟩
    rwa [Point.last, Point.ending, Task.run, lastState_map] at hlast
  call _ args _ callee _ _ := runMachine fun m => by
    have hlast := Point.level_last ⟨ampleSteps, 0, .call callee args, m.holding [.value callee]⟩
    rw [Point.last, Point.ending, Task.run, lastState_map] at hlast
    exact level_holding.trans hlast

theorem find (source : Source) : KeepsLevel (Session.find source) :=
  of_keeps fun level => (invariant level).find source

end KeepsLevel

theorem level_after (s : Session) (row : List Step) :
    (s.after row).machine.level = s.machine.level :=
  (KeepsLevel.invariant s.machine.level).after (fun step _ => KeepsLevel.runs _ step) rfl

theorem level_start (console : Console) (limit : Nat) :
    (start console limit).machine.level = (0, limit) := by
  have hlast : (start console limit).machine =
      lastState (Eval.rootScope (Machine.start console limit)) := by
    unfold start
    cases Eval.rootScope (Machine.start console limit) <;> rfl
  have hroot : (Setting.any limit).Keeps 0 false Eval.rootScope (Setting.any limit).scopes :=
    Composed.rootScope.keeps 0
  have hlevel : (lastState (Eval.rootScope (Machine.start console limit))).level = (0, limit) :=
    hroot.level_last
  rw [hlast, hlevel]

/-! ## What steps begin with -/

/-- The points at which steps of a session begin to run something. -/
inductive Begins (s : Session) : Step → Point → Prop where
  | evaluate {source : String} {program : Program} {root : ScopeId} (hroot : s.root = some root)
    (hparse : parse source = .ok program) :
    Begins s (.evaluate source) ⟨ampleSteps, root, .sequence .null program, s.quiet.working⟩
  /-- The callee is found first. In which scope a call begins makes no difference to it. -/
  | call {callee : Source} {args : List Value} {holdAs : Option String} {v : Value} {t : Session}
    (hfind : find callee s.quiet = .ok v t) (scope : ScopeId) :
    Begins s (.call callee args holdAs)
      ⟨ampleSteps, scope, .call v args, t.working.holding [.value v]⟩

variable {step : Step} {first : Point} {fault : Fault}

theorem Begins.level (h : s.Begins step first) : first.machine.level = s.machine.level := by
  cases h with
  | evaluate => rfl
  | @call callee args holdAs v t hfind scope =>
    have hlevel := KeepsLevel.find callee s.quiet
    rw [hfind] at hlevel
    exact hlevel

/-- The fault that a step fails with. -/
def fault? (s : Session) (step : Step) : Option Fault :=
  match (s.step step).1 with
  | .error (.halt (.failure failure)) => some failure.fault
  | _ => none

/-- What a call answers. -/
theorem step_call {callee : Source} {args : List Value} {holdAs : Option String} {v : Value}
    {t : Session} (hfind : find callee s.quiet = .ok v t) :
    (s.step (.call callee args holdAs)).1 =
      match Eval.holding [.value v] (Eval.call (Eval.executeBlock ampleSteps) v args) t.working with
      | .ok result _ => .ok (.value result)
      | .error halt _ => .error (.halt halt) := by
  simp only [Session.step, Session.perform, Bind.bind, EStateM.bind, hfind, runMachine_working]
  cases Eval.holding [.value v] (Eval.call (Eval.executeBlock ampleSteps) v args) t.working with
  | ok result m => cases holdAs <;> rfl
  | error halt m => rfl

/-- **A step fails as what it runs does.** -/
theorem Begins.fault?_eq_iff (h : s.Begins step first) :
    s.fault? step = some fault ↔ first.Fails fault := by
  cases h with
  | @evaluate source program root hroot hparse =>
    have hfirst : Point.Fails ⟨ampleSteps, root, .sequence .null program, s.quiet.working⟩ fault ↔
        Eval.Fails (Eval.program ampleSteps program root) s.quiet.working fault := Eval.fails_map
    rw [hfirst, fault?, step_evaluate hroot hparse, Eval.Fails]
    rcases Eval.program ampleSteps program root s.quiet.working with _ | ⟨⟨_, _⟩ | _, _⟩ <;>
      simp [shown]
  | @call callee args holdAs v t hfind scope =>
    have hfirst : Point.Fails ⟨ampleSteps, scope, .call v args, t.working.holding [.value v]⟩ fault ↔
        Eval.Fails (Eval.holding [.value v] (Eval.call (Eval.executeBlock ampleSteps) v args))
          t.working fault := Eval.fails_map.trans Eval.fails_holding.symm
    rw [hfirst, fault?, step_call hfind, Eval.Fails]
    rcases Eval.holding [.value v] (Eval.call (Eval.executeBlock ampleSteps) v args) t.working
      with _ | ⟨⟨_, _⟩ | _, _⟩ <;> simp

/-- **Whatever is done leaves the depth as it was, so it is zero between the steps of a session. In a run
that begins with it, the depth is the number of bodies that are being executed, at most the limit, and
it is reported as too deep exactly when a declared function is called with enough arguments while as
many bodies as the limit are being executed.** -/
theorem depth_exact (console : Console) (limit : Nat) :
    (∀ row : List Step,
      ((start console limit).after row).machine.depth = 0 ∧
      ((start console limit).after row).machine.limit = limit ∧
      ∀ step first, ((start console limit).after row).Begins step first →
        first.machine.depth = 0 ∧ first.machine.limit = limit ∧
        ∀ fault, ((start console limit).after row).fault? step = some fault ↔ first.Fails fault) ∧
    (∀ p : Point, p.last.depth = p.machine.depth ∧ p.last.limit = p.machine.limit) ∧
    ∀ first : Point, first.machine.depth = 0 → ExactDepth first := by
  refine ⟨fun row => ?_, fun p => Prod.mk.inj p.level_last, fun first => exactDepth⟩
  have hlevel : ((start console limit).after row).machine.level = (0, limit) :=
    (level_after _ row).trans (level_start console limit)
  obtain ⟨hdepth, hlimit⟩ := Prod.mk.inj hlevel
  refine ⟨hdepth, hlimit, fun step first hbegins => ?_⟩
  obtain ⟨hfirst, hfirst'⟩ := Prod.mk.inj (hbegins.level.trans hlevel)
  exact ⟨hfirst, hfirst', fun fault => hbegins.fault?_eq_iff⟩

/-- A function that calls itself without end, two bodies deep. -/
theorem depth_exact_recursion :
    let s := start (Console.ofLines []) 2
    let step := Step.evaluate "def f() { f() } f()"
    s.fault? step = some (.callDepthExceeded 2) ∧ (s.after [step]).machine.depth = 0 ∧
      ∃ first p, s.Begins step first ∧ ReachesIn first 2 p ∧ p.Calls ∧
        p.Raises (.callDepthExceeded 2) := by
  intro s step
  obtain ⟨hsessions, -, hruns⟩ := depth_exact (Console.ofLines []) 2
  have hs : s = start (Console.ofLines []) 2 := rfl
  rw [← hs] at hsessions
  have hfault : s.fault? step = some (.callDepthExceeded 2) := by decide +kernel
  have hroot : s.root = some 0 := by decide +kernel
  have hparses : (parse "def f() { f() } f()").toOption.isSome = true := by decide +kernel
  clear_value s
  obtain ⟨program, hparse⟩ : ∃ program, parse "def f() { f() } f()" = .ok program := by
    cases hresult : parse "def f() { f() } f()" with
    | ok program => exact ⟨program, rfl⟩
    | error failure => simp [hresult, Except.toOption] at hparses
  have hbegins : s.Begins step ⟨ampleSteps, 0, .sequence .null program, s.quiet.working⟩ :=
    .evaluate hroot hparse
  obtain ⟨hdepth, hlimit, hfails⟩ := (hsessions []).2.2 step _ hbegins
  obtain ⟨n, p, hreaches, hraises⟩ := ((hruns _ hdepth).failed 2).mp ((hfails _).mp hfault)
  obtain ⟨hcalls, hn, -⟩ := ((hruns _ hdepth).raised n p 2 hreaches).mp hraises
  obtain rfl : n = 2 := hn.trans hlimit
  exact ⟨hfault, (hsessions [step]).1, _, p, hbegins, hreaches, hcalls, hraises⟩

end Session

end Scriptlet
