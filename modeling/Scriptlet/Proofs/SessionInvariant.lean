import Scriptlet.Proofs.Bindings

/-!
# Invariants of sessions

Every step of a session is put together from a few parts: something is found or run, held or let go of, and
scopes are collected. An invariant that all parts keep (`Session.Invariant`) is kept by every step that
runs nothing else than code that keeps it (`Session.Invariant.next`), however the step ends.

With the invariant goes a property of values. All held values have it, and whatever is found and whatever
a call results in.
-/

namespace Scriptlet

namespace Session

variable {α β : Type} {x : Work α} {f : α → Work β} {I : Session → Prop} {good : Value → Prop}
  {Q : α → Prop} {R : β → Prop} {s t : Session} {step : Step}

/-! ## Parts of steps -/

/-- What work comes to where an invariant holds: a result that satisfies `Q`, and the invariant holds again
in any case. -/
def Keeps (I : Session → Prop) (x : Work α) (Q : α → Prop) : Prop :=
  ∀ s, I s →
    match x s with
    | .ok a t => Q a ∧ I t
    | .error _ t => I t

namespace Keeps

theorem of_ok {a : α} (h : Keeps I x Q) (hs : I s) (hx : x s = .ok a t) : Q a ∧ I t := by
  have hresult := h s hs
  rwa [hx] at hresult

theorem of_error {trouble : Trouble} (h : Keeps I x Q) (hs : I s) (hx : x s = .error trouble t) :
    I t := by
  have hresult := h s hs
  rwa [hx] at hresult

theorem pure {a : α} (h : Q a) : Keeps I (Pure.pure a) Q := fun _ hs => ⟨h, hs⟩

theorem throw (trouble : Trouble) : Keeps I (MonadExcept.throw trouble : Work α) Q := fun _ hs => hs

theorem change {g : Session → Session} (h : ∀ s, I s → I (g s)) :
    Keeps I (modify g : Work Unit) fun _ => True := fun s hs => ⟨trivial, h s hs⟩

theorem bind (hx : Keeps I x Q) (hf : ∀ a, Q a → Keeps I (f a) R) : Keeps I (x >>= f) R := by
  intro s hs
  simp only [Bind.bind, EStateM.bind]
  cases h : x s with
  | ok a t =>
    obtain ⟨ha, ht⟩ := hx.of_ok hs h
    exact hf a ha t ht
  | error trouble t => exact hx.of_error hs h

/-- What is run on the machine at work. -/
theorem runMachine {x : Eval α}
    (hok : ∀ s, I s → ∀ a m, x s.working = .ok a m →
      Q a ∧ I { s with machine := { m with owners := s.machine.owners } })
    (herror : ∀ s, I s → ∀ halt m, x s.working = .error halt m →
      I { s with machine := { m with owners := s.machine.owners } }) :
    Keeps I (Session.runMachine x) Q := by
  intro s hs
  rw [runMachine_working]
  cases h : x s.working with
  | ok a m => exact hok s hs a m h
  | error halt m => exact herror s hs halt m h

theorem rootScope : Keeps I Session.rootScope fun _ => True := by
  intro s hs
  rw [rootScope_apply]
  cases s.root with
  | some root => exact ⟨trivial, hs⟩
  | none => exact hs

end Keeps

/-! ## Steps -/

/-- An invariant that is kept by all that a step does but to run code, with a property of values that those
have which are held or found. -/
structure Invariant (I : Session → Prop) (good : Value → Prop) : Prop where
  quiet : ∀ s, I s → I s.quiet
  lookup : ∀ root name, Keeps I (runMachine (Eval.lookup root name)) good
  held : ∀ s name v, I s → s.held.get? name = some v → good v
  hold : ∀ s name v, I s → good v → I { s with held := Record.put name v s.held }
  unhold : ∀ s name, I s → I { s with held := s.held.drop name }
  watch : ∀ s watched, I s → I { s with watched }
  unroot : ∀ s, I s → I { s with root := none }
  release : ∀ s root, I s → I { s with machine := { s.machine with
    heap := s.machine.heap.release s.owners [] root } }
  collect : ∀ s, I s → I { s with machine := { s.machine with
    heap := s.machine.heap.collect s.owners [] } }

/-- The code that a step runs keeps an invariant and comes to values with the property. -/
structure Step.Runs (I : Session → Prop) (good : Value → Prop) (step : Step) : Prop where
  program : ∀ source program root, step = .evaluate source → parse source = .ok program →
    Keeps I (runMachine (Eval.program ampleSteps program root)) good
  call : ∀ callee args holdAs v, step = .call callee args holdAs → good v → Keeps I
    (runMachine (Eval.holding [.value v] (Eval.call (Eval.executeBlock ampleSteps) v args))) good

namespace Invariant

variable (h : Invariant I good)

include h

theorem find (source : Source) : Keeps I (Session.find source) good := by
  cases source with
  | named name => exact Keeps.rootScope.bind fun root _ => h.lookup root name
  | held name =>
    intro s hs
    rw [find_held_apply]
    cases hname : s.held.get? name with
    | none => exact hs
    | some v => exact ⟨h.held s name v hs hname, hs⟩

theorem keep (name : String) {v : Value} (hv : good v) :
    Keeps I (Session.keep name v) fun _ => True := .change fun s hs => h.hold s name v hs hv

theorem collectNow : Keeps I Session.collectNow fun _ => True :=
  (Keeps.change h.collect).bind fun _ _ _ hs => ⟨trivial, hs⟩

theorem perform (hruns : step.Runs I good) : Keeps I (Session.perform step) fun _ => True := by
  cases step with
  | evaluate source =>
    refine Keeps.rootScope.bind fun root _ => ?_
    cases hparse : parse source with
    | error failure => exact .throw _
    | ok program =>
      exact (hruns.program source program root rfl hparse).bind fun _ _ => .pure trivial
  | call callee args holdAs =>
    refine (h.find callee).bind fun v hv => ?_
    refine (hruns.call callee args holdAs v rfl hv).bind fun result hresult => ?_
    cases holdAs with
    | none => exact .pure trivial
    | some name => exact (h.keep name hresult).bind fun _ _ => .pure trivial
  | hold value name =>
    exact (h.find value).bind fun v hv => (h.keep name hv).bind fun _ _ => .pure trivial
  | unhold name => exact fun s hs => ⟨trivial, h.unhold s name hs⟩
  | watch value name =>
    refine (h.find value).bind fun v _ => ?_
    cases v with
    | function f => exact (Keeps.change fun s hs => h.watch s _ hs).bind fun _ _ => .pure trivial
    | _ => exact .throw _
  | collect => exact h.collectNow
  | releaseRoot =>
    refine Keeps.rootScope.bind fun root _ => ?_
    refine (Keeps.change h.unroot).bind fun _ _ => ?_
    exact (Keeps.change fun s hs => h.release s root hs).bind fun _ _ => h.collectNow

/-- **Every step keeps the invariant**, however it ends. -/
theorem next (hruns : step.Runs I good) (hs : I s) : I (s.step step).2.2 := by
  have hquiet := h.quiet s hs
  unfold Session.step
  cases hperform : Session.perform step s.quiet with
  | ok answer t => exact ((h.perform hruns).of_ok hquiet hperform).2
  | error trouble t => exact (h.perform hruns).of_error hquiet hperform

/-- The invariant lasts through any row of steps. -/
theorem after {row : List Step} (hrow : ∀ step ∈ row, step.Runs I good) (hs : I s) :
    I (s.after row) := by
  induction row generalizing s with
  | nil => exact hs
  | cons step rest ih =>
    obtain ⟨hstep, hrest⟩ := List.forall_mem_cons.mp hrow
    exact ih hrest (h.next hstep hs)

end Invariant

end Session

end Scriptlet
