import Scriptlet.Proofs.Evaluation.Underway
import Scriptlet.Proofs.Session

/-!
# What a run does to bindings

Whatever is evaluated, executed or called, on a machine whose store is sound for its owners, and
whether it ends well or not, runs its course through the owners. So much for scopes that were there
before (`Session.bindings_stable`): those that are still reachable are still there; they have all
their names, and constants have their values. Evaluating and calling give them no new names, and
executing a statement gives new names only to the scope that it is executed in.

A call works only through what it is given. Scopes that neither the callee nor the arguments lead to
are as they were, unless nothing led to them at all and they are gone; and the result leads to
nothing but what the callee and the arguments led to, and what is new (`Session.calls_confined`).
-/

namespace Scriptlet

open Heap (Course Outset)

variable {m : Machine} {args : List Value} {steps : Nat}

/-- Whether the store of a machine is sound for its owners and what is in hand. -/
def Machine.SoundWith (m : Machine) (hand : List Value) : Prop :=
  m.heap.store.Sound (Owner.values hand ++ m.owners)

/-! ## Stability -/

/-- A store compared with an earlier one. What is reachable is still there, and what is there has
evolved; names may have been declared in some scopes only. -/
structure Store.Stable (declares : ScopeId → Prop) (owners : List Owner) (before after : Store) :
    Prop where
  kept : ∀ id scope, before.scope? id = some scope → .scope id ∈ after.reachable owners →
    ∃ now, after.scope? id = some now
  evolved : ∀ id scope now, before.scope? id = some scope → after.scope? id = some now →
    scope.Evolves (declares id) now

/-- A machine after a run that began on another one: its store is sound for the result and the
owners, and stable. -/
def Machine.StableIn (m : Machine) (declares : ScopeId → Prop) (result : List Value)
    (after : Machine) : Prop :=
  after.heap.store.Sound (Owner.values result ++ m.owners) ∧
    m.heap.store.Stable declares (Owner.values result ++ m.owners) after.heap.store

namespace Machine

/-- A run that works through all owners, and declares names in some scopes only. -/
def outset (m : Machine) (args : List Value) (h : m.SoundWith args) (declares : ScopeId → Prop) :
    Outset where
  heap := m.heap
  owners := Owner.values args ++ m.owners
  others := []
  declares := declares
  sound := by
    rw [List.append_nil]
    exact h

variable {h : m.SoundWith args} {declares : ScopeId → Prop}

theorem stableIn_of_course {result : List Value} {after : Machine}
    (hcourse : Course (m.outset args h declares) (Owner.values result ++ m.owners) after.heap) :
    m.StableIn declares result after := by
  have hsound : after.heap.store.Sound (Owner.values result ++ m.owners ++ []) := hcourse.sound
  rw [List.append_nil] at hsound
  refine ⟨hsound, fun id scope _ hid => ?_, fun id scope now hs hnow => ?_⟩
  · exact hsound.scope_exists id (Store.present_of_reachable hid)
  · rcases hcourse.evolves hs with hnone | ⟨evolved, hevolved, hevolves⟩
    · simp [hnone] at hnow
    · cases hnow.symm.trans hevolved
      exact hevolves

/-- A run that stays on course is stable. -/
theorem ends_stableIn {x : Eval Value}
    (hkeeps : (m.outset args h declares).discipline.Keeps m.owners args x fun v => [v]) :
    x.EndsIn m (m.StableIn declares) := by
  have hstart : Underway (m.outset args h declares) m.owners (Owner.values args) m m :=
    ⟨rfl, fun w => by simp [outset], .start⟩
  exact (hstart.ends hkeeps).mono fun _ _ => stableIn_of_course

end Machine

namespace Session

/-- The machine of a session while a step uses it: the owners of the session hold on. -/
def working (s : Session) : Machine :=
  { s.machine with owners := s.owners ++ s.machine.owners }

/-- What a step runs, it runs on the machine at work. -/
theorem runMachine_working {α : Type} (x : Eval α) (s : Session) :
    runMachine x s =
      match x s.working with
      | .ok a m => .ok a { s with machine := { m with owners := s.machine.owners } }
      | .error halt m =>
        .error (.halt halt) { s with machine := { m with owners := s.machine.owners } } := by
  unfold runMachine Eval.holding working
  dsimp only
  split <;> rename_i h <;> split at h <;> simp_all

/-- A session that is about to take a step has a sound store. -/
theorem sound_working (console : Console) (limit : Nat) {row : List Step}
    (hlegal : (start console limit).Legal row) :
    ((start console limit).after row).working.SoundWith [] := by
  have horderly := (orderly_start console limit).after row hlegal
  have hsound : ((start console limit).after row).machine.heap.store.Sound
      (((start console limit).after row).owners ++ []) := by
    rw [List.append_nil]
    exact horderly.heap.sound
  rwa [← horderly.owners] at hsound

/-- **Bindings are stable**: on a machine with a sound store, as sessions have it, whatever is
evaluated, executed or called leaves every scope that is still reachable with its names, their flags
and its constants, and with no new names but those that a statement declares in its own scope. -/
theorem bindings_stable (console : Console) (limit : Nat) :
    (∀ row : List Step, (start console limit).Legal row →
      ((start console limit).after row).working.SoundWith []) ∧
    ∀ (m : Machine) (steps : Nat),
      (m.SoundWith [] → ∀ scope, .scope scope ∈ m.owners →
        (∀ expr, (Eval.evaluate steps expr scope).EndsIn m (m.StableIn fun _ => False)) ∧
        (∀ stmt, (Eval.execute steps stmt scope).EndsIn m (m.StableIn (· = scope))) ∧
        ∀ program, (Eval.program steps program scope).EndsIn m (m.StableIn (· = scope))) ∧
      ∀ args, m.SoundWith args → ∀ callee, .value callee ∈ m.owners →
        (Eval.call (Eval.executeBlock steps) callee args).EndsIn m (m.StableIn fun _ => False) := by
  refine ⟨fun row => sound_working console limit, fun m steps => ⟨fun hsound scope hscope => ?_, ?_⟩⟩
  · have hown : ∀ {o : Outset}, o.declares scope → o.discipline.declares scope := .inl
    refine ⟨fun expr => ?_, fun stmt => ?_, fun program => ?_⟩
    · exact Machine.ends_stableIn (h := hsound)
        ((Discipline.evaluation _ steps).1 expr scope m.owners hscope)
    · exact Machine.ends_stableIn (h := hsound)
        ((Discipline.evaluation _ steps).2.1 stmt scope m.owners hscope (hown rfl))
    · exact Machine.ends_stableIn (h := hsound)
        (Discipline.program _ steps program scope m.owners hscope (hown rfl))
  · intro args hsound callee hcallee
    exact Machine.ends_stableIn (h := hsound) (Discipline.call _ steps hcallee args)

/-- A call in an expression: the counter changes, the constant stays. -/
theorem bindings_stable_counter :
    let s := (start (Console.ofLines []) defaultDepthLimit).after
      [.evaluate "declare const step = 2 declare i = 0 def count() { i = i + step i }"]
    let call := Expr.call (.identifier "count" ⟨1, 1, 1, 6⟩) [] ⟨1, 1, 1, 8⟩
    (Eval.evaluate ampleSteps call 0).EndsIn s.working (s.working.StableIn fun _ => False) := by
  intro s call
  have hlegal : (start (Console.ofLines []) defaultDepthLimit).Legal
      [.evaluate "declare const step = 2 declare i = 0 def count() { i = i + step i }"] :=
    legal_of_plain _ (by simp [Step.args])
  obtain ⟨hsessions, hruns⟩ := bindings_stable (Console.ofLines []) defaultDepthLimit
  have hsound : s.working.SoundWith [] := hsessions _ hlegal
  have hroot : s.root = some 0 := by decide +kernel
  clear_value s
  have hscope : .scope 0 ∈ s.working.owners := by
    rw [working, owners_of_root hroot]
    exact List.mem_cons_self
  exact ((hruns _ ampleSteps).1 hsound 0 hscope).1 call

end Session

/-! ## Confinement -/

/-- A store compared with an earlier one, after something was done with what some owners led to.
Other scopes are as they were or gone, and as they were if anything led to them; and what is
reachable from the result is new or was reachable from these owners. -/
structure Store.Confined (known owners result : List Owner) (before after : Store) : Prop where
  untouched : ∀ id, id < before.fresh → .scope id ∉ before.reachable known →
    after.scope? id = before.scope? id ∨ after.scope? id = none
  kept : ∀ id, .scope id ∈ before.reachable owners → .scope id ∉ before.reachable known →
    after.scope? id = before.scope? id
  result : ∀ n ∈ after.reachable result, n ∈ before.reachable known ∨ before.fresh ≤ n.id

namespace Machine

/-- A call, which works through the callee and the arguments only. -/
def callOutset (m : Machine) (callee : Value) (args : List Value) (h : m.SoundWith args)
    (hcallee : .value callee ∈ m.owners) : Outset where
  heap := m.heap
  owners := Owner.values (callee :: args)
  others := m.owners
  declares := fun _ => False
  sound := by
    refine h.mono fun w hw => ?_
    rcases List.mem_cons.mp hw with rfl | hw
    · exact List.mem_append_right _ hcallee
    · exact hw

variable {callee : Value} {h : m.SoundWith args} {hcallee : .value callee ∈ m.owners}

theorem confined_of_course {result : List Value} {after : Machine}
    (hcourse : Course (m.callOutset callee args h hcallee)
      (Owner.values result ++ [.value callee]) after.heap) :
    Store.Confined (Owner.values (callee :: args)) (Owner.values args ++ m.owners)
      (Owner.values result) m.heap.store after.heap.store where
  untouched _ := hcourse.untouched
  kept id hin hout := by
    refine hcourse.kept_of_others (Store.reachable_mono ?_ hin) hout
    exact List.subset_cons_self (Owner.value callee) _
  result n hn := hcourse.reachable_subset (Store.reachable_mono (List.subset_append_left _ _) hn)

/-- A call that stays on course is confined. -/
theorem ends_confined {x : Eval Value} (h : m.SoundWith args) (hcallee : .value callee ∈ m.owners)
    (hkeeps : (m.callOutset callee args h hcallee).discipline.Keeps [.value callee] args x
      fun v => [v]) :
    x.EndsIn m fun result after =>
      Store.Confined (Owner.values (callee :: args)) (Owner.values args ++ m.owners)
        (Owner.values result) m.heap.store after.heap.store := by
  have hstart : Underway (m.callOutset callee args h hcallee) [.value callee] (Owner.values args)
      m m := by
    refine ⟨rfl, fun w => ⟨.inr, fun hw => ?_⟩, Course.start.congr fun w => ?_⟩
    · rcases hw with hw | hw
      · exact List.mem_singleton.mp hw ▸ hcallee
      · exact hw
    · simp [callOutset, or_comm]
  exact (hstart.ends hkeeps).mono fun _ _ => confined_of_course

end Machine

namespace Session

/-- Whether a session holds two functions of which the first one does not lead to the scope of the
other. -/
def holdsApart (s : Session) : Bool :=
  match s.held.map (·.2) with
  | [Value.function first, Value.function second] =>
    !(visit s.working.heap.store.edges s.working.heap.store.fresh [.function first] ∅).contains
      second.closure
  | _ => false

/-- **Calls are confined**: on a machine with a sound store, as sessions have it, a call changes only
scopes that the callee or the arguments lead to, or that are new, and its result leads to nothing
else. -/
theorem calls_confined (console : Console) (limit : Nat) :
    (∀ row : List Step, (start console limit).Legal row →
      ((start console limit).after row).working.SoundWith []) ∧
    ∀ (m : Machine) (args : List Value), m.SoundWith args → ∀ callee, .value callee ∈ m.owners →
      ∀ steps,
        (Eval.call (Eval.executeBlock steps) callee args).EndsIn m fun result after =>
          Store.Confined (Owner.values (callee :: args)) (Owner.values args ++ m.owners)
            (Owner.values result) m.heap.store after.heap.store := by
  refine ⟨fun row => sound_working console limit, fun m args hsound callee hcallee steps => ?_⟩
  exact Machine.ends_confined hsound hcallee (Discipline.call _ steps List.mem_cons_self args)

/-- Counters from one maker count apart: calling one leaves the scope of the other as it was. -/
theorem calls_confined_counters :
    let s := (start (Console.ofLines []) defaultDepthLimit).after
      [.evaluate "def make() { declare i = 0 def count() { i = i + 1 } count }",
        .call (.named "make") [] (some "first"), .call (.named "make") [] (some "second")]
    ∃ first second : Function, s.held.map (·.2) = [.function first, .function second] ∧
      (Eval.call (Eval.executeBlock ampleSteps) (.function first) []).EndsIn s.working
        fun _ after => after.heap.store.scope? second.closure =
          s.working.heap.store.scope? second.closure := by
  intro s
  have hlegal : (start (Console.ofLines []) defaultDepthLimit).Legal
      [.evaluate "def make() { declare i = 0 def count() { i = i + 1 } count }",
        .call (.named "make") [] (some "first"), .call (.named "make") [] (some "second")] :=
    legal_of_plain _ (by simp [Step.args])
  obtain ⟨hsessions, hcalls⟩ := calls_confined (Console.ofLines []) defaultDepthLimit
  have hsound : s.working.SoundWith [] := hsessions _ hlegal
  have hapart : s.holdsApart = true := by decide +kernel
  clear_value s
  unfold holdsApart at hapart
  split at hapart
  · rename_i first second hheld
    have howned : ∀ f ∈ [first, second], .value (.function f) ∈ s.working.owners := by
      intro f hf
      have hmem : Value.function f ∈ s.held.map (·.2) := by
        rw [hheld]
        simpa using hf
      obtain ⟨entry, hentry, hvalue⟩ := List.mem_map.mp hmem
      refine List.mem_append_left _ (List.mem_append_right _ ?_)
      exact List.mem_map.mpr ⟨entry, hentry, congrArg _ hvalue⟩
    have hfirst := howned first (by simp)
    have hclosure : .scope second.closure ∈ s.working.heap.store.reachable s.working.owners :=
      Store.reachable_of_edge (Store.reachable_of_owned ⟨_, howned second (by simp), rfl⟩)
        List.mem_cons_self
    refine ⟨first, second, hheld, (hcalls s.working [] hsound _ hfirst ampleSteps).mono
      fun result after hconfined => hconfined.kept second.closure hclosure fun hin => ?_⟩
    obtain ⟨r, ⟨o, ho, hr⟩, hleads⟩ := hin
    obtain rfl := List.mem_singleton.mp ho
    cases hr
    have hstart : ∀ n ∈ [Node.function first], n ∈ s.working.heap.store.present s.working.owners := by
      simpa using Store.present_of_owned ⟨_, hfirst, rfl⟩
    have hseen := (id_mem_visit hsound.domain hstart (Store.present_of_reachable hclosure)).mpr
      ⟨_, List.mem_cons_self, hleads⟩
    simp only [Node.id, Std.TreeMap.mem_iff_contains] at hseen
    rw [hseen] at hapart
    simp at hapart
  · simp at hapart

end Session

end Scriptlet
