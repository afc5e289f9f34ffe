import Scriptlet.Proofs.Depth

/-!
# What lasts through a session

Whatever is true of all code that is run, and of all values that are brought along, is true of everything
in a session. This is said with a likeness. That the machine and the held values are like themselves is an
invariant of sessions (`Session.Like.invariant`), so whatever the next step begins to run is like itself too
(`Session.Begins.like`).
-/

namespace Scriptlet

open List (Forall₂)

namespace Session

variable {ℓ : Likeness} {α : Type} {s : Session} {step : Step} {first : Point}

/-- A session whose machine and held values are like themselves. -/
structure Like (ℓ : Likeness) (s : Session) : Prop where
  machine : s.machine.Like ℓ [] s.machine
  held : Forall₂ (Record.Like (Value.Like ℓ)) s.held s.held

namespace Like

theorem owners (h : s.Like ℓ) : Forall₂ (Owner.Like ℓ) s.owners s.owners := by
  refine List.rel_append (List.forall₂_same.mpr fun owner howner => ?_) ?_
  · obtain ⟨id, -, rfl⟩ := List.mem_map.mp howner
    exact .scope id
  · refine List.rel_map (fun entry entry' hentry => ?_) h.held
    obtain ⟨hv⟩ := hentry
    exact .value hv

theorem working (h : s.Like ℓ) : s.working.Like ℓ [] s.working :=
  h.machine.withOwners (List.rel_append h.owners h.machine.owners)

theorem quiet (h : s.Like ℓ) : s.quiet.Like ℓ :=
  ⟨{ h.machine with console := (Console.after_nil _).symm }, h.held⟩

theorem start (console : Console) (limit : Nat) : (Session.start console limit).Like ℓ := by
  have hroot : ℓ.Mirrors [] Eval.rootScope Eval.rootScope (· = ·) := .rootScope
  have hstart := Machine.like_start (ℓ := ℓ) console limit
  unfold Session.start
  split
  · rename_i root machine hrun
    exact ⟨(hroot.of_ok hstart hrun).2, .nil⟩
  · rename_i halt machine hrun
    exact ⟨hroot.of_error hstart hrun, .nil⟩

end Like

/-! ## Steps -/

/-- What is run under a likeness, from a machine that is like itself. -/
theorem Keeps.mirrors {x : Eval α} {Q : α → α → Prop} (hx : ℓ.Mirrors [] x x Q) :
    Keeps (Like ℓ) (Session.runMachine x) fun a => Q a a := by
  refine .runMachine (fun s hs a m h => ?_) fun s hs halt m h => ?_
  · obtain ⟨ha, hm⟩ := hx.of_ok hs.working h
    exact ⟨ha, hm.withOwners hs.machine.owners, hs.held⟩
  · exact ⟨(hx.of_error hs.working h).withOwners hs.machine.owners, hs.held⟩

theorem Like.invariant : Invariant (Like ℓ) fun v => v.Like ℓ v where
  quiet s hs := hs.quiet
  lookup root name := .mirrors (.lookup root name)
  held s name v hs hname := by
    have hlike := Record.like_get? hs.held name
    rw [hname] at hlike
    cases hlike with
    | some hv => exact hv
  hold s name v hs hv := ⟨hs.machine, Record.like_put hs.held name hv⟩
  unhold s name hs := ⟨hs.machine, List.forall₂_same.mpr fun entry hentry =>
    List.forall₂_same.mp hs.held entry (List.mem_of_mem_filter hentry)⟩
  watch s watched hs := ⟨hs.machine, hs.held⟩
  unroot s hs := ⟨hs.machine, hs.held⟩
  release s root hs := ⟨{ hs.machine with heap := hs.machine.heap.release hs.owners [] root }, hs.held⟩
  collect s hs := ⟨{ hs.machine with heap := hs.machine.heap.collect hs.owners [] }, hs.held⟩

/-- What is asked of a step: the source that it evaluates and the values that it brings along are like
themselves. -/
structure Step.Fits (ℓ : Likeness) (step : Step) : Prop where
  source : ∀ source program, step = .evaluate source → parse source = .ok program →
    Forall₂ (Stmt.Like ℓ) program program
  args : ∀ v ∈ step.args, v.Like ℓ v

theorem Step.Fits.runs (hℓ : ℓ.Computes) (hstep : step.Fits ℓ) :
    step.Runs (Like ℓ) fun v => v.Like ℓ v where
  program source program root heq hparse :=
    .mirrors (Likeness.program hℓ [] ampleSteps root (hstep.source source program heq hparse))
  call callee args holdAs v heq hv := by
    subst heq
    have hcall := Likeness.Mirrors.call (Likeness.evaluation hℓ [] ampleSteps).2.2 hv
      (List.forall₂_same.mpr hstep.args)
    exact .mirrors (hcall.holding (.cons (.value hv) .nil))

/-- **Every session is like itself**, if all that is brought to it is. -/
theorem like_after (hℓ : ℓ.Computes) (hs : s.Like ℓ) {row : List Step}
    (hrow : ∀ step ∈ row, step.Fits ℓ) : (s.after row).Like ℓ :=
  Like.invariant.after (fun step hstep => (hrow step hstep).runs hℓ) hs

/-- **What a step begins to run is like itself.** -/
theorem Begins.like (h : s.Begins step first) (hs : s.Like ℓ) (hstep : step.Fits ℓ) : first.Like ℓ := by
  cases h with
  | evaluate hroot hparse => exact ⟨⟨.null, hstep.source _ _ rfl hparse⟩, hs.quiet.working⟩
  | @call callee args holdAs v t hfind scope =>
    obtain ⟨hv, ht⟩ := (Like.invariant.find callee).of_ok hs.quiet hfind
    exact ⟨⟨hv, List.forall₂_same.mpr hstep.args⟩, ht.working.holding (.cons (.value hv) .nil)⟩

end Session

end Scriptlet
