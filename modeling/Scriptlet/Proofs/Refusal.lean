import Scriptlet.Proofs.Evaluation.Source
import Scriptlet.Proofs.Evaluation.Traced

/-!
# Refused calls to the console stop a run

If the console refuses a write or a read, the program does nothing more: it fails at a place of its
source, its output is what a run without the refusal had written before that call, and the input that
is left is what that run had left (`refused_calls_stop`). No construct of the language catches a
failure, and a call writes at most once before it reads.
-/

namespace Scriptlet

open ConsoleEvent (isWrite isRead written? taken?)
open Eval (Traced)

variable {r : RefusedCalls}

/-! ## Runs that are traced -/

/-- A program in its scope, which it gives up at the end. -/
def Eval.inRoot (steps : Nat) (program : Program) (root : ScopeId) : Eval Value := fun m =>
  match Eval.holding [.scope root] (Eval.program steps program root) m with
  | .ok value m => .ok value (m.releaseRoot root [value])
  | .error halt m => .error halt (m.releaseRoot root [])

theorem runProgram_eq (steps : Nat) (program : Program) :
    runProgram steps program = Eval.rootScope >>= Eval.inRoot steps program := by
  funext m
  unfold runProgram
  cases hroot : Eval.rootScope m with
  | ok root m' => exact (Eval.bind_of_ok (f := Eval.inRoot steps program) hroot).symm
  | error halt m' => exact (Eval.bind_of_error (f := Eval.inRoot steps program) hroot).symm

theorem runProgram_traced {source : String} {limit : Nat} {program : Program}
    (hprogram : ∀ stmt ∈ program, stmt.Within (.ofSource source)) (r : RefusedCalls) (steps : Nat) :
    Traced (.ofSource source limit) 0 r (runProgram steps program) := by
  rw [runProgram_eq]
  refine .bind (Composed.rootScope.keeps steps) (Composed.rootScope.traced r steps) fun root hroot => ?_
  refine .wrap id id (fun _ value m => m.releaseRoot root [value]) (fun _ m => m.releaseRoot root [])
    (fun m => ?_) (fun _ => id) .id (fun _ _ => ⟨fun _ => rfl, fun _ => rfl⟩)
    (fun _ => ⟨fun _ => rfl, fun _ => rfl⟩) (fun _ => rfl)
    (((Composed.program hprogram hroot).traced r steps).holding [.scope root])
  unfold Eval.inRoot
  rw [id_eq]
  rcases Eval.holding [.scope root] (Eval.program steps program root) m with
    ⟨value, after⟩ | ⟨failure | _, after⟩ <;> rfl

theorem runSource_traced (source : String) (limit : Nat) (r : RefusedCalls) (steps : Nat) :
    Traced (.ofSource source limit) 0 r (runSource steps source) := by
  have hparse := parse_within source
  unfold runSource
  cases hprogram : parse source with
  | error failure => exact ⟨fun _ _ => ⟨[], rfl⟩, fun _ _ huntouched => .inl ⟨rfl, huntouched⟩⟩
  | ok program =>
    rw [hprogram] at hparse
    exact runProgram_traced hparse r steps

/-! ## One refused call -/

/-- Only the call after `n` others of its kind is refused. -/
structure RefusedCalls.Only (r : RefusedCalls) (kind : ConsoleEvent → Bool) (n : Nat)
    (reason : String) : Prop where
  refuses : ∀ log event reason', r.Refuses log event reason' →
    kind event = true ∧ log.countP kind = n ∧ reason' = reason
  untouched : ∀ c : Console, c.Untouched r → c.log.countP kind ≤ n
  start : (Console.start r.input none none).Untouched r

theorem RefusedCalls.only_write (input : List String) (n : Nat) :
    Only ⟨some (n + 1), none, input⟩ isWrite n "write refused" where
  refuses := by
    rintro log _ _ (⟨text, h⟩ | ⟨line, h⟩)
    · exact ⟨rfl, (Nat.succ.inj (Option.some.inj h)).symm, rfl⟩
    · cases h
  untouched _ h := Nat.le_of_lt_succ (h.writes_lt (n + 1) rfl)
  start := ⟨rfl, rfl, rfl, rfl, fun _ h => Option.some.inj h ▸ Nat.succ_pos n, nofun, rfl⟩

theorem RefusedCalls.only_read (input : List String) (n : Nat) :
    Only ⟨none, some (n + 1), input⟩ isRead n "read refused" where
  refuses := by
    rintro log _ _ (⟨text, h⟩ | ⟨line, h⟩)
    · cases h
    · exact ⟨rfl, (Nat.succ.inj (Option.some.inj h)).symm, rfl⟩
  untouched _ h := Nat.le_of_lt_succ (h.reads_lt (n + 1) rfl)
  start := ⟨rfl, rfl, rfl, rfl, nofun, fun _ h => Option.some.inj h ▸ Nat.succ_pos n, rfl⟩

/-- What a run comes to when its machine ends. -/
def Outcome.ofEnding : EStateM.Result Halt Machine Value → Outcome
  | .ok value m => ⟨.ok value, m.console⟩
  | .error halt m => ⟨.error halt, m.console⟩

theorem runWithin_eq (steps limit : Nat) (source : String) (console : Console) :
    runWithin steps limit source console =
      .ofEnding (runSource steps source (.start console limit)) := rfl

theorem Outcome.ofEnding_console (ending : EStateM.Result Halt Machine Value) :
    (ofEnding ending).console = Eval.lastConsole ending := by
  cases ending <;> rfl

theorem Outcome.ofEnding_refusing (r : RefusedCalls) (ending : EStateM.Result Halt Machine Value) :
    ofEnding (Eval.refusing r ending) =
      ⟨(ofEnding ending).result, (Eval.lastConsole ending).refusing r⟩ := by
  cases ending <;> rfl

/-! ## Where runs stop -/

/-- What comes of a run if the console refuses the call after `n` others of its kind, beside the run
at a console that refuses nothing. -/
inductive Outcome.StopsAt (kind : ConsoleEvent → Bool) (n : Nat) (reason : String)
    (input : List String) (plain refused : Outcome) : Prop where
  /-- There are not that many calls, and the runs are the same. -/
  | never (hfew : plain.console.events.countP kind ≤ n) (hresult : refused.result = plain.result)
    (hconsole : { refused.console with refusedWrite := none, refusedRead := none } = plain.console)
  /-- The run fails, and what happened is what happened in the other one before that call. -/
  | there {before after : List ConsoleEvent} {event : ConsoleEvent} {span : Span}
    (hevents : plain.console.events = before ++ event :: after) (hkind : kind event = true)
    (hcount : before.countP kind = n)
    (hresult : refused.result = .error (.failure ⟨.consoleFailure reason, some span⟩))
    (hstopped : refused.console.events = before)
    (houtput : refused.console.output = String.join (before.filterMap written?))
    (hinput : input = before.filterMap taken? ++ refused.console.input)

/-- A run stops at the one call that its console refuses, if it makes that call. -/
theorem RefusedCalls.Only.stopsAt {kind : ConsoleEvent → Bool} {n : Nat} {reason : String}
    (hr : r.Only kind n reason) (steps limit : Nat) (source : String) :
    Outcome.StopsAt kind n reason r.input
      (runWithin steps limit source (.start r.input none none))
      (runWithin steps limit source (.start r.input r.write r.read)) := by
  have hplain := runWithin_eq steps limit source (.start r.input none none)
  have hrefused := runWithin_eq steps limit source (.start r.input r.write r.read)
  rcases (runSource_traced source limit r steps).follows _
    (Setting.holds_start source (.start r.input none none) limit) hr.start with
    ⟨hsame, huntouched⟩ | ⟨failure, stopped, hcut, hfrom⟩
  · have hending : runSource steps source (.start (.start r.input r.write r.read) limit) =
        Eval.refusing r (runSource steps source (.start (.start r.input none none) limit)) := hsame
    rw [hending, Outcome.ofEnding_refusing] at hrefused
    rw [hplain, hrefused]
    refine .never ?_ rfl ?_
    · rw [Outcome.ofEnding_console, Console.events, List.countP_reverse]
      exact hr.untouched _ huntouched
    · rw [Outcome.ofEnding_console]
      exact huntouched.unrefused
  · have hending : runSource steps source (.start (.start r.input r.write r.read) limit) =
        .error (.failure failure) stopped := hcut
    rw [hending] at hrefused
    obtain ⟨⟨after, event, reason', hlog, hrefuses, hfault⟩, hinput⟩ := hfrom
    obtain ⟨hkind, hcount, rfl⟩ := hr.refuses _ _ _ hrefuses
    obtain ⟨span, hspan, -⟩ := runWithin_places (congrArg Outcome.result hrefused)
    have hresult : (runWithin steps limit source (.start r.input r.write r.read)).result =
        .error (.failure ⟨.consoleFailure reason', some span⟩) := by
      rw [hrefused, ← hfault, ← hspan]
      rfl
    rw [hrefused] at hresult ⊢
    rw [hplain]
    have hevents : (Outcome.ofEnding (runSource steps source
        (.start (.start r.input none none) limit))).console.events =
          stopped.console.log.reverse ++ event :: after.reverse := by
      rw [Outcome.ofEnding_console, Console.events, hlog]
      simp
    exact .there hevents hkind (List.countP_reverse.trans hcount) hresult rfl
      (ConsoleEvent.join_text _) hinput

/-- **A refused call to the console stops a run at once.** -/
theorem refused_calls_stop (steps limit : Nat) (source : String) (input : List String) (n : Nat) :
    Outcome.StopsAt isWrite n "write refused" input
        (runWithin steps limit source (.start input none none))
        (runWithin steps limit source (.start input (some (n + 1)) none)) ∧
      Outcome.StopsAt isRead n "read refused" input
        (runWithin steps limit source (.start input none none))
        (runWithin steps limit source (.start input none (some (n + 1)))) :=
  ⟨(RefusedCalls.only_write input n).stopsAt steps limit source,
    (RefusedCalls.only_read input n).stopsAt steps limit source⟩

/-- The first line is not read. The question before it is asked, and nothing after it is written. -/
example :
    let stopped := runWithin ampleSteps defaultDepthLimit "con.in(\"? \") con.out.print(\"!\")"
      (.start ["one"] none (some 1))
    stopped.result = .error (.failure ⟨.consoleFailure "read refused", some ⟨0, 12, 1, 1⟩⟩) ∧
      stopped.console.events = [.wrote "? "] ∧ stopped.console.input = ["one"] := by
  cbv

end Scriptlet
