import Scriptlet.Proofs.Bindings
import Scriptlet.Proofs.Evaluation.Beside
import Scriptlet.Proofs.Phase
import Scriptlet.Proofs.Seam

/-!
# Programs in pieces

A program may be given to a session in pieces.

**Theorem (`Session.evaluate_joined`).** Two sources, joined by a semicolon on a line of its own, have the
program of the first and then that of the second, at the places where it is now. If the first one comes
to a value in a session, then the second one, evaluated after it, looks and writes the same as at the end
of the joined source.

The two runs differ in three ways. The statements of the second source are at other places, which only
shows in where a failure is said to be. The console of the second step forgets what the first one wrote.
Both are dealt with by the likeness of runs. And a joined source holds on to the value of the first one
while the next statement runs, which keeps scopes alive; but nothing that the statement can get at leads
to them, so that the two machines stay beside each other.
-/

namespace Scriptlet

open List (Forall₂)

variable {m : Machine} {v w : Value} {scope : ScopeId}

/-! ## Rows of statements -/

theorem Eval.sequence_append (execute : Stmt → Eval Value) (last : Value) (before after : List Stmt) :
    Eval.sequence execute last (before ++ after) =
      (do Eval.sequence execute (← Eval.sequence execute last before) after) := by
  induction before generalizing last with
  | nil => rfl
  | cons stmt rest ih =>
    simp only [List.cons_append, Eval.sequence, bind_assoc, ih]

/-- A program goes on where a part of it has come to. -/
theorem Eval.program_append {steps : Nat} {before after : Program} {r : Machine}
    (h : Eval.program steps before scope m = .ok v r) :
    Eval.program steps (before ++ after) scope m =
      Eval.sequence (Eval.execute steps · scope) v after r := by
  rw [Eval.program, Eval.sequence_append]
  exact Eval.bind_of_ok h

/-- **The value before a statement makes no difference to it**, although it is held on to while the
statement is executed. -/
theorem Eval.sequence_cons_same (steps : Nat) (hscope : .scope scope ∈ m.owners)
    (hv : m.SoundWith [v]) (hw : m.SoundWith [w]) (stmt : Stmt) (rest : List Stmt) :
    (∃ a r r', Eval.sequence (Eval.execute steps · scope) v (stmt :: rest) m = .ok a r ∧
      Eval.sequence (Eval.execute steps · scope) w (stmt :: rest) m = .ok a r' ∧
      r'.console = r.console) ∨
    ∃ halt r r', Eval.sequence (Eval.execute steps · scope) v (stmt :: rest) m = .error halt r ∧
      Eval.sequence (Eval.execute steps · scope) w (stmt :: rest) m = .error halt r' ∧
      r'.console = r.console := by
  have hstart : Beside [.value v] [.value w] m.owners [] { m with owners := [.value v] ++ m.owners }
      { m with owners := [.value w] ++ m.owners } :=
    .of_extended (hv.mono (by simp)) (hw.mono (by simp))
  have hfirst := ((Beside.discipline [.value v] [.value w]).evaluation steps).2.1 stmt scope m.owners
    hscope trivial
  rcases hfirst _ _ hstart with ⟨a, r, r', hr, hr', hbeside⟩ | ⟨halt, r, r', hr, hr', hbeside⟩
  · -- From the second statement on, both hold on to the same.
    have hexec := ((Beside.discipline [] []).evaluation steps).2.1
    have hrest := Discipline.Keeps.sequence hexec hscope trivial a rest
    simp only [Eval.sequence]
    rw [Eval.bind_of_ok (Eval.holding_ok hr), Eval.bind_of_ok (Eval.holding_ok hr')]
    rcases hrest _ _ hbeside.let_go with ⟨b, s, s', hs, hs', hends⟩ | ⟨halt, s, s', hs, hs', hends⟩
    · exact .inl ⟨b, s, s', hs, hs', hends.console⟩
    · exact .inr ⟨halt, s, s', hs, hs', hends.console⟩
  · simp only [Eval.sequence]
    exact .inr ⟨halt, _, _, Eval.bind_of_error (Eval.holding_error hr),
      Eval.bind_of_error (Eval.holding_error hr'), hbeside.console⟩

/-- Two ends of runs that look the same, where the second console has older events behind its own. -/
inductive Eval.LooksAlike (old : List ConsoleEvent) :
    EStateM.Result Halt Machine Value → EStateM.Result Halt Machine Value → Prop where
  | value {v v' : Value} {r r' : Machine} (hvalue : v'.display = v.display)
    (hconsole : r'.console = r.console.after old) : LooksAlike old (.ok v r) (.ok v' r')
  | halt {halt halt' : Halt} {r r' : Machine} (hhalt : halt.Like .any halt')
    (hconsole : r'.console = r.console.after old) : LooksAlike old (.error halt r) (.error halt' r')

/-- **A row of statements goes on as it would begin**: after some value, on a machine that something has
been written with, it looks the same as on its own, on a machine that has forgotten that. -/
theorem Eval.sequence_looksAlike (steps : Nat) (hscope : .scope scope ∈ m.owners)
    (hv : m.SoundWith [v]) {stmts stmts' : List Stmt} (hlike : Forall₂ (Stmt.Like .any) stmts stmts')
    (hne : stmts ≠ []) :
    Eval.LooksAlike m.console.log
      (Eval.program steps stmts scope { m with console := m.console.forget })
      (Eval.sequence (Eval.execute steps · scope) v stmts' m) := by
  have hmachine : Machine.Like .any m.console.log { m with console := m.console.forget } m :=
    ⟨Heap.like_refl Likeness.isRefl_any _, List.forall₂_same.mpr fun o _ => o.like_refl Likeness.isRefl_any,
      rfl, rfl, rfl⟩
  have hprogram := Likeness.program Likeness.computes_any m.console.log steps scope hlike _ _ hmachine
  have hnull : m.SoundWith [.null] := hv.of_owned fun n hn => by
    obtain ⟨o, ho, hnode⟩ := hn
    rcases List.mem_append.mp ho with ho | ho
    · obtain rfl := List.mem_singleton.mp ho
      cases hnode
    · exact Store.present_of_owned ⟨o, List.mem_append_right _ ho, hnode⟩
  obtain _ | ⟨hstmt, hrest⟩ := hlike
  · exact absurd rfl hne
  · rename_i stmt stmt' rest rest'
    have hsame := Eval.sequence_cons_same steps hscope hnull hv stmt' rest'
    rcases hprogram with ⟨a, r, a', r', hr, hr', ha, hends⟩ | ⟨halt, r, halt', r', hr, hr', hhalt, hends⟩
    · rcases hsame with ⟨b, s, s', hs, hs', hconsole⟩ | ⟨halt, s, s', hs, hs', hconsole⟩
      · cases hr'.symm.trans hs
        rw [hr, hs']
        exact .value ha.display (hconsole.trans hends.console)
      · cases hr'.symm.trans hs
    · rcases hsame with ⟨b, s, s', hs, hs', hconsole⟩ | ⟨halt, s, s', hs, hs', hconsole⟩
      · cases hr'.symm.trans hs
      · cases hr'.symm.trans hs
        rw [hr, hs']
        exact .halt hhalt (hconsole.trans hends.console)

/-! ## Sessions -/

/-- What is written after older events comes behind them. -/
theorem Console.output_after (old : List ConsoleEvent) (console : Console) :
    (console.after old).output =
      String.join (old.reverse.map ConsoleEvent.text) ++ console.output := by
  simp [Console.output, Console.events, Console.after, String.join_append]

namespace Session

variable {s next : Session} {source source₁ source₂ output : String} {program : Program}
  {root : ScopeId}

/-- Two answers to sources that look the same: values with one display, or failures with one fault. -/
inductive SameLook : Except Trouble Answer → Except Trouble Answer → Prop where
  | value {v v' : Value} (h : v'.display = v.display) :
    SameLook (.ok (.value v)) (.ok (.value v'))
  | failure {f f' : Failure} (h : f'.fault = f.fault) :
    SameLook (.error (.halt (.failure f))) (.error (.halt (.failure f')))
  | outOfSteps : SameLook (.error (.halt .outOfSteps)) (.error (.halt .outOfSteps))

/-- What a run of a source shows, and the session after it. -/
def shown (s : Session) :
    EStateM.Result Halt Machine Value → Except Trouble Answer × String × Session
  | .ok v m => (.ok (.value v), m.console.output,
      { s with machine := { m with owners := s.machine.owners } })
  | .error halt m => (.error (.halt halt), m.console.output,
      { s with machine := { m with owners := s.machine.owners } })

theorem step_evaluate (hroot : s.root = some root) (hparse : parse source = .ok program) :
    s.step (.evaluate source) =
      s.shown (Eval.program ampleSteps program root s.quiet.working) := by
  obtain ⟨machine, _, held, watched⟩ := s
  obtain rfl : _ = some root := hroot
  simp only [step, perform, bind, EStateM.bind, rootScope_apply, quiet, hparse, runMachine_working]
  cases Eval.program ampleSteps program root _ <;> rfl

/-- Ends of runs that look the same are shown as such. -/
theorem shown_of_looksAlike {old : List ConsoleEvent} {x y : EStateM.Result Halt Machine Value}
    (h : Eval.LooksAlike old x y) (s t : Session) :
    SameLook (s.shown x).1 (t.shown y).1 ∧
      (t.shown y).2.1 = String.join (old.reverse.map ConsoleEvent.text) ++ (s.shown x).2.1 := by
  cases h with
  | value hvalue hconsole =>
    refine ⟨.value hvalue, ?_⟩
    rw [shown, shown, hconsole, Console.output_after]
  | halt hhalt hconsole =>
    refine ⟨?_, ?_⟩
    · cases hhalt with
      | failure hfailure => exact .failure hfailure.fault
      | outOfSteps => exact .outOfSteps
    · rw [shown, shown, hconsole, Console.output_after]

/-- A source that comes to a value has been run. -/
theorem exists_of_evaluated (hparse : parse source = .ok program)
    (h : s.step (.evaluate source) = (.ok (.value v), output, next)) :
    ∃ root m, s.root = some root ∧
      Eval.program ampleSteps program root s.quiet.working = .ok v m ∧ output = m.console.output ∧
      next = { s with machine := { m with owners := s.machine.owners } } := by
  rcases Option.eq_none_or_eq_some s.root with hroot | ⟨root, hroot⟩
  · have hroot' : s.quiet.root = none := hroot
    simp [step, perform, bind, EStateM.bind, rootScope_apply, hroot'] at h
  · rw [step_evaluate hroot hparse] at h
    refine ⟨root, ?_⟩
    cases hrun : Eval.program ampleSteps program root s.quiet.working with
    | ok a m =>
      rw [hrun] at h
      cases h
      exact ⟨m, hroot, rfl, rfl, rfl⟩
    | error halt m =>
      rw [hrun] at h
      cases h

/-- A session between two steps is indistinguishable from itself, also while a step uses it. -/
theorem Orderly.at_working (h : s.Orderly) :
    At s.owners [] s.quiet.working s.quiet.working := by
  have howners : s.quiet.working.owners = s.owners := by
    change s.owners ++ s.machine.owners = s.owners
    rw [h.owners, List.append_nil]
  exact ⟨howners, howners, rfl, rfl, rfl, .refl h.heap h.reclaims⟩

/-- **A program may be given to a session in pieces.** -/
theorem evaluate_joined (console : Console) (limit : Nat) (row : List Step)
    (hlegal : (start console limit).Legal row) (hs : (start console limit).after row = s)
    {program₁ program₂ : Program} (h₁ : parse source₁ = .ok program₁)
    (h₂ : parse source₂ = .ok program₂) :
    parse (source₁ ++ "\n;\n" ++ source₂) =
        .ok (program₁ ++ program₂.moved ⟨source₁.utf8ByteSize + 3, source₁.toList.count '\n' + 2, 0⟩) ∧
      (program₂ ≠ [] →
        ∀ v₁ output₁ next, s.step (.evaluate source₁) = (.ok (.value v₁), output₁, next) →
          SameLook (next.step (.evaluate source₂)).1
            (s.step (.evaluate (source₁ ++ "\n;\n" ++ source₂))).1 ∧
          (s.step (.evaluate (source₁ ++ "\n;\n" ++ source₂))).2.1 =
            output₁ ++ (next.step (.evaluate source₂)).2.1) := by
  refine ⟨parse_joined h₁ h₂, ?_⟩
  intro hne v₁ output₁ next h
  have horderly : s.Orderly := hs ▸ (orderly_start console limit).after row hlegal
  obtain ⟨root, m, hroot, hrun, rfl, rfl⟩ := exists_of_evaluated h₁ h
  obtain ⟨program, hlike, hparse⟩ :=
    exists_like_of_joined h₁ h₂ Likeness.carries_any fun _ => trivial
  -- The machine at the end of the first source is the one that the second source starts on.
  have hscope : .scope root ∈ s.owners := by simp [owners_of_root hroot]
  obtain ⟨howners, hsound⟩ : m.owners = s.owners ∧ m.SoundWith [v₁] := by
    rcases Steady.program ampleSteps program₁ hscope _ _ horderly.at_working with
      ⟨a, r, r', hr, -, hat⟩ | ⟨halt, r, r', hr, -, hat⟩
    · cases hrun.symm.trans hr
      refine ⟨hat.left, ?_⟩
      rw [Machine.SoundWith, hat.left]
      exact hat.heaps.left.sound
    · cases hrun.symm.trans hr
  have hworking : (Session.mk { m with owners := s.machine.owners } s.root s.held
      s.watched).quiet.working = { m with console := m.console.forget } := by
    change ({ m with owners := s.owners ++ s.machine.owners, console := m.console.forget } : Machine) = _
    rw [horderly.owners, List.append_nil, ← howners]
  rw [step_evaluate hroot hparse, Eval.program_append hrun]
  rw [step_evaluate (s := ⟨{ m with owners := s.machine.owners }, s.root, s.held, s.watched⟩) hroot h₂]
  rw [hworking]
  exact shown_of_looksAlike
    (Eval.sequence_looksAlike ampleSteps (howners ▸ hscope) hsound hlike hne) _ _

/-- Whether a source comes to a value in a session. -/
def comesToValue (s : Session) (source : String) : Bool :=
  match (s.step (.evaluate source)).1 with
  | .ok (.value _) => true
  | _ => false

theorem exists_of_comesToValue (h : s.comesToValue source = true) :
    ∃ v output next, s.step (.evaluate source) = (.ok (.value v), output, next) := by
  unfold comesToValue at h
  split at h
  · rename_i v hv
    exact ⟨v, _, _, Prod.ext hv rfl⟩
  · cases h

/-- A piece that ends in a comment, and one that writes something before it fails. -/
theorem evaluate_joined_behind_comment :
    let s := (start (Console.ofLines []) defaultDepthLimit).after [.evaluate "declare n = 1"]
    let first := "con.out.print(n) n = n + 1 // next"
    let second := "con.out.print(n)\nn / 0"
    let joined := s.step (.evaluate (first ++ "\n;\n" ++ second))
    let before := s.step (.evaluate first)
    let apart := before.2.2.step (.evaluate second)
    s.comesToValue first = true ∧ before.2.2.comesToValue second = false ∧
      SameLook apart.1 joined.1 ∧ joined.2.1 = before.2.1 ++ apart.2.1 := by
  intro s first second joined before apart
  have hlegal : (start (Console.ofLines []) defaultDepthLimit).Legal [.evaluate "declare n = 1"] :=
    legal_of_plain _ (by simp [Step.args])
  have hs : (start (Console.ofLines []) defaultDepthLimit).after [.evaluate "declare n = 1"] = s := rfl
  have hparses : (parse first).isOk = true ∧ (parse second).isOk = true := by decide +kernel
  have hlength : ((parse second).toOption.getD []).length = 2 := by decide +kernel
  have hfirst : s.comesToValue first = true := by decide +kernel
  have hsecond : before.2.2.comesToValue second = false := by decide +kernel
  clear_value s first second
  obtain ⟨program₁, h₁⟩ := exists_of_isOk hparses.1
  obtain ⟨program₂, h₂⟩ := exists_of_isOk hparses.2
  have hne : program₂ ≠ [] := by
    rintro rfl
    simp [h₂, Except.toOption] at hlength
  obtain ⟨v₁, output₁, next, hstep⟩ := exists_of_comesToValue hfirst
  have hjoined := (evaluate_joined _ _ _ hlegal hs h₁ h₂).2 hne v₁ output₁ next hstep
  have hbefore : before = (.ok (.value v₁), output₁, next) := hstep
  refine ⟨hfirst, hsecond, ?_⟩
  simp only [apart, joined, hbefore]
  exact hjoined

end Session

end Scriptlet
