import Scriptlet.Proofs.Console
import Scriptlet.Proofs.Evaluation.Kept

/-!
# Programs at a console that refuses a call

Compare a computation with the same one at a console that refuses a call. The two go along, machine by
machine, until the refused call is made. Then one of them fails, and nothing catches a failure; the
other one goes on, but the log only grows. A computation for which this holds is `Traced`, and whatever
code does is traced (`Composed.traced`): the cases follow the ways in which computations are composed.
-/

namespace Scriptlet

variable {α β : Type} {r : RefusedCalls} {m m' : Machine} {σ : Setting} {depth : Nat} {placed : Bool}
  {Q : α → Prop} {x : Eval α} {f : α → Eval β}

/-- The machine with calls to refuse. -/
def Machine.refusing (m : Machine) (r : RefusedCalls) : Machine :=
  { m with console := m.console.refusing r }

/-- A change of the machine that has nothing to do with the console. -/
structure Offstage (r : RefusedCalls) (change : Machine → Machine) : Prop where
  console : ∀ m, (change m).console = m.console
  refusing : ∀ m, change (m.refusing r) = (change m).refusing r

theorem Offstage.id : Offstage r id := ⟨fun _ => rfl, fun _ => rfl⟩

namespace Eval

/-- The console at an ending. -/
def lastConsole : EStateM.Result Halt Machine α → Console
  | .ok _ m => m.console
  | .error _ m => m.console

/-- The same ending at a console with calls to refuse. -/
def refusing (r : RefusedCalls) : EStateM.Result Halt Machine α → EStateM.Result Halt Machine α
  | .ok a m => .ok a (m.refusing r)
  | .error halt m => .error halt (m.refusing r)

/-- An ending that is passed on, with changes to the failure and to the machine. -/
def passOn (relocate : Failure → Failure) (onValue : α → Machine → Machine)
    (onHalt : Machine → Machine) : EStateM.Result Halt Machine α → EStateM.Result Halt Machine α
  | .ok a m => .ok a (onValue a m)
  | .error (.failure failure) m => .error (.failure (relocate failure)) (onHalt m)
  | .error .outOfSteps m => .error .outOfSteps (onHalt m)

section

variable {relocate : Failure → Failure} {onValue : α → Machine → Machine} {onHalt : Machine → Machine}
  (hvalue : ∀ a, Offstage r (onValue a)) (hhalt : Offstage r onHalt)
  (ending : EStateM.Result Halt Machine α)

include hvalue hhalt

theorem lastConsole_passOn :
    lastConsole (passOn relocate onValue onHalt ending) = lastConsole ending := by
  rcases ending with ⟨a, m⟩ | ⟨failure | _, m⟩
  · exact (hvalue a).console m
  · exact hhalt.console m
  · exact hhalt.console m

theorem passOn_refusing :
    passOn relocate onValue onHalt (refusing r ending) =
      refusing r (passOn relocate onValue onHalt ending) := by
  rcases ending with ⟨a, m⟩ | ⟨failure | _, m⟩
  · exact congrArg _ ((hvalue a).refusing m)
  · exact congrArg _ (hhalt.refusing m)
  · exact congrArg _ (hhalt.refusing m)

end

/-- The run at the refusing console ends as the other one and no refused call was made, or it failed
at such a call. -/
def Follows (r : RefusedCalls) (x : Eval α) (m : Machine) : Prop :=
  (x (m.refusing r) = refusing r (x m) ∧ (lastConsole (x m)).Untouched r) ∨
    ∃ failure stopped, x (m.refusing r) = .error (.failure failure) stopped ∧
      (lastConsole (x m)).CutFrom r failure.fault stopped.console

/-- The log grows, and the run at the refusing console follows. -/
structure Traced (σ : Setting) (depth : Nat) (r : RefusedCalls) (x : Eval α) : Prop where
  grows : ∀ m, σ.Holds depth m → ∃ more, (lastConsole (x m)).log = more ++ m.console.log
  follows : ∀ m, σ.Holds depth m → m.console.Untouched r → Follows r x m

namespace Traced

/-! ### Steps -/

theorem outOfSteps : Traced σ depth r (throw .outOfSteps : Eval α) :=
  ⟨fun _ _ => ⟨[], rfl⟩, fun _ _ huntouched => .inl ⟨rfl, huntouched⟩⟩

theorem pure (a : α) : Traced σ depth r (Pure.pure a) :=
  ⟨fun _ _ => ⟨[], rfl⟩, fun _ _ huntouched => .inl ⟨rfl, huntouched⟩⟩

theorem onStore (g : Store → Nat → Nat → Except Fault (α × Store)) :
    Traced σ depth r (Eval.onStore g) := by
  refine ⟨fun m _ => ⟨[], ?_⟩, fun m _ huntouched => .inl ?_⟩
  · unfold Eval.onStore
    cases g m.heap.store m.depth m.limit <;> rfl
  · unfold Eval.onStore Machine.refusing
    dsimp only
    cases g m.heap.store m.depth m.limit with
    | ok found => exact ⟨rfl, huntouched⟩
    | error fault => exact ⟨rfl, huntouched⟩

theorem write (text : String) : Traced σ depth r (Eval.write text) := by
  refine ⟨fun m _ => ?_, fun m _ huntouched => ?_⟩
  · have hgrows := m.console.write_grows text
    rw [write_apply]
    cases (m.console.write text).1 <;> exact hgrows
  · obtain ⟨hok, hrefusing⟩ := huntouched.write text
    have hplain : Eval.write text m = .ok () { m with console := (m.console.write text).2 } := by
      rw [write_apply, hok]
    have hsplit : (m.refusing r).console.write text = (m.console.refusing r).write text := rfl
    unfold Follows
    rw [hplain, write_apply, hsplit]
    rcases hrefusing with ⟨hsame, hlast⟩ | ⟨stopped, hcut, hfrom⟩
    · rw [hsame]
      exact .inl ⟨rfl, hlast⟩
    · rw [hcut]
      exact .inr ⟨_, _, rfl, hfrom⟩

theorem read : Traced σ depth r Eval.read := by
  refine ⟨fun m _ => ?_, fun m _ huntouched => ?_⟩
  · have hgrows := m.console.read_grows
    rw [read_apply]
    rcases m.console.read.1 with reason | (_ | line) <;> exact hgrows
  · obtain ⟨hok, hrefusing⟩ := huntouched.read
    have hsplit : (m.refusing r).console.read = (m.console.refusing r).read := rfl
    unfold Follows
    rw [read_apply, read_apply, hsplit, hok]
    rcases hrefusing with ⟨hsame, hlast⟩ | ⟨stopped, hcut, hfrom⟩
    · rw [hsame]
      cases m.console.input.head? <;> exact .inl ⟨rfl, hlast⟩
    · rw [hcut]
      cases m.console.input.head? <;> exact .inr ⟨_, _, rfl, hfrom⟩

/-! ### Ways to put them together -/

/-- A computation that runs another one on a prepared machine and passes its ending on, where neither
has to do with the console. -/
theorem wrap {y : Eval α} {depth' : Nat} (enter : Machine → Machine) (relocate : Failure → Failure)
    (onValue : List Owner → α → Machine → Machine) (onHalt : List Owner → Machine → Machine)
    (hy : ∀ m, y m = passOn relocate (onValue m.owners) (onHalt m.owners) (x (enter m)))
    (hholds : ∀ m, σ.Holds depth m → σ.Holds depth' (enter m)) (henter : Offstage r enter)
    (hvalue : ∀ owners a, Offstage r (onValue owners a)) (hhalt : ∀ owners, Offstage r (onHalt owners))
    (hfault : ∀ failure, (relocate failure).fault = failure.fault) (h : Traced σ depth' r x) :
    Traced σ depth r y := by
  refine ⟨fun m hm => ?_, fun m hm huntouched => ?_⟩
  · rw [hy, lastConsole_passOn (hvalue m.owners) (hhalt m.owners), ← henter.console m]
    exact h.grows (enter m) (hholds m hm)
  · unfold Follows
    rw [hy, hy, henter.refusing m, lastConsole_passOn (hvalue m.owners) (hhalt m.owners)]
    rcases h.follows (enter m) (hholds m hm) (henter.console m ▸ huntouched) with
      ⟨hsame, hlast⟩ | ⟨failure, stopped, hcut, hfrom⟩
    · rw [hsame]
      exact .inl ⟨passOn_refusing (hvalue m.owners) (hhalt m.owners) _, hlast⟩
    · rw [hcut]
      refine .inr ⟨relocate failure, onHalt m.owners stopped, rfl, ?_⟩
      rw [hfault, (hhalt m.owners).console]
      exact hfrom

theorem located (span : Span) (h : Traced σ depth r x) : Traced σ depth r (Eval.located span x) := by
  refine wrap id (·.orAt span) (fun _ _ => id) (fun _ => id) (fun m => ?_) (fun _ => id) .id
    (fun _ _ => .id) (fun _ => .id) (fun _ => rfl) h
  rcases hx : x (id m) with ⟨a, after⟩ | ⟨failure | _, after⟩
  · exact located_ok hx
  · exact located_failure hx
  · exact located_outOfSteps hx

theorem holding (owners : List Owner) (h : Traced σ depth r x) :
    Traced σ depth r (Eval.holding owners x) := by
  refine wrap (fun m => { m with owners := owners ++ m.owners }) id
    (fun before _ after => { after with owners := before })
    (fun before after => { after with owners := before }) (fun m => ?_)
    (fun m hm => ⟨hm.store, hm.depth, hm.limit⟩) ⟨fun _ => rfl, fun _ => rfl⟩
    (fun _ _ => ⟨fun _ => rfl, fun _ => rfl⟩) (fun _ => ⟨fun _ => rfl, fun _ => rfl⟩) (fun _ => rfl) h
  rcases hx : x { m with owners := owners ++ m.owners } with ⟨a, after⟩ | ⟨failure | _, after⟩
  · exact holding_ok hx
  · exact holding_error hx
  · exact holding_error hx

theorem orDrop (scope : ScopeId) (h : Traced σ depth r x) :
    Traced σ depth r (Eval.orDrop scope x) := by
  refine wrap id id (fun _ _ => id)
    (fun _ after => after.withStore (after.heap.store.erase scope)) (fun m => ?_) (fun _ => id) .id
    (fun _ _ => .id) (fun _ => ⟨fun _ => rfl, fun _ => rfl⟩) (fun _ => rfl) h
  rcases hx : x (id m) with ⟨a, after⟩ | ⟨failure | _, after⟩
  · exact orDrop_ok hx
  · exact orDrop_error hx
  · exact orDrop_error hx

theorem inBody (scope : ScopeId) {body : Eval Value} (h : Traced σ (depth + 1) r body) :
    Traced σ depth r (Eval.inBody scope body) := by
  refine wrap (entered · scope) id
    (fun before v after => { after with owners := before }.leave scope [v])
    (fun before after => { after with owners := before }.leave scope []) (fun m => ?_)
    (fun _ hm => hm.entered scope) ⟨fun _ => rfl, fun _ => rfl⟩
    (fun _ _ => ⟨fun _ => rfl, fun _ => rfl⟩) (fun _ => ⟨fun _ => rfl, fun _ => rfl⟩) (fun _ => rfl) h
  rcases hbody : body (entered m scope) with ⟨v, after⟩ | ⟨failure | _, after⟩
  · exact inBody_ok hbody
  · exact inBody_error hbody
  · exact inBody_error hbody

/-- The second computation adds to the log that the first one leaves, so a cut in the first one stays
a cut. -/
theorem bind (hkeeps : σ.Keeps depth placed x Q) (hx : Traced σ depth r x)
    (hf : ∀ a, Q a → Traced σ depth r (f a)) : Traced σ depth r (x >>= f) := by
  refine ⟨fun m hm => ?_, fun m hm huntouched => ?_⟩
  · have hgrows := hx.grows m hm
    have hends := hkeeps m hm
    rcases h : x m with ⟨a, m'⟩ | ⟨halt, m'⟩ <;> rw [h] at hgrows hends
    · rw [bind_of_ok h]
      obtain ⟨more, hmore⟩ := hgrows
      obtain ⟨later, hlater⟩ := (hf a hends.1).grows m' hends.2
      exact ⟨later ++ more, by rw [hlater, List.append_assoc]; exact congrArg _ hmore⟩
    · rw [bind_of_error h]
      exact hgrows
  · have hends := hkeeps m hm
    rcases hx.follows m hm huntouched with ⟨hsame, hlast⟩ | ⟨failure, stopped, hcut, hfrom⟩
    · rcases h : x m with ⟨a, m'⟩ | ⟨halt, m'⟩ <;> rw [h] at hends hsame hlast
      · unfold Follows
        rw [bind_of_ok h, bind_of_ok hsame]
        exact (hf a hends.1).follows m' hends.2 hlast
      · refine .inl ?_
        rw [bind_of_error h, bind_of_error hsame]
        exact ⟨rfl, hlast⟩
    · refine .inr ⟨failure, stopped, bind_of_error hcut, ?_⟩
      rcases h : x m with ⟨a, m'⟩ | ⟨halt, m'⟩ <;> rw [h] at hends hfrom
      · rw [bind_of_ok h]
        exact hfrom.grow ((hf a hends.1).grows m' hends.2)
      · rw [bind_of_error h]
        exact hfrom

theorem repeatWhile {condition : Eval Bool} {body : Eval Unit}
    (hkeeps : σ.Keeps depth placed condition fun _ => True)
    (hkeeps' : σ.Keeps depth placed body fun _ => True) (hcondition : Traced σ depth r condition)
    (hbody : Traced σ depth r body) (rounds : Nat) :
    Traced σ depth r (Eval.repeatWhile condition body rounds) := by
  induction rounds with
  | zero => exact outOfSteps
  | succ rounds ih =>
    refine bind hkeeps hcondition fun holds _ => ?_
    split
    · exact bind hkeeps' hbody fun _ _ => ih
    · exact pure ()

end Traced

end Eval

open Eval (Traced)

/-- **Whatever code does, it is traced.** -/
theorem Composed.traced {x : Nat → Eval α} (h : Composed σ depth placed x Q) (r : RefusedCalls)
    (steps : Nat) : Traced σ depth r (x steps) := by
  induction h generalizing steps with
  | onStore => exact .onStore _
  | write text => exact .write text
  | read => exact .read
  | bind hx _ ihx ihf => exact .bind (hx.keeps steps) (ihx steps) fun a ha => ihf a ha steps
  | located _ _ ih => exact (ih steps).located _
  | holding owners _ ih => exact (ih steps).holding owners
  | orDrop scope _ ih => exact (ih steps).orDrop scope
  | inBody scope _ ih => exact (ih steps).inBody scope
  | loop _ hcondition hbody ihcondition ihbody =>
    exact .repeatWhile (hcondition.keeps steps) (hbody.keeps steps) (ihcondition steps)
      (ihbody steps) steps
  | step hzero _ ih =>
    cases steps with
    | zero =>
      rw [hzero]
      exact .outOfSteps
    | succ steps => exact ih steps
  | weaken _ _ _ ih => exact ih steps

end Scriptlet
