import Scriptlet.Proofs.Evaluation.Kept
import Scriptlet.Proofs.Evaluation.Point

/-!
# The depth of calls

The machine counts the bodies of declared functions that are being executed. Whatever begins at a point
of a run, and whether it ends well or not, the count is then as it was (`Point.level_last`): everything
keeps to the setting in which everything is allowed, at any depth. In between it goes up by one where a
body is entered, and nowhere else (`ComesTo.level`).

So the count is the number of bodies that a run has entered on its way to a point and not left again
(`ReachesIn.level`); what has ended is not on the way. It does not go beyond the limit, since a body is
entered only below it (`ReachesIn.depth_le`).
-/

namespace Scriptlet

variable {α : Type} {m m' : Machine} {limit : Nat}

/-! ## Keeping the depth -/

/-- The state that a computation ends with, well or not. -/
def lastState {ε σ : Type} : EStateM.Result ε σ α → σ
  | .ok _ last => last
  | .error _ last => last

theorem lastState_map {β : Type} {x : Eval α} {g : α → β} :
    lastState ((g <$> x) m) = lastState (x m) := by
  rw [map_eq_pure_bind]
  cases hx : x m with
  | ok a m' => rw [Eval.bind_of_ok hx]; rfl
  | error halt m' => rw [Eval.bind_of_error hx]; rfl

/-- The depth of calls and its limit. -/
def Machine.level (m : Machine) : Nat × Nat := (m.depth, m.limit)

theorem level_holding {x : Eval α} {owners : List Owner} :
    (lastState (Eval.holding owners x m)).level = (lastState (x (m.holding owners))).level := by
  cases hx : x (m.holding owners) with
  | ok a m' => rw [Eval.holding_ok hx]; rfl
  | error halt m' => rw [Eval.holding_error hx]; rfl

/-- The setting in which everything is allowed. -/
def Setting.any (limit : Nat) : Setting := ⟨⟨fun _ => True, True⟩, fun _ => True, limit⟩

namespace Setting

theorem within_any (limit : Nat) (stmt : Stmt) : stmt.Within (Setting.any limit).toCode :=
  stmt.within_of_loopFree (fun _ => trivial) fun hno => absurd trivial hno

theorem admits_any (limit : Nat) (v : Value) : (Setting.any limit).Admits v :=
  fun _ _ => ⟨fun stmt _ => within_any limit stmt, trivial⟩

theorem holds_any (m : Machine) : (Setting.any m.limit).Holds m.depth m :=
  ⟨⟨fun _ _ => trivial, fun _ _ _ _ _ _ => trivial, fun _ _ _ _ v _ => admits_any m.limit v⟩, rfl, rfl⟩

section

variable {placed : Bool} {x : Eval α} {Q : α → Prop}

theorem Keeps.level_last (h : (Setting.any m.limit).Keeps m.depth placed x Q) :
    (lastState (x m)).level = m.level := by
  have hends := h m (holds_any m)
  cases hx : x m with
  | ok a m' =>
    rw [hx] at hends
    exact Prod.ext hends.2.depth hends.2.limit
  | error halt m' =>
    rw [hx] at hends
    exact Prod.ext hends.2.depth hends.2.limit

theorem Keeps.level_of_ok (h : (Setting.any m.limit).Keeps m.depth placed x Q) {a : α}
    (hx : x m = .ok a m') : m'.level = m.level := by
  have hlast := h.level_last
  rwa [hx] at hlast

end

end Setting

/-- Whatever is done keeps to that setting. -/
theorem Task.keeps_any (task : Task) (steps : Nat) (scope : ScopeId) (depth : Nat) :
    (Setting.any limit).Keeps depth false (task.run steps scope) fun _ => True := by
  have hadmits : ∀ v : Value, (Setting.any limit).Admits v := Setting.admits_any limit
  have heval : ∀ expr, Composed (.any limit) depth true
      (fun steps => Eval.evaluate steps expr scope) (Setting.any limit).Admits := fun expr =>
    .expression (.calls _ depth) trivial (expr.within_of_forall fun _ => trivial)
  have hexec : ∀ stmt, Composed (.any limit) depth true
      (fun steps => Eval.execute steps stmt scope) (Setting.any limit).Admits := fun stmt =>
    .statement (.calls _ depth) trivial (Setting.within_any limit stmt)
  have hblock : ∀ body, Composed (.any limit) depth true
      (fun steps => Eval.executeBlock steps body scope) (Setting.any limit).Admits := fun _ =>
    .block fun stmt _ => hexec stmt
  have hany : ∀ {β γ : Type} {x : Nat → Eval β} {Q : β → Prop} {placed : Bool} (g : β → γ),
      Composed (.any limit) depth placed x Q →
        (Setting.any limit).Keeps depth false (g <$> x steps) fun _ => True := fun g h =>
    (h.placeless.keeps steps).map fun _ _ => trivial
  cases task with
  | expression expr => exact hany _ (heval expr)
  | statement stmt => exact hany _ (hexec stmt)
  | block body => exact hany _ (hblock body)
  | arguments before args =>
    have hargs : Composed (.any limit) depth true
        (fun steps => Eval.arguments (Eval.evaluate steps · scope) before args)
        fun vs => ∀ v ∈ vs, (Setting.any limit).Admits v :=
      .arguments (fun v _ => hadmits v) fun arg _ => heval arg
    exact (hargs.placeless.keeps steps).weaken (fun _ _ => trivial) id
  | properties span before literal =>
    exact hany _ (Composed.properties (s := scope) trivial trivial (fun entry _ => hadmits entry.2)
      fun key expr _ => heval expr)
  | declarators constant declared =>
    have hdeclared : Composed (.any limit) depth true
        (fun steps => Eval.declarators (Eval.evaluate steps · scope) scope constant declared)
        fun _ => True :=
      .declarators constant
        (fun _ _ => ⟨trivial, fun expr _ => expr.within_of_forall fun _ => trivial⟩)
        fun expr _ => heval expr
    exact hany _ hdeclared
  | sequence last stmts =>
    exact hany _ (Composed.sequence (hadmits last) fun stmt _ => hexec stmt)
  | loop condition body rounds =>
    have htest : (Setting.any limit).Keeps depth false
        (Value.isTruthy <$> Eval.evaluate steps condition scope) fun _ => True :=
      hany _ (heval condition)
    have hround : (Setting.any limit).Keeps depth false
        (discard (Eval.executeBlock steps body scope)) fun _ => True := hany _ (hblock body)
    exact (htest.repeatWhile hround rounds).map fun _ _ => trivial
  | call callee args =>
    exact hany _ (Composed.call (.calls _ depth) (hadmits callee) fun arg _ => hadmits arg)
  | params pairs =>
    exact hany _ (Composed.bindParams scope fun pair _ => hadmits pair.2)

/-- The machine when what begins at a point has ended. -/
def Point.last (p : Point) : Machine := lastState p.ending

/-- **What begins at a point leaves the depth as it was, whether it ends well or not.** -/
theorem Point.level_last (p : Point) : p.last.level = p.machine.level :=
  (p.task.keeps_any p.steps p.scope p.machine.depth).level_last

theorem Task.level_of_ok (task : Task) {steps : Nat} {scope : ScopeId} {vs : List Value}
    (h : task.run steps scope m = .ok vs m') : m'.level = m.level :=
  (task.keeps_any steps scope m.depth).level_of_ok h

theorem Eval.level_of_enter {f : Function} {args : List Value} {scope : ScopeId}
    (h : Eval.enter f args m = .ok scope m') : m'.level = m.level := by
  have henter : Composed (.any m.limit) m.depth false (fun _ => Eval.enter f args) fun _ => True :=
    .enter trivial fun arg _ => Setting.admits_any m.limit arg
  exact (henter.keeps 0).level_of_ok h

/-! ## Bodies on the way -/

/-- How many bodies of declared functions a run enters from one point to the next. -/
def Point.bodies (p q : Point) : Nat :=
  match p.task, q.task with
  | .call .., .block _ => 1
  | _, _ => 0

/-- **From one point to the next the depth goes up by the bodies that are entered.** -/
theorem ComesTo.level {p q : Point} (h : ComesTo p q) :
    q.machine.level = (p.machine.depth + p.bodies q, p.machine.limit) := by
  -- What was evaluated on the way has left the depth as it was.
  have heval : ∀ {steps scope m v m'} (e : Expr), Eval.evaluate steps e scope m = .ok v m' →
      m'.level = m.level := fun e hv => Task.level_of_ok (.expression e) (Eval.map_of_ok hv)
  have hbody : ∀ {steps scope m v m'} (b : Block Stmt), Eval.executeBlock steps b scope m = .ok v m' →
      m'.level = m.level := fun b hv => Task.level_of_ok (.block b) (Eval.map_of_ok hv)
  cases h with
  | operand | object | declaration | condition | loop | block | expression | body | argument
  | property | init | statement | test => rfl
  | second _ hfirst =>
    have hlevel := heval _ hfirst
    exact hlevel
  | arguments hcallee =>
    have hlevel := heval _ hcallee
    exact hlevel
  | call hcallee hargs =>
    have hlevel := heval _ hcallee
    exact (Task.level_of_ok (.arguments [] _) hargs).trans hlevel
  | consequent hcondition _ => exact heval _ hcondition
  | alternate hcondition _ => exact heval _ hcondition
  | more_arguments hfirst => exact Task.level_of_ok (.arguments _ [_]) hfirst
  | more_properties hfirst => exact Task.level_of_ok (.properties _ _ [_]) (Eval.map_of_ok hfirst)
  | more_declarators hfirst => exact Task.level_of_ok (.declarators _ [_]) (Eval.map_of_ok hfirst)
  | more_statements hfirst => exact Task.level_of_ok (.sequence _ [_]) (Eval.map_of_ok hfirst)
  | round hcondition _ => exact heval _ hcondition
  | more_rounds hcondition _ hround => exact (hbody _ hround).trans (heval _ hcondition)
  | params _ _ hopen =>
    cases hopen
    rfl
  | more_params hfirst => exact @Task.level_of_ok _ _ (.params [_]) 0 _ _ (Eval.map_of_ok hfirst)
  | enter _ _ henter =>
    obtain ⟨hdepth, hlimit⟩ := Prod.mk.inj (Eval.level_of_enter henter)
    exact Prod.ext (congrArg (· + 1) hdepth) hlimit

/-- A body is entered only below the limit. -/
theorem ComesTo.depth_le {p q : Point} (h : ComesTo p q) (hp : p.machine.depth ≤ p.machine.limit) :
    q.machine.depth ≤ q.machine.limit := by
  obtain ⟨hdepth, hlimit⟩ := Prod.mk.inj h.level
  rw [hdepth, hlimit]
  cases h with
  | enter _ hroom _ => exact hroom
  | _ => exact hp

/-- The points that a run comes to, with the number of bodies that it has entered on the way. What was
entered and has ended is not on the way. -/
inductive ReachesIn (first : Point) : Nat → Point → Prop where
  | here : ReachesIn first 0 first
  | next {n : Nat} {p q : Point} (h : ReachesIn first n p) (hnext : ComesTo p q) :
    ReachesIn first (n + p.bodies q) q

theorem ReachesIn.head {first second p : Point} {n : Nat} (hnext : ComesTo first second)
    (h : ReachesIn second n p) : ReachesIn first (first.bodies second + n) p := by
  induction h with
  | here => exact Nat.zero_add (first.bodies second) ▸ ReachesIn.here.next hnext
  | next _ hlast ih => exact Nat.add_assoc _ _ _ ▸ ih.next hlast

theorem reaches_iff_reachesIn {first p : Point} : Reaches first p ↔ ∃ n, ReachesIn first n p := by
  constructor
  · intro hreaches
    induction hreaches with
    | here => exact ⟨0, .here⟩
    | next _ hnext ih =>
      obtain ⟨n, hn⟩ := ih
      exact ⟨_, hn.next hnext⟩
  · intro hexists
    obtain ⟨n, hn⟩ := hexists
    induction hn with
    | here => exact .here
    | next _ hnext ih => exact ih.next hnext

namespace ReachesIn

variable {first p : Point} {n : Nat}

/-- **The depth is the number of bodies that are being executed.** -/
theorem level (h : ReachesIn first n p) :
    p.machine.level = (first.machine.depth + n, first.machine.limit) := by
  induction h with
  | here => rfl
  | next _ hnext ih =>
    obtain ⟨hdepth, hlimit⟩ := Prod.mk.inj ih
    rw [hnext.level, hdepth, hlimit, Nat.add_assoc]

/-- **The depth does not exceed the limit.** -/
theorem depth_le (h : ReachesIn first n p) (hfirst : first.machine.depth ≤ first.machine.limit) :
    p.machine.depth ≤ p.machine.limit := by
  induction h with
  | here => exact hfirst
  | next _ hnext ih => exact hnext.depth_le ih

end ReachesIn

end Scriptlet
