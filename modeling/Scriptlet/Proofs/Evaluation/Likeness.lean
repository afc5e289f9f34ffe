import Scriptlet.Proofs.Evaluation.Mirror
import Scriptlet.Run

/-!
# Like programs run alike

Evaluating and executing like code on like machines has like results (`Likeness.program`). The induction
is on the steps, for expressions, statements and blocks together; for each list of parts of the syntax
there is a lemma of its own, by induction on the list.
-/

namespace Scriptlet

open List (Forall₂)
open Eval (evaluate execute executeBlock)

variable {ℓ : Likeness} {old : List ConsoleEvent}

theorem Machine.like_start (console : Console) (limit : Nat) :
    Machine.Like ℓ [] (.start console limit) (.start console limit) :=
  ⟨Heap.like_empty, .nil, console.after_nil.symm, rfl, rfl⟩

theorem Machine.Like.releaseRoot {m m' : Machine} (h : m.Like ℓ old m') (root : ScopeId)
    {held held' : List Value} (hheld : Forall₂ (Value.Like ℓ) held held') :
    Machine.Like ℓ old (m.releaseRoot root held) (m'.releaseRoot root held') := by
  have hvalues : Forall₂ (Owner.Like ℓ) (held.map .value) (held'.map .value) :=
    List.rel_map (fun _ _ hv => .value hv) hheld
  have howners := List.rel_append hvalues h.owners
  exact { h with heap := (h.heap.release howners [] root).collect howners [] }

namespace Likeness

theorem displays {args args' : List Value} (h : Forall₂ (Value.Like ℓ) args args') :
    args'.map Value.display = args.map Value.display := by
  induction h with
  | nil => rfl
  | cons hv _ ih => rw [List.map_cons, List.map_cons, hv.display, ih]

namespace Mirrors

/-! ## Calls -/

section Calls

variable {run run' : Block Stmt → ScopeId → Eval Value} {f f' : Function} {args args' : List Value}

theorem callNative (hargs : Forall₂ (Value.Like ℓ) args args') (g : Native) :
    ℓ.Mirrors old (Eval.callNative args g) (Eval.callNative args' g) (Value.Like ℓ) := by
  have hjoined : Eval.joined args' = Eval.joined args := by rw [Eval.joined, displays hargs, Eval.joined]
  cases g with
  | print =>
    rw [Eval.callNative, Eval.callNative, hjoined]
    exact (write _).bind fun _ _ _ => pure .null
  | println =>
    rw [Eval.callNative, Eval.callNative, hjoined]
    exact (write _).bind fun _ _ _ => pure .null
  | input =>
    cases hargs with
    | nil => exact read
    | cons hprompt =>
      change ℓ.Mirrors old (Eval.write _ >>= fun _ => Eval.read) (Eval.write _ >>= fun _ => Eval.read) _
      rw [hprompt.display]
      exact (write _).bind fun _ _ _ => read

theorem bindParams (scope : ScopeId) {pairs pairs' : List (String × Value)}
    (h : Forall₂ (Record.Like (Value.Like ℓ)) pairs pairs') :
    ℓ.Mirrors old (Eval.bindParams scope pairs) (Eval.bindParams scope pairs') fun _ _ => True := by
  induction h with
  | nil => exact pure trivial
  | cons hpair _ ih =>
    obtain ⟨hv⟩ := hpair
    exact (declare scope _ hv false).bind fun _ _ _ => ih

theorem zip (params : List String) (hargs : Forall₂ (Value.Like ℓ) args args') :
    Forall₂ (Record.Like (Value.Like ℓ)) (params.zip args) (params.zip args') := by
  induction hargs generalizing params with
  | nil => rw [List.zip_nil_right]; exact .nil
  | cons hv _ ih =>
    cases params with
    | nil => exact .nil
    | cons name rest => exact .cons (.entry hv) (ih rest)

theorem enter (hf : f.Like ℓ f') (hargs : Forall₂ (Value.Like ℓ) args args') :
    ℓ.Mirrors old (Eval.enter f args) (Eval.enter f' args') (· = ·) := by
  rw [Eval.enter, Eval.enter, hf.closure, hf.params]
  refine (openScope _).bind fun scope _ hscope => ?_
  obtain rfl := hscope
  exact (orDrop scope (bindParams scope (zip f.params hargs))).bind fun _ _ _ => pure rfl

theorem checkDepth : ℓ.Mirrors old Eval.checkDepth Eval.checkDepth fun _ _ => True := by
  intro m m' hm
  unfold Eval.checkDepth Eval.onStore
  dsimp only
  rw [hm.depth, hm.limit]
  by_cases hdeep : m.limit ≤ m.depth
  · rw [if_pos hdeep, if_pos hdeep]
    exact .inr ⟨_, m, _, m', rfl, rfl, .failure ⟨rfl, rfl, .none⟩, hm⟩
  · rw [if_neg hdeep, if_neg hdeep]
    exact .inl ⟨(), _, (), _, rfl, rfl, trivial, hm⟩

theorem callFunction
    (hrun : ∀ scope block block', Block.Like (Stmt.Like ℓ) ℓ.span block block' →
      ℓ.Mirrors old (run block scope) (run' block' scope) (Value.Like ℓ))
    (hf : f.Like ℓ f') (hargs : Forall₂ (Value.Like ℓ) args args') :
    ℓ.Mirrors old (Eval.callFunction run f args) (Eval.callFunction run' f' args')
      (Value.Like ℓ) := by
  rw [Eval.callFunction_eq, Eval.callFunction_eq, hf.name, hf.params, ← hargs.length_eq]
  split
  · exact fail rfl
  · refine checkDepth.bind fun _ _ _ => (enter hf hargs).bind fun scope _ hscope => ?_
    obtain rfl := hscope
    exact inBody scope (hrun scope _ _ hf.body)

theorem call
    (hrun : ∀ scope block block', Block.Like (Stmt.Like ℓ) ℓ.span block block' →
      ℓ.Mirrors old (run block scope) (run' block' scope) (Value.Like ℓ))
    {callee callee' : Value} (hcallee : callee.Like ℓ callee')
    (hargs : Forall₂ (Value.Like ℓ) args args') :
    ℓ.Mirrors old (Eval.call run callee args) (Eval.call run' callee' args') (Value.Like ℓ) := by
  cases hcallee with
  | function hf => exact callFunction hrun hf hargs
  | native g => exact callNative hargs g
  | _ => exact fail rfl

end Calls

/-! ## Lists -/

section Lists

variable {eval eval' : Expr → Eval Value}
  (heval : ∀ e e', e.Like ℓ e' → ℓ.Mirrors old (eval e) (eval' e') (Value.Like ℓ))

include heval

theorem arguments {before before' : List Value} (hbefore : Forall₂ (Value.Like ℓ) before before')
    {args args' : List Expr} (hargs : Forall₂ (Expr.Like ℓ) args args') :
    ℓ.Mirrors old (Eval.arguments eval before args) (Eval.arguments eval' before' args')
      (Forall₂ (Value.Like ℓ)) := by
  induction hargs generalizing before before' with
  | nil => exact pure hbefore
  | cons harg _ ih =>
    have howners : Forall₂ (Owner.Like ℓ) (before.map .value) (before'.map .value) :=
      List.rel_map (fun _ _ hv => .value hv) hbefore
    refine (holding howners (heval _ _ harg)).bind fun v v' hv => ?_
    exact ih (List.rel_append hbefore (.cons hv .nil))

theorem properties (scope : ScopeId) {span span' : Span} (hspan : ℓ.span span span')
    {before before' : Record Value} (hbefore : Forall₂ (Record.Like (Value.Like ℓ)) before before')
    {literal literal' : List (String × Option Expr)}
    (h : Forall₂ (Record.Like (Option.Rel (Expr.Like ℓ))) literal literal') :
    ℓ.Mirrors old (Eval.properties eval scope span before literal)
      (Eval.properties eval' scope span' before' literal')
      (Forall₂ (Record.Like (Value.Like ℓ))) := by
  induction h generalizing before before' with
  | nil => exact pure hbefore
  | @cons entry entry' rest rest' hentry _ ih =>
    obtain ⟨hexpr⟩ := hentry
    cases hexpr with
    | none =>
      exact (located hspan (lookup scope _)).bind fun v v' hv => ih (Record.like_put hbefore _ hv)
    | some hexpr =>
      have howners : Forall₂ (Owner.Like ℓ) (before.map (.value ·.2)) (before'.map (.value ·.2)) := by
        refine List.rel_map (fun _ _ hentry => ?_) hbefore
        obtain ⟨hv⟩ := hentry
        exact .value hv
      refine (holding howners (heval _ _ hexpr)).bind fun v v' hv => ?_
      exact ih (Record.like_put hbefore _ hv)

theorem declarators (scope : ScopeId) (constant : Bool) {ds ds' : List Declarator}
    (h : Forall₂ (Declarator.Like ℓ) ds ds') :
    ℓ.Mirrors old (Eval.declarators eval scope constant ds)
      (Eval.declarators eval' scope constant ds') fun _ _ => True := by
  induction h with
  | nil => exact pure trivial
  | @cons d d' rest rest' hd _ ih =>
    have hdeclare : ∀ v v', v.Like ℓ v' → ℓ.Mirrors old
        (do Eval.located d.span (Eval.declare scope d.name v constant)
            Eval.declarators eval scope constant rest)
        (do Eval.located d'.span (Eval.declare scope d'.name v' constant)
            Eval.declarators eval' scope constant rest') fun _ _ => True := fun v v' hv => by
      rw [hd.name]
      exact (located hd.span (declare scope _ hv constant)).bind fun _ _ _ => ih
    have hinit := hd.init
    rw [Eval.declarators, Eval.declarators]
    revert hinit
    cases d.init <;> cases d'.init <;> rintro ⟨⟩
    · exact (pure .null).bind hdeclare
    · rename_i hexpr
      exact (heval _ _ hexpr).bind hdeclare

end Lists

theorem sequence {exec exec' : Stmt → Eval Value}
    (hexec : ∀ s s', s.Like ℓ s' → ℓ.Mirrors old (exec s) (exec' s') (Value.Like ℓ))
    {last last' : Value} (hlast : last.Like ℓ last') {stmts stmts' : List Stmt}
    (h : Forall₂ (Stmt.Like ℓ) stmts stmts') :
    ℓ.Mirrors old (Eval.sequence exec last stmts) (Eval.sequence exec' last' stmts')
      (Value.Like ℓ) := by
  induction h generalizing last last' with
  | nil => exact pure hlast
  | cons hstmt _ ih =>
    have howners : Forall₂ (Owner.Like ℓ) [.value last] [.value last'] := .cons (.value hlast) .nil
    exact (holding howners (hexec _ _ hstmt)).bind fun v v' hv => ih hv

/-! ## Expressions and statements -/

section Steps

variable {steps : Nat} (hℓ : ℓ.Computes)
  (heval : ∀ scope e e', e.Like ℓ e' →
    ℓ.Mirrors old (evaluate steps e scope) (evaluate steps e' scope) (Value.Like ℓ))
  (hexec : ∀ scope s s', s.Like ℓ s' →
    ℓ.Mirrors old (execute steps s scope) (execute steps s' scope) (Value.Like ℓ))
  (hblock : ∀ scope b b', Block.Like (Stmt.Like ℓ) ℓ.span b b' →
    ℓ.Mirrors old (executeBlock steps b scope) (executeBlock steps b' scope) (Value.Like ℓ))

include heval

/-- An operand that is evaluated while a value is held on to. -/
theorem operand (scope : ScopeId) {v v' : Value} (hv : v.Like ℓ v') {e e' : Expr} (he : e.Like ℓ e') :
    ℓ.Mirrors old (Eval.holding [.value v] (evaluate steps e scope))
      (Eval.holding [.value v'] (evaluate steps e' scope)) (Value.Like ℓ) :=
  holding (.cons (.value hv) .nil) (heval scope e e' he)

theorem computedMember (scope : ScopeId) {object object' property property' : Expr}
    (hobject : object.Like ℓ object') (hproperty : property.Like ℓ property') {span span' : Span}
    (hspan : ℓ.span span span') :
    ℓ.Mirrors old
      (do let object ← evaluate steps object scope
          let value ← Eval.holding [.value object] (evaluate steps property scope)
          let key ← Eval.located property.span (Eval.ofExcept value.memberKey)
          Eval.located span (Eval.ofExcept (object.member key)))
      (do let object ← evaluate steps object' scope
          let value ← Eval.holding [.value object] (evaluate steps property' scope)
          let key ← Eval.located property'.span (Eval.ofExcept value.memberKey)
          Eval.located span' (Eval.ofExcept (object.member key))) (Value.Like ℓ) := by
  refine (heval scope _ _ hobject).bind fun v v' hv => ?_
  refine (operand heval scope hv hproperty).bind fun w w' hw => ?_
  refine (located hproperty.span (ofExcept hw.memberKey)).bind fun key _ hkey => ?_
  obtain rfl := hkey
  exact located hspan (ofExcept (hv.member key))

include hℓ hblock

/-- One step of an evaluation. -/
theorem evaluate_succ (scope : ScopeId) {e e' : Expr} (he : e.Like ℓ e') :
    ℓ.Mirrors old (evaluate (steps + 1) e scope) (evaluate (steps + 1) e' scope)
      (Value.Like ℓ) := by
  cases he with
  | identifier hspan => exact located hspan (lookup scope _)
  | number hvalue hspan => exact pure (.number hvalue)
  | text hspan => exact pure (.text _)
  | null hspan => exact pure .null
  | object hproperties hspan =>
    refine (properties (heval scope) scope hspan .nil hproperties).bind fun fields fields' hfields => ?_
    refine freshId.bind fun id _ hid => ?_
    exact hid ▸ pure (.object hfields)
  | assignment htarget hvalue hspan =>
    cases htarget with
    | identifier =>
      refine (heval scope _ _ hvalue).bind fun v v' hv => ?_
      exact (located hspan (assign scope _ hv)).bind fun _ _ _ => pure hv
    | _ => exact located hspan (fail rfl)
  | binary hleft hright hspan =>
    refine (heval scope _ _ hleft).bind fun v v' hv => ?_
    refine (operand heval scope hv hright).bind fun w w' hw => ?_
    exact located hspan (ofExcept (hv.binary hℓ _ hw))
  | unary hoperand hspan =>
    refine (heval scope _ _ hoperand).bind fun v v' hv => ?_
    exact located hspan (ofExcept (hv.unary hℓ _))
  | logical hleft hright hspan =>
    refine (heval scope _ _ hleft).bind fun v v' hv => ?_
    exact (operand heval scope hv hright).bind fun w w' hw => pure (hv.logical _ hw)
  | @member _ _ _ _ computed _ _ hobject hproperty hspan _ =>
    have hcomputed := computedMember heval scope hobject hproperty hspan
    cases hproperty with
    | @identifier name place place' hplace =>
      cases computed with
      | false =>
        refine (heval scope _ _ hobject).bind fun v v' hv => ?_
        exact located hspan (ofExcept (hv.member name))
      | true => exact hcomputed
    | _ => exact hcomputed
  | call hcallee hargs hspan =>
    refine (heval scope _ _ hcallee).bind fun v v' hv => ?_
    refine holding (.cons (.value hv) .nil) ?_
    refine (arguments (heval scope) .nil hargs).bind fun args args' hargs => ?_
    exact located hspan (call hblock hv hargs)

include hexec

omit hℓ in
/-- One step of an execution. -/
theorem execute_succ (scope : ScopeId) {s s' : Stmt} (hs : s.Like ℓ s') :
    ℓ.Mirrors old (execute (steps + 1) s scope) (execute (steps + 1) s' scope) (Value.Like ℓ) := by
  cases hs with
  | declaration hdeclarators hspan =>
    exact (declarators (heval scope) scope _ hdeclarators).bind fun _ _ _ => pure .null
  | function hbody hspan =>
    refine freshId.bind fun id _ hid => ?_
    obtain rfl := hid
    refine (located hspan (declare scope _ (.function ?_) true)).bind fun _ _ _ => pure .null
    exact ⟨rfl, rfl, rfl, hbody, rfl⟩
  | conditional hcondition hconsequent halternate hspan =>
    refine (heval scope _ _ hcondition).bind fun v v' hv => ?_
    rw [hv.isTruthy]
    split
    · exact hblock scope _ _ hconsequent
    · cases halternate with
      | none => exact pure .null
      | some halternate => exact hexec scope _ _ halternate
  | @loop condition condition' body body' _ _ hcondition hbody hspan =>
    have htest : ℓ.Mirrors old (Value.isTruthy <$> evaluate steps condition scope)
        (Value.isTruthy <$> evaluate steps condition' scope) (· = ·) :=
      (heval scope _ _ hcondition).map fun v v' hv => hv.isTruthy.symm
    have hround : ℓ.Mirrors old (discard (executeBlock steps body scope))
        (discard (executeBlock steps body' scope)) fun _ _ => True :=
      (hblock scope _ _ hbody).map fun _ _ _ => trivial
    exact (repeatWhile htest hround steps).bind fun _ _ _ => pure .null
  | block hbody => exact hblock scope _ _ hbody
  | expression hexpr => exact heval scope _ _ hexpr

end Steps

end Mirrors

/-- **Like code is evaluated and executed alike.** -/
theorem evaluation (hℓ : ℓ.Computes) (old : List ConsoleEvent) (steps : Nat) :
    (∀ scope e e', e.Like ℓ e' →
      ℓ.Mirrors old (evaluate steps e scope) (evaluate steps e' scope) (Value.Like ℓ)) ∧
    (∀ scope s s', s.Like ℓ s' →
      ℓ.Mirrors old (execute steps s scope) (execute steps s' scope) (Value.Like ℓ)) ∧
    ∀ scope b b', Block.Like (Stmt.Like ℓ) ℓ.span b b' →
      ℓ.Mirrors old (executeBlock steps b scope) (executeBlock steps b' scope) (Value.Like ℓ) := by
  induction steps with
  | zero =>
    exact ⟨fun _ _ _ _ => .outOfSteps, fun _ _ _ _ => .outOfSteps, fun _ _ _ _ => .outOfSteps⟩
  | succ steps ih =>
    obtain ⟨heval, hexec, hblock⟩ := ih
    refine ⟨fun scope _ _ => Mirrors.evaluate_succ hℓ heval hblock scope,
      fun scope _ _ => Mirrors.execute_succ heval hexec hblock scope, fun scope b b' hb => ?_⟩
    obtain ⟨hbody, -⟩ := hb
    exact Mirrors.sequence (hexec scope) .null hbody

/-- **Like programs run alike.** -/
theorem program (hℓ : ℓ.Computes) (old : List ConsoleEvent) (steps : Nat) (scope : ScopeId)
    {program program' : Program} (h : Forall₂ (Stmt.Like ℓ) program program') :
    ℓ.Mirrors old (Eval.program steps program scope) (Eval.program steps program' scope)
      (Value.Like ℓ) :=
  Mirrors.sequence ((evaluation hℓ old steps).2.1 scope) .null h

/-! ## Runs -/

namespace Mirrors

theorem consoleObject :
    ℓ.Mirrors old Eval.consoleObject Eval.consoleObject (Value.Like ℓ) := by
  have hwriters : ∀ id, Value.Like ℓ
      (.object id [("print", .native .print), ("println", .native .println)])
      (.object id [("print", .native .print), ("println", .native .println)]) := fun id =>
    .object (.cons (.entry (.native _)) (.cons (.entry (.native _)) .nil))
  refine freshId.bind fun inner _ hinner => freshId.bind fun outer _ houter => ?_
  obtain rfl := hinner
  obtain rfl := houter
  exact pure (.object (.cons (.entry (hwriters inner)) (.cons (.entry (.native _)) .nil)))

theorem rootScope : ℓ.Mirrors old Eval.rootScope Eval.rootScope (· = ·) := by
  refine (openScope none).bind fun root _ hroot => ?_
  obtain rfl := hroot
  refine (declare root _ (.boolean true) true).bind fun _ _ _ => ?_
  refine (declare root _ (.boolean false) true).bind fun _ _ _ => ?_
  refine consoleObject.bind fun con con' hcon => ?_
  exact (declare root _ hcon true).bind fun _ _ _ => pure rfl

end Mirrors

/-- **Like programs run alike from their root scopes on**, also in what is left of them. -/
theorem runProgram (hℓ : ℓ.Computes) (old : List ConsoleEvent) (steps : Nat)
    {program program' : Program} (h : Forall₂ (Stmt.Like ℓ) program program') :
    ℓ.Mirrors old (runProgram steps program) (runProgram steps program') (Value.Like ℓ) := by
  intro m m' hm
  rcases Mirrors.rootScope m m' hm with ⟨root, r, _, r', hroot, hroot', rfl, hr⟩ |
    ⟨halt, r, halt', r', hroot, hroot', hhalt, hr⟩
  · have hrun := Mirrors.holding (.cons (.scope root) .nil) (Likeness.program hℓ old steps root h)
    unfold Scriptlet.runProgram
    rw [hroot, hroot']
    dsimp only
    rcases hrun r r' hr with ⟨v, s, v', s', hv, hv', hlike, hs⟩ |
      ⟨halt, s, halt', s', hv, hv', hhalt, hs⟩
    · rw [hv, hv']
      exact .inl ⟨v, _, v', _, rfl, rfl, hlike, hs.releaseRoot root (.cons hlike .nil)⟩
    · rw [hv, hv']
      exact .inr ⟨halt, _, halt', _, rfl, rfl, hhalt, hs.releaseRoot root .nil⟩
  · unfold Scriptlet.runProgram
    rw [hroot, hroot']
    exact .inr ⟨halt, r, halt', r', rfl, rfl, hhalt, hr⟩

end Likeness

end Scriptlet
