import Scriptlet.Proofs.Evaluation.Depth
import Scriptlet.Proofs.Evaluation.Failing

/-!
# Where a depth limit is exceeded

Nothing in a program takes notice of a failure: what fails on the way makes everything around it fail
with the same fault (`ComesTo.fails`). A depth limit that is exceeded is reported in one place only, by
the call of a declared function that has enough arguments and no room (`Point.Overflows`). So a run
fails with that fault exactly if it comes to such a call (`Point.fails_iff`).

Down from a failure there is always a next point that fails alike until its origin is met
(`Point.Fails.descends`), and the way down ends, since steps run out and lists and rounds come to an end
(`ComesTo.lt`).
-/

namespace Scriptlet

variable {m : Machine} {fault : Fault} {limit : Nat}

/-! ## On the way up -/

open Eval (fails_bind fails_map fails_holding fails_located fails_inBody fails_orDrop
  fails_call fails_call_of_full fails_argument fails_property fails_statement fails_bind_of_fails
  fails_bind_of_ok map_of_ok)

/-- Whether what begins at a point fails with a fault. -/
def Point.Fails (p : Point) (fault : Fault) : Prop :=
  Eval.Fails (p.task.run p.steps p.scope) p.machine fault

/-- **What fails on the way makes everything around it fail with the same fault.** -/
theorem ComesTo.fails {p q : Point} (h : ComesTo p q) (hq : q.Fails fault) : p.Fails fault := by
  cases h <;> simp only [Point.Fails, Task.run, fails_map] at hq ⊢
  case operand h =>
    obtain ⟨f, heval⟩ := Eval.evaluate_first h
    rw [heval]
    exact fails_bind_of_fails hq
  case second h hfirst =>
    obtain ⟨f, heval⟩ := Eval.evaluate_second h
    rw [heval]
    exact (fails_bind_of_ok hfirst).mpr (fails_bind_of_fails (fails_holding.mpr hq))
  case object =>
    rw [Eval.evaluate]
    exact fails_bind_of_fails hq
  case arguments hcallee =>
    rw [Eval.evaluate]
    exact (fails_bind_of_ok hcallee).mpr (fails_holding.mpr (fails_bind_of_fails hq))
  case call hcallee hargs =>
    rw [Eval.evaluate]
    refine (fails_bind_of_ok hcallee).mpr (fails_holding.mpr ?_)
    exact (fails_bind_of_ok hargs).mpr (fails_located.mpr hq)
  case declaration =>
    rw [Eval.execute]
    exact fails_bind_of_fails hq
  case condition =>
    simp only [Eval.execute]
    exact fails_bind_of_fails hq
  case consequent hcondition hv =>
    simp only [Eval.execute]
    rw [fails_bind_of_ok hcondition, if_pos hv]
    exact hq
  case alternate hcondition hv =>
    rw [Eval.execute]
    rw [fails_bind_of_ok hcondition, if_neg (Bool.eq_false_iff.mp hv)]
    exact hq
  case loop =>
    rw [Eval.execute]
    exact fails_bind_of_fails hq
  case block =>
    rw [Eval.execute]
    exact hq
  case expression =>
    rw [Eval.execute]
    exact hq
  case body =>
    rw [Eval.executeBlock]
    exact hq
  case argument =>
    rw [Eval.arguments]
    exact fails_bind_of_fails (fails_holding.mpr hq)
  case more_arguments hfirst =>
    rw [Eval.arguments_cons]
    exact (fails_bind_of_ok hfirst).mpr hq
  case property =>
    rw [Eval.properties]
    exact fails_bind_of_fails (fails_holding.mpr hq)
  case more_properties hfirst =>
    rw [Eval.properties_cons]
    exact (fails_bind_of_ok hfirst).mpr hq
  case init hinit =>
    rw [Eval.declarators, hinit]
    exact fails_bind_of_fails hq
  case more_declarators hfirst =>
    rw [Eval.declarators_cons]
    exact (fails_bind_of_ok hfirst).mpr hq
  case statement =>
    rw [Eval.sequence]
    exact fails_bind_of_fails (fails_holding.mpr hq)
  case more_statements hfirst =>
    rw [Eval.sequence_cons]
    exact (fails_bind_of_ok hfirst).mpr hq
  case test =>
    rw [Eval.repeatWhile]
    exact fails_bind_of_fails (fails_map.mpr hq)
  case round hcondition hv =>
    rw [Eval.repeatWhile]
    rw [fails_bind_of_ok (map_of_ok hcondition), if_pos hv]
    exact fails_bind_of_fails (fails_map.mpr hq)
  case more_rounds hcondition hv hbody =>
    rw [Eval.repeatWhile]
    rw [fails_bind_of_ok (map_of_ok hcondition), if_pos hv]
    exact (fails_bind_of_ok (map_of_ok hbody)).mpr hq
  case params hargs hdepth hopen =>
    rw [fails_call hargs hdepth]
    refine fails_bind_of_fails ((fails_bind_of_ok hopen).mpr ?_)
    exact fails_bind_of_fails (fails_orDrop.mpr hq)
  case more_params hfirst =>
    rw [Eval.bindParams_cons]
    exact (fails_bind_of_ok hfirst).mpr hq
  case enter hargs hdepth henter =>
    rw [fails_call hargs hdepth, fails_bind_of_ok henter]
    exact fails_inBody.mpr hq

/-- So it is with all that a run comes to. -/
theorem ReachesIn.fails {first q : Point} {n : Nat} (h : ReachesIn first n q) (hq : q.Fails fault) :
    first.Fails fault := by
  induction h with
  | here => exact hq
  | next _ hnext ih => exact ih (hnext.fails hq)

/-! ## On the way down -/

/-- Whether a declared function is called with enough arguments. -/
def Point.Calls (p : Point) : Prop :=
  ∃ f args, p.task = .call (.function f) args ∧ f.params.length ≤ args.length

/-- A declared function is called with enough arguments, and there is no room for its body. -/
structure Point.Overflows (p : Point) : Prop where
  calls : p.Calls
  full : p.machine.limit ≤ p.machine.depth

theorem Point.Overflows.fails {p : Point} (h : p.Overflows) :
    p.Fails (.callDepthExceeded p.machine.limit) := by
  obtain ⟨steps, scope, task, m⟩ := p
  obtain ⟨⟨f, args, rfl, hargs⟩, hfull⟩ := h
  exact fails_map.mpr ((fails_call_of_full hargs hfull).mpr rfl)

/-- The fault arises further on. -/
def Point.Leads (p : Point) (fault : Fault) : Prop := ∃ q, ComesTo p q ∧ q.Fails fault

section

variable {steps : Nat} {scope : ScopeId} {e first second : Expr}

theorem Point.leads_of_operand {f : Value → Eval Value} (h : e.operands = [first])
    (hevaluate : Eval.evaluate (steps + 1) e scope = Eval.evaluate steps first scope >>= f)
    (hrest : ∀ v m', ¬Eval.Fails (f v) m' fault)
    (hfails : Eval.Fails (Eval.evaluate (steps + 1) e scope) m fault) :
    Point.Leads ⟨steps + 1, scope, .expression e, m⟩ fault := by
  rw [hevaluate, fails_bind] at hfails
  rcases hfails with hfirst | ⟨v, m', -, hlast⟩
  · exact ⟨_, .operand h, fails_map.mpr hfirst⟩
  · exact absurd hlast (hrest v m')

theorem Point.leads_of_operands {f : Value → Value → Eval Value} (h : e.operands = [first, second])
    (hevaluate : Eval.evaluate (steps + 1) e scope = Eval.evaluate steps first scope >>= fun v =>
      Eval.holding [.value v] (Eval.evaluate steps second scope) >>= f v)
    (hrest : ∀ v w m', ¬Eval.Fails (f v w) m' fault)
    (hfails : Eval.Fails (Eval.evaluate (steps + 1) e scope) m fault) :
    Point.Leads ⟨steps + 1, scope, .expression e, m⟩ fault := by
  rw [hevaluate, fails_bind] at hfails
  rcases hfails with hfirst | ⟨v, m', hv, hfails⟩
  · exact ⟨_, .operand h, fails_map.mpr hfirst⟩
  · rcases fails_bind.mp hfails with hsecond | ⟨w, m'', -, hlast⟩
    · exact ⟨_, .second h hv, fails_map.mpr (fails_holding.mp hsecond)⟩
    · exact absurd hlast (hrest v w m'')

theorem Point.expression_leads
    (h : Eval.Fails (Eval.evaluate steps e scope) m (.callDepthExceeded limit)) :
    Point.Leads ⟨steps, scope, .expression e, m⟩ (.callDepthExceeded limit) := by
  cases steps with
  | zero => simp [Eval.evaluate] at h
  | succ steps =>
    cases e with
    | identifier => simp [Eval.evaluate, Store.lookup_ne_depth] at h
    | number | text | null => simp [Eval.evaluate] at h
    | object literal span =>
      rw [Eval.evaluate, fails_bind] at h
      rcases h with hfields | ⟨fields, m', -, hlast⟩
      · exact ⟨_, .object, fails_map.mpr hfields⟩
      · simp at hlast
    | assignment target value span =>
      cases target with
      | identifier name place =>
        refine leads_of_operand rfl rfl (fun v m' hrest => ?_) h
        simp [Eval.assign, Store.assign_ne_depth] at hrest
      | _ => simp [Eval.evaluate] at h
    | binary left op right span =>
      refine leads_of_operands rfl rfl (fun v w m' hrest => ?_) h
      simp [Value.binary_ne_depth] at hrest
    | unary op operand span =>
      refine leads_of_operand rfl rfl (fun v m' hrest => ?_) h
      simp [Value.unary_ne_depth] at hrest
    | logical left op right span =>
      refine leads_of_operands rfl rfl (fun v w m' hrest => ?_) h
      simp at hrest
    | member owner property computed span =>
      have hkey : ∀ (v w : Value) (place : Span) (m' : Machine),
          ¬Eval.Fails (do
            let key ← Eval.located place (Eval.ofExcept w.memberKey)
            Eval.located span (Eval.ofExcept (v.member key))) m' (.callDepthExceeded limit) := by
        simp [fails_bind, Value.memberKey_ne_depth, Value.member_ne_depth]
      cases property with
      | identifier name place =>
        cases computed with
        | false =>
          refine leads_of_operand rfl rfl (fun v m' hrest => ?_) h
          simp [Value.member_ne_depth] at hrest
        | true => exact leads_of_operands rfl rfl (fun v w => hkey v w _) h
      | _ => exact leads_of_operands rfl rfl (fun v w => hkey v w _) h
    | call callee args span =>
      rw [Eval.evaluate, fails_bind] at h
      rcases h with hcallee | ⟨v, m', hv, h⟩
      · exact ⟨_, .operand rfl, fails_map.mpr hcallee⟩
      · rcases fails_bind.mp (fails_holding.mp h) with hargs | ⟨vs, m'', hvs, hcall⟩
        · exact ⟨_, .arguments hv, hargs⟩
        · exact ⟨_, .call hv hvs, fails_map.mpr (fails_located.mp hcall)⟩

theorem Point.statement_leads {stmt : Stmt}
    (h : Eval.Fails (Eval.execute steps stmt scope) m (.callDepthExceeded limit)) :
    Point.Leads ⟨steps, scope, .statement stmt, m⟩ (.callDepthExceeded limit) := by
  cases steps with
  | zero => simp [Eval.execute] at h
  | succ steps =>
    cases stmt with
    | declaration declared word constant span =>
      rw [Eval.execute, fails_bind] at h
      rcases h with hdeclared | ⟨_, m', -, hlast⟩
      · exact ⟨_, .declaration, fails_map.mpr hdeclared⟩
      · simp at hlast
    | function name params body span =>
      simp [Eval.execute, fails_bind, Eval.declare, Store.declare_ne_depth] at h
    | conditional condition consequent alternate span =>
      simp only [Eval.execute, fails_bind] at h
      rcases h with hcondition | ⟨v, m', hv, hrest⟩
      · exact ⟨_, .condition, fails_map.mpr hcondition⟩
      · cases htruthy : v.isTruthy with
        | true =>
          rw [if_pos htruthy] at hrest
          exact ⟨_, .consequent hv htruthy, fails_map.mpr hrest⟩
        | false =>
          rw [if_neg (Bool.eq_false_iff.mp htruthy)] at hrest
          cases alternate with
          | none => simp at hrest
          | some alternate => exact ⟨_, .alternate hv htruthy, fails_map.mpr hrest⟩
    | loop condition body span =>
      rw [Eval.execute, fails_bind] at h
      rcases h with hloop | ⟨_, m', -, hlast⟩
      · exact ⟨_, .loop, fails_map.mpr hloop⟩
      · simp at hlast
    | block block =>
      rw [Eval.execute] at h
      exact ⟨_, .block, fails_map.mpr h⟩
    | expression e =>
      rw [Eval.execute] at h
      exact ⟨_, .expression, fails_map.mpr h⟩

theorem Point.block_leads {body : Block Stmt}
    (h : Eval.Fails (Eval.executeBlock steps body scope) m (.callDepthExceeded limit)) :
    Point.Leads ⟨steps, scope, .block body, m⟩ (.callDepthExceeded limit) := by
  cases steps with
  | zero => simp [Eval.executeBlock] at h
  | succ steps =>
    rw [Eval.executeBlock] at h
    exact ⟨_, .body, fails_map.mpr h⟩

/-! ### Lists -/

theorem Point.arguments_lead {before : List Value} {args : List Expr}
    (h : Eval.Fails (Eval.arguments (Eval.evaluate steps · scope) before args) m fault) :
    Point.Leads ⟨steps, scope, .arguments before args, m⟩ fault := by
  cases args with
  | nil => simp [Eval.arguments] at h
  | cons arg rest =>
    rw [Eval.arguments_cons, fails_bind] at h
    rcases h with hfirst | ⟨vs, m', hvs, hrest⟩
    · exact ⟨_, .argument, fails_map.mpr (fails_argument.mp hfirst)⟩
    · exact ⟨_, .more_arguments hvs, hrest⟩

theorem Point.properties_lead {span : Span} {before : Record Value}
    {literal : List (String × Option Expr)}
    (h : Eval.Fails (Eval.properties (Eval.evaluate steps · scope) scope span before literal) m
      (.callDepthExceeded limit)) :
    Point.Leads ⟨steps, scope, .properties span before literal, m⟩ (.callDepthExceeded limit) := by
  cases literal with
  | nil => simp [Eval.properties] at h
  | cons property rest =>
    rw [Eval.properties_cons, fails_bind] at h
    rcases h with hfirst | ⟨fields, m', hfields, hrest⟩
    · obtain ⟨key, _ | e⟩ := property
      · simp [Eval.properties, Store.lookup_ne_depth] at hfirst
      · exact ⟨_, .property, fails_map.mpr (fails_property.mp hfirst)⟩
    · exact ⟨_, .more_properties hfields, fails_map.mpr hrest⟩

theorem Point.declarators_lead {constant : Bool} {declared : List Declarator}
    (h : Eval.Fails (Eval.declarators (Eval.evaluate steps · scope) scope constant declared) m
      (.callDepthExceeded limit)) :
    Point.Leads ⟨steps, scope, .declarators constant declared, m⟩ (.callDepthExceeded limit) := by
  cases declared with
  | nil => simp [Eval.declarators] at h
  | cons declarator rest =>
    rw [Eval.declarators_cons, fails_bind] at h
    rcases h with hfirst | ⟨_, m', hdeclared, hrest⟩
    · obtain ⟨name, _ | e, span⟩ := declarator
      · simp [Eval.declarators, Eval.declare, Store.declare_ne_depth] at hfirst
      · rw [Eval.declarators] at hfirst
        rcases fails_bind.mp hfirst with hinit | ⟨v, m', -, hlast⟩
        · exact ⟨_, .init rfl, fails_map.mpr hinit⟩
        · simp [Eval.declarators, Eval.declare, Store.declare_ne_depth] at hlast
    · exact ⟨_, .more_declarators hdeclared, fails_map.mpr hrest⟩

theorem Point.sequence_leads {last : Value} {stmts : List Stmt}
    (h : Eval.Fails (Eval.sequence (Eval.execute steps · scope) last stmts) m fault) :
    Point.Leads ⟨steps, scope, .sequence last stmts, m⟩ fault := by
  cases stmts with
  | nil => simp [Eval.sequence] at h
  | cons stmt rest =>
    rw [Eval.sequence_cons, fails_bind] at h
    rcases h with hfirst | ⟨v, m', hv, hrest⟩
    · exact ⟨_, .statement, fails_map.mpr (fails_statement.mp hfirst)⟩
    · exact ⟨_, .more_statements hv, fails_map.mpr hrest⟩

theorem Point.params_lead {pairs : List (String × Value)}
    (h : Eval.Fails (Eval.bindParams scope pairs) m (.callDepthExceeded limit)) :
    Point.Leads ⟨steps, scope, .params pairs, m⟩ (.callDepthExceeded limit) := by
  cases pairs with
  | nil => simp [Eval.bindParams] at h
  | cons pair rest =>
    rw [Eval.bindParams_cons, fails_bind] at h
    rcases h with hfirst | ⟨_, m', hbound, hrest⟩
    · simp [Eval.bindParams, Eval.declare, Store.declare_ne_depth] at hfirst
    · exact ⟨_, .more_params hbound, fails_map.mpr hrest⟩

/-! ### Loops and calls -/

theorem Point.loop_leads {condition : Expr} {body : Block Stmt} {rounds : Nat}
    (h : Eval.Fails (Eval.repeatWhile (Value.isTruthy <$> Eval.evaluate steps condition scope)
      (discard (Eval.executeBlock steps body scope)) rounds) m fault) :
    Point.Leads ⟨steps, scope, .loop condition body rounds, m⟩ fault := by
  cases rounds with
  | zero => simp [Eval.repeatWhile] at h
  | succ rounds =>
    rw [Eval.repeatWhile, bind_map_left, fails_bind] at h
    rcases h with hcondition | ⟨v, m', hv, hround⟩
    · exact ⟨_, .test, fails_map.mpr hcondition⟩
    · cases htruthy : v.isTruthy with
      | false => simp [htruthy] at hround
      | true =>
        have hdiscard : discard (Eval.executeBlock steps body scope) =
            (fun _ => ()) <$> Eval.executeBlock steps body scope := rfl
        rw [if_pos htruthy, hdiscard, bind_map_left, fails_bind] at hround
        rcases hround with hbody | ⟨w, m'', hw, hrounds⟩
        · exact ⟨_, .round hv htruthy, fails_map.mpr hbody⟩
        · exact ⟨_, .more_rounds hv htruthy hw, fails_map.mpr (hdiscard ▸ hrounds)⟩

theorem Point.call_leads {callee : Value} {args : List Value}
    (h : Eval.Fails (Eval.call (Eval.executeBlock steps) callee args) m
      (.callDepthExceeded limit)) :
    (Point.Overflows ⟨steps, scope, .call callee args, m⟩ ∧ m.limit = limit) ∨
      Point.Leads ⟨steps, scope, .call callee args, m⟩ (.callDepthExceeded limit) := by
  cases callee with
  | function f =>
    by_cases hargs : f.params.length ≤ args.length
    · by_cases hdepth : m.depth < m.limit
      · refine .inr ?_
        rw [fails_call hargs hdepth, fails_bind] at h
        rcases h with henter | ⟨opened, m', henter, hbody⟩
        · have hopen := Eval.openScope_apply (some f.closure) m
          rw [Eval.enter, fails_bind_of_ok hopen, fails_bind] at henter
          rcases henter with hparams | ⟨_, m', -, hlast⟩
          · exact ⟨_, .params hargs hdepth hopen, fails_map.mpr (fails_orDrop.mp hparams)⟩
          · simp at hlast
        · exact ⟨_, .enter hargs hdepth henter, fails_map.mpr (fails_inBody.mp hbody)⟩
      · have hfull : m.limit ≤ m.depth := Nat.le_of_not_lt hdepth
        refine .inl ⟨⟨⟨f, args, rfl, hargs⟩, hfull⟩, ?_⟩
        exact Fault.callDepthExceeded.inj ((fails_call_of_full hargs hfull).mp h)
    · simp [Eval.call, Eval.callFunction_eq, Nat.lt_of_not_le hargs] at h
  | native g => exact absurd h Eval.callNative_ne_depth
  | _ => simp [Eval.call] at h

end

/-- **A point fails for lack of room only if a declared function is called there with enough arguments
at the limit; otherwise something on the way fails so.** -/
theorem Point.Fails.descends {p : Point} (h : p.Fails (.callDepthExceeded limit)) :
    (p.Overflows ∧ p.machine.limit = limit) ∨
      p.Leads (.callDepthExceeded limit) := by
  obtain ⟨steps, scope, task, m⟩ := p
  cases task <;> simp only [Point.Fails, Task.run, fails_map] at h
  case expression e => exact .inr (Point.expression_leads h)
  case statement stmt => exact .inr (Point.statement_leads h)
  case block body => exact .inr (Point.block_leads h)
  case arguments before args => exact .inr (Point.arguments_lead h)
  case properties span before literal => exact .inr (Point.properties_lead h)
  case declarators constant declared => exact .inr (Point.declarators_lead h)
  case sequence last stmts => exact .inr (Point.sequence_leads h)
  case loop condition body rounds => exact .inr (Point.loop_leads h)
  case call callee args => exact Point.call_leads h
  case params pairs => exact .inr (Point.params_lead h)

/-! ## The end of the way -/

/-- How much of a list or of some rounds is left to be done. -/
def Task.size : Task → Nat
  | expression _ | statement _ | block _ => 0
  | arguments _ args => args.length + 1
  | properties _ _ literal => literal.length + 1
  | declarators _ declared => declared.length + 1
  | sequence _ stmts => stmts.length + 1
  | loop _ _ rounds => rounds + 1
  | call _ args => args.length + 2
  | params pairs => pairs.length + 1

/-- From point to point there are fewer steps left, or as many and less is left of a list. -/
theorem ComesTo.lt {p q : Point} (h : ComesTo p q) :
    Prod.Lex (· < ·) (· < ·) (q.steps, q.task.size) (p.steps, p.task.size) := by
  cases h with
  | operand | second | object | arguments | call | declaration | condition | consequent | alternate
  | loop | block | expression | body => exact .left _ _ (Nat.lt_succ_self _)
  | argument | property | init | statement | test | round | enter =>
    exact .right _ (Nat.succ_pos _)
  | more_arguments | more_properties | more_declarators | more_statements | more_rounds
  | more_params => exact .right _ (Nat.lt_succ_self _)
  | params =>
    refine .right _ (Nat.lt_succ_of_le (Nat.succ_le_succ ?_))
    rw [List.length_zip]
    exact Nat.min_le_right _ _

/-- A run that fails for lack of room comes to a call that had none. -/
theorem Point.Fails.origin {p : Point} (h : p.Fails (.callDepthExceeded limit)) :
    ∃ n q, ReachesIn p n q ∧ q.Overflows ∧ q.machine.limit = limit := by
  rcases h.descends with ⟨hoverflows, hlimit⟩ | ⟨q, hnext, hq⟩
  · exact ⟨0, p, .here, hoverflows, hlimit⟩
  · obtain ⟨n, last, hreaches, hlast⟩ := origin hq
    exact ⟨_, last, hreaches.head hnext, hlast⟩
termination_by (p.steps, p.task.size)
decreasing_by exact hnext.lt

/-- **A run fails for lack of room exactly if it comes to a call of a declared function that has enough
arguments, with the limit reached.** -/
theorem Point.fails_iff {p : Point} :
    p.Fails (.callDepthExceeded limit) ↔
      ∃ n q, ReachesIn p n q ∧ q.Overflows ∧ q.machine.limit = limit := by
  refine ⟨Point.Fails.origin, fun hexists => ?_⟩
  obtain ⟨n, q, hreaches, hoverflows, rfl⟩ := hexists
  exact hreaches.fails hoverflows.fails

end Scriptlet
