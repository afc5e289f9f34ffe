import Scriptlet.Evaluation
import Scriptlet.Proofs.Evaluation.Call

/-!
# Programs keep to every discipline

Every evaluation keeps to a discipline as long as the scope that it runs in has a handle among the
owners, and every execution if names may be declared in that scope besides. The proof is by
induction on the steps and follows the evaluation: what has been evaluated is held on to while the
rest is, so it is still there when it is needed (`Discipline.Keeps.holding`), and results are plain,
in hand, or part of an object in hand (`Value.Follows`).
-/

namespace Scriptlet

/-! ## Results of operations -/

namespace Value

theorem node?_arithmetic {op : BinaryOp} {a b : Number} {v : Value}
    (h : arithmetic op a b = .ok v) : v.node? = none := by
  cases op <;> simp only [arithmetic] at h <;> (try split at h) <;> cases h <;> rfl

theorem node?_binary {op : BinaryOp} {left right v : Value} (h : left.binary op right = .ok v) :
    v.node? = none := by
  unfold binary at h
  split at h
  · exact node?_arithmetic h
  · cases h
    rfl

theorem node?_unary {op : UnaryOp} {operand v : Value} (h : unary op operand = .ok v) :
    v.node? = none := by
  unfold unary at h
  split at h <;> cases h <;> rfl

theorem follows_logical (op : LogicalOp) (left right : Value) :
    Follows [right, left] (logical op left right) := by
  unfold logical
  split
  · split
    · exact follows_of_mem (by simp)
    · exact follows_of_plain rfl
  · exact follows_of_plain rfl
  · exact follows_of_mem (by simp)

/-- Who leads to an object leads to its members. -/
theorem follows_member {value v : Value} {key : String} (h : value.member key = .ok v) :
    Follows [value] v := by
  cases value with
  | object id fields =>
    simp only [member] at h
    cases hkey : Record.get? fields key with
    | none => simp [hkey] at h
    | some found =>
      simp only [hkey, Except.ok.injEq] at h
      subst h
      intro store owners hknows n hn
      refine Store.reachable_of_edge (hknows (.object id fields) List.mem_cons_self _ rfl) ?_
      exact List.mem_filterMap.mpr ⟨_, Record.mem_of_get?_eq_some hkey, hn⟩
  | _ => simp [member] at h

end Value

namespace Discipline

/-- Whether expressions are evaluated in keeping with a discipline, in scopes that have a handle
among the owners. -/
def Evaluates (d : Discipline) (evaluate : Expr → ScopeId → Eval Value) : Prop :=
  ∀ expr scope base, .scope scope ∈ base → d.Keeps base [] (evaluate expr scope) fun v => [v]

namespace Keeps

variable {d : Discipline} {base : List Owner} {scope : ScopeId}
  {evaluate : Expr → ScopeId → Eval Value} {execute : Stmt → ScopeId → Eval Value} {vs : List Value}

theorem objectMember (span : Span) (object : Value) (key : String) :
    d.Keeps base [object] (Eval.located span (Eval.ofExcept (object.member key))) fun v => [v] := by
  refine located (ofExcept fun v hv w hw => ?_)
  obtain rfl := List.mem_singleton.mp hw
  exact Value.follows_member hv

/-! ## Lists of expressions -/

section Lists

variable (heval : d.Evaluates evaluate) (hscope : .scope scope ∈ base)

include heval hscope

/-- An evaluation while some values are held on to. -/
theorem evaluate_holding (held : List Value) (expr : Expr) :
    d.Keeps base held (Eval.holding (Owner.values held) (evaluate expr scope))
      fun v => v :: held := by
  have hheld : d.Keeps base (held ++ []) (Eval.holding (Owner.values held) (evaluate expr scope))
      fun v => [v] ++ held := holding (heval expr scope _ (List.mem_append_right _ hscope))
  simpa using hheld

theorem arguments (before : List Value) (args : List Expr) :
    d.Keeps base before (Eval.arguments (evaluate · scope) before args) fun vs => vs := by
  induction args generalizing before with
  | nil => exact pure fun w hw => Value.follows_of_mem hw
  | cons arg rest ih =>
    refine bind (evaluate_holding heval hscope before arg) fun v => ?_
    exact (ih (before ++ [v])).of_more (by simp)

theorem properties (span : Span) (before : Record Value) (literal : List (String × Option Expr)) :
    d.Keeps base (before.map (·.2)) (Eval.properties (evaluate · scope) scope span before literal)
      fun fields => fields.map (·.2) := by
  induction literal generalizing before with
  | nil => exact pure fun w hw => Value.follows_of_mem hw
  | cons property rest ih =>
    obtain ⟨key, _ | expr⟩ := property
    · refine bind (located (lookup hscope key)) fun v => ?_
      exact (ih _).of_more (Record.values_put_subset before key v)
    · have hheld := evaluate_holding heval hscope (before.map (·.2)) expr
      rw [Owner.values, List.map_map] at hheld
      refine bind hheld fun v => ?_
      exact (ih _).of_more (Record.values_put_subset before key v)

theorem declarators (hdeclares : d.declares scope) (constant : Bool) (declared : List Declarator) :
    d.Keeps base [] (Eval.declarators (evaluate · scope) scope constant declared)
      fun _ => [] := by
  induction declared with
  | nil => exact pure fun w hw => by simp at hw
  | cons declarator rest ih =>
    have hrest : ∀ v, d.Keeps base [v] (do
        Eval.located declarator.span (Eval.declare scope declarator.name v constant)
        Eval.declarators (evaluate · scope) scope constant rest) fun _ => [] := by
      intro v
      have hv : Value.Follows [v] v := Value.follows_of_mem List.mem_cons_self
      refine bind (located (declare hscope hdeclares hv _ _)) fun _ => ?_
      exact ih.of_more (List.nil_subset _)
    unfold Eval.declarators
    dsimp only
    cases declarator.init with
    | some expr => exact bind (heval expr scope base hscope) hrest
    | none => exact bind (plain rfl) hrest

/-! ## Parts of expressions -/

theorem objectLiteral (span : Span) (literal : List (String × Option Expr)) :
    d.Keeps base [] (do
      let fields ← Eval.properties (evaluate · scope) scope span [] literal
      return Value.object (← Eval.freshId) fields) fun v => [v] := by
  refine bind (properties heval hscope span [] literal) fun fields => ?_
  refine bind (freshId (.object · fields) fun store id n hn => ?_) fun id => ?_
  · cases hn
    refine ⟨rfl, fun r hr => ?_⟩
    obtain ⟨entry, hentry, hnode⟩ := List.mem_filterMap.mp hr
    exact store.knows_values base entry.2 (List.mem_map_of_mem hentry) r hnode
  · exact pure fun w hw => Value.follows_of_mem (by simp_all)

theorem computedMember (object property : Expr) (span : Span) :
    d.Keeps base [] (do
      let object ← evaluate object scope
      let value ← Eval.holding [.value object] (evaluate property scope)
      let key ← Eval.located property.span (Eval.ofExcept value.memberKey)
      Eval.located span (Eval.ofExcept (object.member key))) fun v => [v] := by
  refine bind (heval object scope base hscope) fun object => ?_
  refine bind (evaluate_holding heval hscope [object] property) fun value => ?_
  refine bind (located (ofExcept fun key _ w hw => ?_)) fun key => objectMember span object key
  exact Value.follows_of_mem (List.mem_cons_of_mem _ hw)

theorem callExpression {run : Block Stmt → ScopeId → Eval Value} (hrun : d.Executes run)
    (callee : Expr) (args : List Expr) (span : Span) :
    d.Keeps base [] (do
      let callee ← evaluate callee scope
      Eval.holding [.value callee] do
        let args ← Eval.arguments (evaluate · scope) [] args
        Eval.located span (Eval.call run callee args)) fun v => [v] := by
  refine bind (heval callee scope base hscope) fun callee => ?_
  have hcall : d.Keeps (Owner.values [callee] ++ base) [] (do
      let args ← Eval.arguments (evaluate · scope) [] args
      Eval.located span (Eval.call run callee args)) fun v => [v] := by
    refine bind (arguments heval (List.mem_append_right _ hscope) [] args) fun values => ?_
    exact located (call hrun List.mem_cons_self)
  exact (holding hcall).of_result (by simp)

end Lists

/-! ## Rows of statements -/

theorem sequence (hexec : d.Executes execute) (hscope : .scope scope ∈ base)
    (hdeclares : d.declares scope) (last : Value) (stmts : List Stmt) :
    d.Keeps base [last] (Eval.sequence (execute · scope) last stmts) fun v => [v] := by
  induction stmts generalizing last with
  | nil => exact pure fun w hw => Value.follows_of_mem hw
  | cons stmt rest ih =>
    have hheld : d.Keeps base ([last] ++ [])
        (Eval.holding (Owner.values [last]) (execute stmt scope)) fun v => [v] ++ [last] :=
      holding (hexec stmt scope _ (List.mem_append_right _ hscope) hdeclares)
    refine bind hheld fun v => ?_
    exact (ih v).of_more (by simp)

/-- Statements in order, the first of them after a plain value. -/
theorem sequence_null (hexec : d.Executes execute) (hscope : .scope scope ∈ base)
    (hdeclares : d.declares scope) (stmts : List Stmt) :
    d.Keeps base [] (Eval.sequence (execute · scope) .null stmts) fun v => [v] :=
  (sequence hexec hscope hdeclares .null stmts).of_hand fun v hv =>
    Value.follows_of_plain (by simp_all [Value.node?])

theorem repeatWhile {condition : Eval Bool} {body : Eval Unit}
    (hcondition : d.Keeps base [] condition fun _ => []) (hbody : d.Keeps base [] body fun _ => [])
    (rounds : Nat) : d.Keeps base [] (Eval.repeatWhile condition body rounds) fun _ => [] := by
  induction rounds with
  | zero => exact throw
  | succ rounds ih =>
    refine bind hcondition fun b => ?_
    split
    · exact bind hbody fun _ => ih
    · exact pure fun w hw => by simp at hw

/-! ## Expressions and statements -/

variable {steps : Nat}

/-- One step of an evaluation, if the steps after it keep to the discipline. -/
theorem evaluates_succ (heval : d.Evaluates (Eval.evaluate steps))
    (hblock : d.Executes (Eval.executeBlock steps)) :
    d.Evaluates (Eval.evaluate (steps + 1)) := by
  intro expr scope base hscope
  have hexpr : ∀ expr, d.Keeps base [] (Eval.evaluate steps expr scope) fun v => [v] :=
    fun expr => heval expr scope base hscope
  have hheld : ∀ held expr, d.Keeps base held
      (Eval.holding (Owner.values held) (Eval.evaluate steps expr scope)) fun v => v :: held :=
    evaluate_holding heval hscope
  cases expr with
  | identifier name span => exact located (lookup hscope name)
  | number value span => exact plain rfl
  | text value span => exact plain rfl
  | null span => exact plain rfl
  | object literal span => exact objectLiteral heval hscope span literal
  | assignment target expr span =>
    cases target with
    | identifier name place =>
      refine bind (hexpr expr) fun v => bind (located (assign hscope ?_ name)) fun _ => ?_
      · exact Value.follows_of_mem List.mem_cons_self
      · exact pure fun w hw => Value.follows_of_mem hw
    | _ => exact located fail
  | binary left op right span =>
    refine bind (hexpr left) fun left => bind (hheld [left] right) fun right => ?_
    refine located (ofExcept fun v hv w hw => ?_)
    exact Value.follows_of_plain (by simp_all [Value.node?_binary hv])
  | unary op operand span =>
    refine bind (hexpr operand) fun operand => located (ofExcept fun v hv w hw => ?_)
    exact Value.follows_of_plain (by simp_all [Value.node?_unary hv])
  | logical left op right span =>
    refine bind (hexpr left) fun left => bind (hheld [left] right) fun right => ?_
    refine pure fun w hw => ?_
    obtain rfl := List.mem_singleton.mp hw
    exact Value.follows_logical op left right
  | member object property computed span =>
    have hcomputed := computedMember heval hscope object property span
    cases property with
    | identifier name place =>
      cases computed with
      | false => exact bind (hexpr object) fun object => objectMember span object name
      | true => exact hcomputed
    | _ => exact hcomputed
  | call callee args span => exact callExpression heval hscope hblock callee args span

/-- One step of an execution. -/
theorem executes_succ (heval : d.Evaluates (Eval.evaluate steps))
    (hexec : d.Executes (Eval.execute steps)) (hblock : d.Executes (Eval.executeBlock steps)) :
    d.Executes (Eval.execute (steps + 1)) := by
  intro stmt scope base hscope hdeclares
  cases stmt with
  | declaration declared word constant span =>
    exact bind (declarators heval hscope hdeclares constant declared) fun _ => plain rfl
  | function name params body span =>
    have hdeclare : ∀ id, d.Keeps base [.function ⟨id, name, params, body, scope⟩]
        (Eval.located span
          (Eval.declare scope name (.function ⟨id, name, params, body, scope⟩) true))
        fun _ => [] := fun id =>
      (located (declare hscope hdeclares (Value.follows_of_mem List.mem_cons_self) _ _)).of_result
        fun _ => List.nil_subset _
    refine bind (freshId (.function ⟨·, name, params, body, scope⟩) fun store id n hn => ?_)
      fun id => bind (hdeclare id) fun _ => plain rfl
    cases hn
    refine ⟨rfl, fun r hr => ?_⟩
    obtain rfl : r = .scope scope := by simpa using hr
    exact Store.reachable_of_scope_mem (List.mem_append_right _ hscope)
  | conditional condition consequent alternate span =>
    refine bind (heval condition scope base hscope) fun v => ?_
    split
    · exact (hblock consequent scope base hscope hdeclares).of_more (List.nil_subset _)
    · cases alternate with
      | some alternate =>
        exact (hexec alternate scope base hscope hdeclares).of_more (List.nil_subset _)
      | none => exact plain rfl
  | loop condition body span =>
    refine bind (repeatWhile ?_ ?_ steps) fun _ => plain rfl
    · exact (heval condition scope base hscope).map fun _ => List.nil_subset _
    · exact (hblock body scope base hscope hdeclares).map fun _ => List.nil_subset _
  | block block => exact hblock block scope base hscope hdeclares
  | expression expr => exact heval expr scope base hscope

end Keeps

/-- **Evaluating and executing keeps to every discipline.** -/
theorem evaluation (d : Discipline) (steps : Nat) :
    d.Evaluates (Eval.evaluate steps) ∧ d.Executes (Eval.execute steps) ∧
      d.Executes (Eval.executeBlock steps) := by
  induction steps with
  | zero =>
    exact ⟨fun _ _ _ _ => Keeps.throw, fun _ _ _ _ _ => Keeps.throw, fun _ _ _ _ _ => Keeps.throw⟩
  | succ steps ih =>
    obtain ⟨heval, hexec, hblock⟩ := ih
    exact ⟨Keeps.evaluates_succ heval hblock, Keeps.executes_succ heval hexec hblock,
      fun block scope base h hdeclares => Keeps.sequence_null hexec h hdeclares block.body⟩

theorem program (d : Discipline) (steps : Nat) : d.Executes (Eval.program steps) :=
  fun program _ _ hscope hdeclares =>
    Keeps.sequence_null (d.evaluation steps).2.1 hscope hdeclares program

theorem call (d : Discipline) (steps : Nat) {base : List Owner} {callee : Value}
    (hcallee : .value callee ∈ base) (args : List Value) :
    d.Keeps base args (Eval.call (Eval.executeBlock steps) callee args) fun v => [v] :=
  Keeps.call (d.evaluation steps).2.2 hcallee

end Discipline

end Scriptlet
