import Scriptlet.Proofs.Evaluation.Likeness

/-!
# The points of a run

A run of a program comes to its parts one after the other, each in some scope and on some machine, with
the values that are at hand then: what was evaluated before, the value of the statement before, the
callee and the arguments of a call. `ComesTo` says to which parts a part leads, in the terms of the
evaluator; the points of a run are those that its first one leads to, step by step.

At each point something begins and, unless the steps run out, ends, so between them the points show every
state that the machine is in. Whatever arithmetic keeps true of numbers is true of all of them
(`Reaches.like`): one step keeps it, since what was evaluated on the way is like itself, and then so
do many.
-/

namespace Scriptlet

open List (Forall₂)
open Eval (evaluate execute executeBlock)

/-! ## Parts of programs -/

/-- A part of a program that is being worked on, and the values that this is done with. -/
inductive Task where
  | expression (expr : Expr)
  | statement (stmt : Stmt)
  | block (block : Block Stmt)
  /-- The arguments of a call, behind some that have been evaluated. -/
  | arguments (before : List Value) (args : List Expr)
  /-- The properties of an object literal, behind some that have been evaluated. -/
  | properties (span : Span) (before : Record Value) (literal : List (String × Option Expr))
  | declarators (constant : Bool) (declared : List Declarator)
  /-- A row of statements, behind one with some value. -/
  | sequence (last : Value) (stmts : List Stmt)
  /-- A loop with some rounds left. -/
  | loop (condition : Expr) (body : Block Stmt) (rounds : Nat)
  | call (callee : Value) (args : List Value)
  /-- The parameters that are still to be bound, with their arguments. -/
  | params (pairs : List (String × Value))

namespace Task

/-- The values that a task works with. -/
def values : Task → List Value
  | arguments before _ => before
  | properties _ before _ => before.map (·.2)
  | sequence last _ => [last]
  | call callee args => callee :: args
  | params pairs => pairs.map (·.2)
  | expression _ | statement _ | block _ | declarators .. | loop .. => []

/-- What is done, and the values that it comes to. -/
def run (steps : Nat) (scope : ScopeId) : Task → Eval (List Value)
  | expression expr => ([·]) <$> evaluate steps expr scope
  | statement stmt => ([·]) <$> execute steps stmt scope
  | block body => ([·]) <$> executeBlock steps body scope
  | arguments before args => Eval.arguments (evaluate steps · scope) before args
  | properties span before literal =>
    List.map (·.2) <$> Eval.properties (evaluate steps · scope) scope span before literal
  | declarators constant declared =>
    (fun _ => []) <$> Eval.declarators (evaluate steps · scope) scope constant declared
  | sequence last stmts => ([·]) <$> Eval.sequence (execute steps · scope) last stmts
  | loop condition body rounds =>
    (fun _ => []) <$> Eval.repeatWhile (Value.isTruthy <$> evaluate steps condition scope)
      (discard (executeBlock steps body scope)) rounds
  | call callee args => ([·]) <$> Eval.call (executeBlock steps) callee args
  | params pairs => (fun _ => []) <$> Eval.bindParams scope pairs

end Task

/-- The expressions that an expression evaluates before it does anything else, the second one while it
holds on to the value of the first. -/
def Expr.operands : Expr → List Expr
  | .assignment (.identifier ..) value _ => [value]
  | .binary left _ right _ | .logical left _ right _ => [left, right]
  | .unary _ operand _ => [operand]
  | .member owner (.identifier ..) false _ => [owner]
  | .member owner property _ _ => [owner, property]
  | .call callee _ _ => [callee]
  | _ => []

/-- The machine while some more owners hold on to scopes. -/
def Machine.holding (m : Machine) (owners : List Owner) : Machine :=
  { m with owners := owners ++ m.owners }

/-! ## Points -/

/-- A point of a run: a task that begins in some scope on some machine, with so many steps left. -/
structure Point where
  steps : Nat
  scope : ScopeId
  task : Task
  machine : Machine

/-- How what begins at a point ends. -/
def Point.ending (p : Point) : EStateM.Result Halt Machine (List Value) :=
  p.task.run p.steps p.scope p.machine

/-- The points that a run comes to next from a point. -/
inductive ComesTo : Point → Point → Prop where
  -- Expressions
  | operand (h : e.operands = first :: rest) :
    ComesTo ⟨steps + 1, scope, .expression e, m⟩ ⟨steps, scope, .expression first, m⟩
  | second (h : e.operands = [first, second]) (hfirst : evaluate steps first scope m = .ok v m') :
    ComesTo ⟨steps + 1, scope, .expression e, m⟩
      ⟨steps, scope, .expression second, m'.holding [.value v]⟩
  | object :
    ComesTo ⟨steps + 1, scope, .expression (.object literal span), m⟩
      ⟨steps, scope, .properties span [] literal, m⟩
  | arguments (hcallee : evaluate steps callee scope m = .ok v m') :
    ComesTo ⟨steps + 1, scope, .expression (.call callee args span), m⟩
      ⟨steps, scope, .arguments [] args, m'.holding [.value v]⟩
  | call (hcallee : evaluate steps callee scope m = .ok v m')
    (hargs : Eval.arguments (evaluate steps · scope) [] args (m'.holding [.value v]) = .ok vs m'') :
    ComesTo ⟨steps + 1, scope, .expression (.call callee args span), m⟩ ⟨steps, scope, .call v vs, m''⟩
  -- Statements
  | declaration :
    ComesTo ⟨steps + 1, scope, .statement (.declaration declared word constant span), m⟩
      ⟨steps, scope, .declarators constant declared, m⟩
  | condition :
    ComesTo ⟨steps + 1, scope, .statement (.conditional condition consequent alternate span), m⟩
      ⟨steps, scope, .expression condition, m⟩
  | consequent (hcondition : evaluate steps condition scope m = .ok v m') (hv : v.isTruthy = true) :
    ComesTo ⟨steps + 1, scope, .statement (.conditional condition consequent alternate span), m⟩
      ⟨steps, scope, .block consequent, m'⟩
  | alternate (hcondition : evaluate steps condition scope m = .ok v m') (hv : v.isTruthy = false) :
    ComesTo ⟨steps + 1, scope, .statement (.conditional condition consequent (some alternate) span), m⟩
      ⟨steps, scope, .statement alternate, m'⟩
  | loop :
    ComesTo ⟨steps + 1, scope, .statement (.loop condition body span), m⟩
      ⟨steps, scope, .loop condition body steps, m⟩
  | block :
    ComesTo ⟨steps + 1, scope, .statement (.block body), m⟩ ⟨steps, scope, .block body, m⟩
  | expression :
    ComesTo ⟨steps + 1, scope, .statement (.expression e), m⟩ ⟨steps, scope, .expression e, m⟩
  | body :
    ComesTo ⟨steps + 1, scope, .block body, m⟩ ⟨steps, scope, .sequence .null body.body, m⟩
  -- Lists: the first of them, and those behind it
  | argument :
    ComesTo ⟨steps, scope, .arguments before (arg :: rest), m⟩
      ⟨steps, scope, .expression arg, m.holding (before.map .value)⟩
  | more_arguments
    (hfirst : Eval.arguments (evaluate steps · scope) before [arg] m = .ok vs m') :
    ComesTo ⟨steps, scope, .arguments before (arg :: rest), m⟩ ⟨steps, scope, .arguments vs rest, m'⟩
  | property :
    ComesTo ⟨steps, scope, .properties span before ((key, some e) :: rest), m⟩
      ⟨steps, scope, .expression e, m.holding (before.map (.value ·.2))⟩
  | more_properties
    (hfirst : Eval.properties (evaluate steps · scope) scope span before [property] m = .ok fields m') :
    ComesTo ⟨steps, scope, .properties span before (property :: rest), m⟩
      ⟨steps, scope, .properties span fields rest, m'⟩
  | init (hinit : declarator.init = some e) :
    ComesTo ⟨steps, scope, .declarators constant (declarator :: rest), m⟩
      ⟨steps, scope, .expression e, m⟩
  | more_declarators
    (hfirst : Eval.declarators (evaluate steps · scope) scope constant [declarator] m = .ok () m') :
    ComesTo ⟨steps, scope, .declarators constant (declarator :: rest), m⟩
      ⟨steps, scope, .declarators constant rest, m'⟩
  | statement :
    ComesTo ⟨steps, scope, .sequence last (stmt :: rest), m⟩
      ⟨steps, scope, .statement stmt, m.holding [.value last]⟩
  | more_statements (hfirst : Eval.sequence (execute steps · scope) last [stmt] m = .ok v m') :
    ComesTo ⟨steps, scope, .sequence last (stmt :: rest), m⟩ ⟨steps, scope, .sequence v rest, m'⟩
  -- Loops
  | test :
    ComesTo ⟨steps, scope, .loop condition body (rounds + 1), m⟩
      ⟨steps, scope, .expression condition, m⟩
  | round (hcondition : evaluate steps condition scope m = .ok v m') (hv : v.isTruthy = true) :
    ComesTo ⟨steps, scope, .loop condition body (rounds + 1), m⟩ ⟨steps, scope, .block body, m'⟩
  | more_rounds (hcondition : evaluate steps condition scope m = .ok v m') (hv : v.isTruthy = true)
    (hbody : executeBlock steps body scope m' = .ok w m'') :
    ComesTo ⟨steps, scope, .loop condition body (rounds + 1), m⟩
      ⟨steps, scope, .loop condition body rounds, m''⟩
  -- Calls
  | params (hargs : f.params.length ≤ args.length) (hdepth : m.depth < m.limit)
    (hopen : Eval.openScope (some f.closure) m = .ok opened m') :
    ComesTo ⟨steps, scope, .call (.function f) args, m⟩ ⟨steps, opened, .params (f.params.zip args), m'⟩
  | more_params (hfirst : Eval.bindParams scope [pair] m = .ok () m') :
    ComesTo ⟨steps, scope, .params (pair :: rest), m⟩ ⟨steps, scope, .params rest, m'⟩
  | enter (hargs : f.params.length ≤ args.length) (hdepth : m.depth < m.limit)
    (henter : Eval.enter f args m = .ok opened m') :
    ComesTo ⟨steps, scope, .call (.function f) args, m⟩
      ⟨steps, opened, .block f.body, Eval.entered m' opened⟩

/-- The points that a run comes to, step by step. -/
inductive Reaches (first : Point) : Point → Prop where
  | here : Reaches first first
  | next {p q : Point} (h : Reaches first p) (hnext : ComesTo p q) : Reaches first q

/-! ## What is true at all points -/

variable {ℓ : Likeness}

/-- A task that is like itself: its code is, and so are its values. -/
def Task.Like (ℓ : Likeness) : Task → Prop
  | .expression expr => expr.Like ℓ expr
  | .statement stmt => stmt.Like ℓ stmt
  | .block body => Block.Like (Stmt.Like ℓ) ℓ.span body body
  | .arguments before args => Forall₂ (Value.Like ℓ) before before ∧ Forall₂ (Expr.Like ℓ) args args
  | .properties span before literal => ℓ.span span span ∧
    Forall₂ (Record.Like (Value.Like ℓ)) before before ∧
    Forall₂ (Record.Like (Option.Rel (Expr.Like ℓ))) literal literal
  | .declarators _ declared => Forall₂ (Declarator.Like ℓ) declared declared
  | .sequence last stmts => last.Like ℓ last ∧ Forall₂ (Stmt.Like ℓ) stmts stmts
  | .loop condition body _ => condition.Like ℓ condition ∧ Block.Like (Stmt.Like ℓ) ℓ.span body body
  | .call callee args => callee.Like ℓ callee ∧ Forall₂ (Value.Like ℓ) args args
  | .params pairs => Forall₂ (Record.Like (Value.Like ℓ)) pairs pairs

/-- A point that is like itself. -/
structure Point.Like (ℓ : Likeness) (p : Point) : Prop where
  task : p.task.Like ℓ
  machine : p.machine.Like ℓ [] p.machine

theorem Machine.Like.holding {m m' : Machine} {old : List ConsoleEvent} (h : m.Like ℓ old m')
    {owners owners' : List Owner} (howners : Forall₂ (Owner.Like ℓ) owners owners') :
    (m.holding owners).Like ℓ old (m'.holding owners') :=
  { h with owners := List.rel_append howners h.owners }

namespace Likeness.Mirrors

variable {α : Type} {Q : α → α → Prop} {x : Eval α} {m m' : Machine} {a : α} {halt : Halt}

/-- A computation that mirrors itself keeps machines like themselves. -/
theorem of_ok (h : ℓ.Mirrors [] x x Q) (hm : m.Like ℓ [] m) (hx : x m = .ok a m') :
    Q a a ∧ m'.Like ℓ [] m' := by
  rcases h m m hm with ⟨b, r, b', r', hr, hr', hQ, hlike⟩ | ⟨halt, r, halt', r', hr, -⟩
  · cases hx.symm.trans hr
    cases hx.symm.trans hr'
    exact ⟨hQ, hlike⟩
  · cases hx.symm.trans hr

theorem of_error (h : ℓ.Mirrors [] x x Q) (hm : m.Like ℓ [] m) (hx : x m = .error halt m') :
    m'.Like ℓ [] m' := by
  rcases h m m hm with ⟨b, r, b', r', hr, -⟩ | ⟨halt, r, halt', r', hr, hr', -, hlike⟩
  · cases hx.symm.trans hr
  · cases hx.symm.trans hr
    cases hx.symm.trans hr'
    exact hlike

end Likeness.Mirrors

/-- What is done with like code and like values keeps machines like themselves. -/
theorem Task.Like.mirrors (hℓ : ℓ.Computes) {task : Task} (h : task.Like ℓ) (steps : Nat)
    (scope : ScopeId) :
    ℓ.Mirrors [] (task.run steps scope) (task.run steps scope) (Forall₂ (Value.Like ℓ)) := by
  obtain ⟨heval, hexec, hblock⟩ := Likeness.evaluation hℓ [] steps
  have hone : ∀ v v' : Value, v.Like ℓ v' → Forall₂ (Value.Like ℓ) [v] [v'] := fun _ _ hv =>
    .cons hv .nil
  cases task with
  | expression expr => exact (heval scope _ _ h).map hone
  | statement stmt => exact (hexec scope _ _ h).map hone
  | block body => exact (hblock scope _ _ h).map hone
  | arguments before args => exact .arguments (heval scope) h.1 h.2
  | properties span before literal =>
    refine (Likeness.Mirrors.properties (heval scope) scope h.1 h.2.1 h.2.2).map fun _ _ hfields => ?_
    exact Record.like_values hfields
  | declarators constant declared =>
    exact (Likeness.Mirrors.declarators (heval scope) scope constant h).map fun _ _ _ => .nil
  | sequence last stmts => exact (Likeness.Mirrors.sequence (hexec scope) h.1 h.2).map hone
  | loop condition body rounds =>
    have htest : ℓ.Mirrors [] (Value.isTruthy <$> evaluate steps condition scope)
        (Value.isTruthy <$> evaluate steps condition scope) (· = ·) :=
      (heval scope _ _ h.1).map fun _ _ hv => hv.isTruthy.symm
    have hround : ℓ.Mirrors [] (discard (executeBlock steps body scope))
        (discard (executeBlock steps body scope)) fun _ _ => True :=
      (hblock scope _ _ h.2).map fun _ _ _ => trivial
    exact (htest.repeatWhile hround rounds).map fun _ _ _ => .nil
  | call callee args => exact (Likeness.Mirrors.call hblock h.1 h.2).map hone
  | params pairs => exact (Likeness.Mirrors.bindParams scope h).map fun _ _ _ => .nil

/-- The operands of an expression that is like itself. -/
theorem Expr.Like.operands {e : Expr} (h : e.Like ℓ e) : ∀ x ∈ e.operands, x.Like ℓ x := by
  cases e with
  | assignment target value span =>
    obtain ⟨⟩ := h
    rename_i hvalue _
    cases target <;> simp_all [Expr.operands]
  | member owner property computed span =>
    obtain ⟨⟩ := h
    cases property <;> cases computed <;> simp_all [Expr.operands]
  | _ =>
    obtain ⟨⟩ := h
    simp_all [Expr.operands]

/-- **What a run comes to from a point is like itself if the point is.** -/
theorem ComesTo.like (hℓ : ℓ.Computes) {p q : Point} (h : ComesTo p q) (hp : p.Like ℓ) : q.Like ℓ := by
  obtain ⟨htask, hm⟩ := hp
  obtain ⟨heval, hexec, hblock⟩ := Likeness.evaluation hℓ [] q.steps
  -- What was evaluated on the way, and the machine after it.
  have hvalue : ∀ {e scope m v m'}, e.Like ℓ e → m.Like ℓ [] m →
      evaluate q.steps e scope m = .ok v m' → v.Like ℓ v ∧ m'.Like ℓ [] m' :=
    fun he hm h => (heval _ _ _ he).of_ok hm h
  have howner : ∀ {v : Value}, v.Like ℓ v → Forall₂ (Owner.Like ℓ) [.value v] [.value v] :=
    fun hv => .cons (.value hv) .nil
  cases h with
  | operand h => exact ⟨htask.operands _ (by simp [h]), hm⟩
  | second h hfirst =>
    obtain ⟨hv, hm'⟩ := hvalue (htask.operands _ (by simp [h])) hm hfirst
    exact ⟨htask.operands _ (by simp [h]), hm'.holding (howner hv)⟩
  | object =>
    obtain ⟨⟩ := htask
    rename_i hproperties hspan
    exact ⟨⟨hspan, .nil, hproperties⟩, hm⟩
  | arguments hcallee =>
    obtain ⟨⟩ := htask
    rename_i hlike hargs hspan
    obtain ⟨hv, hm'⟩ := hvalue hlike hm hcallee
    exact ⟨⟨.nil, hargs⟩, hm'.holding (howner hv)⟩
  | call hcallee harguments =>
    obtain ⟨⟩ := htask
    rename_i hlike hargs hspan
    obtain ⟨hv, hm'⟩ := hvalue hlike hm hcallee
    obtain ⟨hvs, hm''⟩ :=
      (Likeness.Mirrors.arguments (heval _) .nil hargs).of_ok (hm'.holding (howner hv)) harguments
    exact ⟨⟨hv, hvs⟩, hm''⟩
  | declaration =>
    obtain ⟨⟩ := htask
    rename_i hdeclarators hspan
    exact ⟨hdeclarators, hm⟩
  | condition =>
    obtain ⟨⟩ := htask
    rename_i hcondition hconsequent halternate hspan
    exact ⟨hcondition, hm⟩
  | consequent hholds _ =>
    obtain ⟨⟩ := htask
    rename_i hcondition hconsequent halternate hspan
    exact ⟨hconsequent, (hvalue hcondition hm hholds).2⟩
  | alternate hholds _ =>
    obtain ⟨⟩ := htask
    rename_i hcondition hconsequent halternate hspan
    obtain ⟨⟩ := halternate
    rename_i halternate
    exact ⟨halternate, (hvalue hcondition hm hholds).2⟩
  | loop =>
    obtain ⟨⟩ := htask
    rename_i hcondition hbody hspan
    exact ⟨⟨hcondition, hbody⟩, hm⟩
  | block =>
    obtain ⟨⟩ := htask
    rename_i hbody
    exact ⟨hbody, hm⟩
  | expression =>
    obtain ⟨⟩ := htask
    rename_i hexpr
    exact ⟨hexpr, hm⟩
  | body =>
    obtain ⟨hbody, -⟩ := htask
    exact ⟨⟨.null, hbody⟩, hm⟩
  | argument =>
    obtain ⟨hbefore, hargs⟩ := htask
    obtain ⟨harg, -⟩ := List.forall₂_cons.mp hargs
    exact ⟨harg, hm.holding (List.rel_map (fun _ _ hv => .value hv) hbefore)⟩
  | more_arguments hfirst =>
    obtain ⟨hbefore, hargs⟩ := htask
    obtain ⟨harg, hrest⟩ := List.forall₂_cons.mp hargs
    obtain ⟨hvs, hm'⟩ :=
      (Likeness.Mirrors.arguments (heval _) hbefore (.cons harg .nil)).of_ok hm hfirst
    exact ⟨⟨hvs, hrest⟩, hm'⟩
  | property =>
    obtain ⟨hspan, hbefore, hliteral⟩ := htask
    obtain ⟨⟨hproperty⟩, -⟩ := List.forall₂_cons.mp hliteral
    obtain ⟨⟩ := hproperty
    rename_i hexpr
    refine ⟨hexpr, hm.holding (List.rel_map (fun _ _ hentry => ?_) hbefore)⟩
    obtain ⟨hv⟩ := hentry
    exact .value hv
  | more_properties hfirst =>
    obtain ⟨hspan, hbefore, hliteral⟩ := htask
    obtain ⟨hproperty, hrest⟩ := List.forall₂_cons.mp hliteral
    obtain ⟨hfields, hm'⟩ := (Likeness.Mirrors.properties (heval _) _ hspan hbefore
      (.cons hproperty .nil)).of_ok hm hfirst
    exact ⟨⟨hspan, hfields, hrest⟩, hm'⟩
  | init hinit =>
    obtain ⟨hdeclarator, -⟩ := List.forall₂_cons.mp htask
    have hexpr := hdeclarator.init
    rw [hinit] at hexpr
    obtain ⟨⟩ := hexpr
    rename_i hexpr
    exact ⟨hexpr, hm⟩
  | more_declarators hfirst =>
    obtain ⟨hdeclarator, hrest⟩ := List.forall₂_cons.mp htask
    obtain ⟨-, hm'⟩ := (Likeness.Mirrors.declarators (heval _) _ _
      (.cons hdeclarator .nil)).of_ok hm hfirst
    exact ⟨hrest, hm'⟩
  | statement =>
    obtain ⟨hlast, hstmts⟩ := htask
    obtain ⟨hstmt, -⟩ := List.forall₂_cons.mp hstmts
    exact ⟨hstmt, hm.holding (howner hlast)⟩
  | more_statements hfirst =>
    obtain ⟨hlast, hstmts⟩ := htask
    obtain ⟨hstmt, hrest⟩ := List.forall₂_cons.mp hstmts
    obtain ⟨hv, hm'⟩ := (Likeness.Mirrors.sequence (hexec _) hlast (.cons hstmt .nil)).of_ok hm hfirst
    exact ⟨⟨hv, hrest⟩, hm'⟩
  | test => exact ⟨htask.1, hm⟩
  | round hcondition _ => exact ⟨htask.2, (hvalue htask.1 hm hcondition).2⟩
  | more_rounds hcondition _ hbody =>
    obtain ⟨-, hm'⟩ := hvalue htask.1 hm hcondition
    obtain ⟨-, hm''⟩ := (hblock _ _ _ htask.2).of_ok hm' hbody
    exact ⟨htask, hm''⟩
  | params _ _ hopen =>
    obtain ⟨-, hargs⟩ := htask
    obtain ⟨-, hm'⟩ := (Likeness.Mirrors.openScope _).of_ok hm hopen
    exact ⟨Likeness.Mirrors.zip _ hargs, hm'⟩
  | more_params hfirst =>
    obtain ⟨hpair, hrest⟩ := List.forall₂_cons.mp htask
    obtain ⟨-, hm'⟩ := (Likeness.Mirrors.bindParams _ (.cons hpair .nil)).of_ok hm hfirst
    exact ⟨hrest, hm'⟩
  | enter _ _ henter =>
    obtain ⟨hcallee, hargs⟩ := htask
    obtain ⟨⟩ := hcallee
    rename_i hf
    obtain ⟨-, hm'⟩ := (Likeness.Mirrors.enter hf hargs).of_ok hm henter
    exact ⟨hf.body, hm'.entered _⟩

/-- **What holds of the first point of a run holds of all of them.** -/
theorem Reaches.like (hℓ : ℓ.Computes) {first p : Point} (h : Reaches first p)
    (hfirst : first.Like ℓ) : p.Like ℓ := by
  induction h with
  | here => exact hfirst
  | next _ hnext ih => exact hnext.like hℓ ih

/-- What begins at a point that is like itself ends as such. -/
theorem Point.Like.ending (hℓ : ℓ.Computes) {p : Point} (h : p.Like ℓ) :
    (∀ vs m, p.ending = .ok vs m → Forall₂ (Value.Like ℓ) vs vs ∧ m.Like ℓ [] m) ∧
      ∀ halt m, p.ending = .error halt m → m.Like ℓ [] m :=
  have hmirrors := h.task.mirrors hℓ p.steps p.scope
  ⟨fun _ _ => hmirrors.of_ok h.machine, fun _ _ => hmirrors.of_error h.machine⟩

end Scriptlet
