import Scriptlet.Program

/-!
# What code may contain

A `Code` says what some code may contain: at which places its parts may stand, and whether there may
be loops. `Expr.Within` and `Stmt.Within` say of every part of an expression or a statement, bodies of
functions included, that it keeps to this; they have one case for each constructor, so an induction on
them is an induction on the syntax.

That a statement has no loop can be computed (`Stmt.loopFree`).
-/

namespace Scriptlet

/-- What some code may contain. -/
structure Code where
  place : Span → Prop
  loops : Prop

variable {code : Code}

/-- Expressions whose parts stand at places of some code. -/
inductive Expr.Within (code : Code) : Expr → Prop where
  | identifier {name : String} {span : Span} (hspan : code.place span) :
    Within code (.identifier name span)
  | number {value : Number} {span : Span} (hspan : code.place span) :
    Within code (.number value span)
  | text {value : String} {span : Span} (hspan : code.place span) : Within code (.text value span)
  | null {span : Span} (hspan : code.place span) : Within code (.null span)
  | object {properties : List (String × Option Expr)} {span : Span} (hspan : code.place span)
    (hparts : ∀ key expr, (key, some expr) ∈ properties → Within code expr) :
    Within code (.object properties span)
  | assignment {target value : Expr} {span : Span} (hspan : code.place span)
    (htarget : Within code target) (hvalue : Within code value) :
    Within code (.assignment target value span)
  | binary {left right : Expr} {op : BinaryOp} {span : Span} (hspan : code.place span)
    (hleft : Within code left) (hright : Within code right) :
    Within code (.binary left op right span)
  | unary {op : UnaryOp} {operand : Expr} {span : Span} (hspan : code.place span)
    (hoperand : Within code operand) : Within code (.unary op operand span)
  | logical {left right : Expr} {op : LogicalOp} {span : Span} (hspan : code.place span)
    (hleft : Within code left) (hright : Within code right) :
    Within code (.logical left op right span)
  | member {object property : Expr} {computed : Bool} {span : Span} (hspan : code.place span)
    (hobject : Within code object) (hproperty : Within code property) :
    Within code (.member object property computed span)
  | call {callee : Expr} {args : List Expr} {span : Span} (hspan : code.place span)
    (hcallee : Within code callee) (hargs : ∀ arg ∈ args, Within code arg) :
    Within code (.call callee args span)

/-- Variables declared at places of some code, with first values from it. -/
structure Declarator.Within (code : Code) (declarator : Declarator) : Prop where
  span : code.place declarator.span
  init : ∀ expr, declarator.init = some expr → expr.Within code

/-- Statements whose parts belong to some code. -/
inductive Stmt.Within (code : Code) : Stmt → Prop where
  | declaration {declarators : List Declarator} {word : DeclarationWord} {constant : Bool}
    {span : Span} (hdeclarators : ∀ declarator ∈ declarators, declarator.Within code) :
    Within code (.declaration declarators word constant span)
  | function {name : String} {params : List String} {body : Block Stmt} {span : Span}
    (hspan : code.place span) (hbody : ∀ stmt ∈ body.body, Within code stmt) :
    Within code (.function name params body span)
  | conditional {condition : Expr} {consequent : Block Stmt} {alternate : Option Stmt} {span : Span}
    (hcondition : condition.Within code) (hconsequent : ∀ stmt ∈ consequent.body, Within code stmt)
    (halternate : ∀ stmt, alternate = some stmt → Within code stmt) :
    Within code (.conditional condition consequent alternate span)
  | loop {condition : Expr} {body : Block Stmt} {span : Span} (hloops : code.loops)
    (hcondition : condition.Within code) (hbody : ∀ stmt ∈ body.body, Within code stmt) :
    Within code (.loop condition body span)
  | block {block : Block Stmt} (hbody : ∀ stmt ∈ block.body, Within code stmt) :
    Within code (.block block)
  | expression {expr : Expr} (hexpr : expr.Within code) : Within code (.expression expr)

/-- The statements of a block belong to some code. -/
def Block.Within (code : Code) (block : Block Stmt) : Prop := ∀ stmt ∈ block.body, stmt.Within code

theorem Expr.Within.place {e : Expr} (h : e.Within code) : code.place e.span := by
  cases h <;> assumption

/-- Where code may stand anywhere, every expression may. -/
theorem Expr.within_of_forall (h : ∀ span, code.place span) : ∀ e : Expr, e.Within code
  | .identifier _ span => .identifier (h span)
  | .number _ span => .number (h span)
  | .text _ span => .text (h span)
  | .null span => .null (h span)
  | .object properties span => .object (h span) fun key expr hmem =>
    have : sizeOf expr < sizeOf properties := by
      have hpair := List.sizeOf_lt_of_mem hmem
      simp only [Prod.mk.sizeOf_spec, Option.some.sizeOf_spec] at hpair
      omega
    within_of_forall h expr
  | .assignment target value span =>
    .assignment (h span) (within_of_forall h target) (within_of_forall h value)
  | .binary left _ right span =>
    .binary (h span) (within_of_forall h left) (within_of_forall h right)
  | .unary _ operand span => .unary (h span) (within_of_forall h operand)
  | .logical left _ right span =>
    .logical (h span) (within_of_forall h left) (within_of_forall h right)
  | .member owner property _ span =>
    .member (h span) (within_of_forall h owner) (within_of_forall h property)
  | .call callee args span => .call (h span) (within_of_forall h callee) fun arg _ =>
    within_of_forall h arg

/-! ## Code without loops -/

mutual

/-- Whether there is no loop in a statement, bodies of functions included. -/
def Stmt.loopFree : Stmt → Bool
  | .declaration .. | .expression _ => true
  | .function _ _ body _ | .block body => body.loopFree
  | .conditional _ consequent alternate _ => consequent.loopFree && alternateLoopFree alternate
  | .loop .. => false

/-- Whether there is no loop in a block. -/
def Block.loopFree : Block Stmt → Bool
  | ⟨body, _⟩ => bodyLoopFree body

/-- Whether there is no loop in some statements. -/
def bodyLoopFree : List Stmt → Bool
  | [] => true
  | stmt :: rest => stmt.loopFree && bodyLoopFree rest

/-- Whether there is no loop in the alternate of a conditional. -/
def alternateLoopFree : Option Stmt → Bool
  | none => true
  | some stmt => stmt.loopFree

end

mutual

/-- A statement belongs to all code that may stand anywhere, if it has no loop or loops are allowed. -/
theorem Stmt.within_of_loopFree (h : ∀ span, code.place span) :
    ∀ s : Stmt, (¬code.loops → s.loopFree = true) → s.Within code
  | .declaration _ _ _ _, _ => .declaration fun declarator _ =>
    ⟨h declarator.span, fun expr _ => expr.within_of_forall h⟩
  | .function _ _ body span, hs => .function (h span) (body.within_of_loopFree h hs)
  | .conditional condition consequent alternate _, hs => by
    simp only [Stmt.loopFree, Bool.and_eq_true] at hs
    refine .conditional (condition.within_of_forall h)
      (consequent.within_of_loopFree h fun hno => (hs hno).1) ?_
    exact within_of_alternateLoopFree h alternate fun hno => (hs hno).2
  | .loop condition body _, hs => by
    have hloops : code.loops := Classical.byContradiction fun hno => by
      simpa [Stmt.loopFree] using hs hno
    refine .loop hloops (condition.within_of_forall h) ?_
    exact body.within_of_loopFree h fun hno => absurd hloops hno
  | .block body, hs => .block (body.within_of_loopFree h hs)
  | .expression expr, _ => .expression (expr.within_of_forall h)

theorem Block.within_of_loopFree (h : ∀ span, code.place span) :
    ∀ b : Block Stmt, (¬code.loops → b.loopFree = true) → Block.Within code b
  | ⟨body, _⟩, hbody => within_of_bodyLoopFree h body hbody

theorem within_of_bodyLoopFree (h : ∀ span, code.place span) :
    ∀ body : List Stmt, (¬code.loops → bodyLoopFree body = true) → ∀ stmt ∈ body, stmt.Within code
  | [], _ => List.forall_mem_nil _
  | stmt :: rest, hbody => by
    simp only [bodyLoopFree, Bool.and_eq_true] at hbody
    exact List.forall_mem_cons.mpr ⟨stmt.within_of_loopFree h fun hno => (hbody hno).1,
      within_of_bodyLoopFree h rest fun hno => (hbody hno).2⟩

theorem within_of_alternateLoopFree (h : ∀ span, code.place span) :
    ∀ alternate : Option Stmt, (¬code.loops → alternateLoopFree alternate = true) →
      ∀ stmt, alternate = some stmt → stmt.Within code
  | some stmt, hs, _, rfl => stmt.within_of_loopFree h hs

end

end Scriptlet
