import Mathlib.Data.List.Forall2
import Mathlib.Data.Option.Basic
import Scriptlet.Fault
import Scriptlet.Program
import Scriptlet.Record

/-!
# Like pieces of code

Two pieces of code are alike if they are the same but for their spans. A `Likeness` says how the spans
may differ, and what is required of the numbers and the members that are written in them. The relations
have one case for each constructor.

If the spans are known to be moved by a function, the second piece is the first one with its spans
moved (`Stmt.Like.eq_mapSpans`).
-/

namespace Scriptlet

/-- How spans compare, what numbers are like, and whether members without brackets have names. -/
structure Likeness where
  span : Span → Span → Prop
  number : Number → Prop
  named : Prop

/-- Whether an expression is nothing but a name. -/
def Expr.IsName (e : Expr) : Prop := ∃ name span, e = .identifier name span

/-- Entries of one name with related contents. -/
inductive Record.Like {α β : Type} (R : α → β → Prop) : String × α → String × β → Prop where
  | entry {name : String} {a : α} {b : β} (h : R a b) : Like R (name, a) (name, b)

/-- Related lists stay so when what they begin with is dropped. -/
theorem forall₂_dropWhile {α β : Type} {R : α → β → Prop} {p : α → Bool} {p' : β → Bool}
    (hp : ∀ a b, R a b → p' b = p a) {as : List α} {bs : List β} (h : List.Forall₂ R as bs) :
    List.Forall₂ R (as.dropWhile p) (bs.dropWhile p') := by
  induction h with
  | nil => exact .nil
  | @cons a b as bs hab hrest ih =>
    rw [List.dropWhile_cons, List.dropWhile_cons, hp a b hab]
    split
    · exact ih
    · exact .cons hab hrest

/-- Like expressions. -/
inductive Expr.Like (ℓ : Likeness) : Expr → Expr → Prop where
  | identifier {name : String} {span span' : Span} (hspan : ℓ.span span span') :
    Like ℓ (.identifier name span) (.identifier name span')
  | number {value : Number} {span span' : Span} (hvalue : ℓ.number value)
    (hspan : ℓ.span span span') : Like ℓ (.number value span) (.number value span')
  | text {value : String} {span span' : Span} (hspan : ℓ.span span span') :
    Like ℓ (.text value span) (.text value span')
  | null {span span' : Span} (hspan : ℓ.span span span') : Like ℓ (.null span) (.null span')
  | object {properties properties' : List (String × Option Expr)} {span span' : Span}
    (hproperties : List.Forall₂ (Record.Like (Option.Rel (Like ℓ))) properties properties')
    (hspan : ℓ.span span span') : Like ℓ (.object properties span) (.object properties' span')
  | assignment {target target' value value' : Expr} {span span' : Span}
    (htarget : Like ℓ target target') (hvalue : Like ℓ value value') (hspan : ℓ.span span span') :
    Like ℓ (.assignment target value span) (.assignment target' value' span')
  | binary {left left' right right' : Expr} {op : BinaryOp} {span span' : Span}
    (hleft : Like ℓ left left') (hright : Like ℓ right right') (hspan : ℓ.span span span') :
    Like ℓ (.binary left op right span) (.binary left' op right' span')
  | unary {op : UnaryOp} {operand operand' : Expr} {span span' : Span}
    (hoperand : Like ℓ operand operand') (hspan : ℓ.span span span') :
    Like ℓ (.unary op operand span) (.unary op operand' span')
  | logical {left left' right right' : Expr} {op : LogicalOp} {span span' : Span}
    (hleft : Like ℓ left left') (hright : Like ℓ right right') (hspan : ℓ.span span span') :
    Like ℓ (.logical left op right span) (.logical left' op right' span')
  | member {object object' property property' : Expr} {computed : Bool} {span span' : Span}
    (hobject : Like ℓ object object') (hproperty : Like ℓ property property')
    (hspan : ℓ.span span span') (hname : ℓ.named → computed = false → property.IsName) :
    Like ℓ (.member object property computed span) (.member object' property' computed span')
  | call {callee callee' : Expr} {args args' : List Expr} {span span' : Span}
    (hcallee : Like ℓ callee callee') (hargs : List.Forall₂ (Like ℓ) args args')
    (hspan : ℓ.span span span') : Like ℓ (.call callee args span) (.call callee' args' span')

/-- Like variables of a declaration. -/
structure Declarator.Like (ℓ : Likeness) (d d' : Declarator) : Prop where
  name : d'.name = d.name
  init : Option.Rel (Expr.Like ℓ) d.init d'.init
  span : ℓ.span d.span d'.span

/-- Blocks at related places with related statements. -/
inductive Block.Like {Statement : Type} (R : Statement → Statement → Prop)
    (places : Span → Span → Prop) : Block Statement → Block Statement → Prop where
  | block {body body' : List Statement} {span span' : Span} (hbody : List.Forall₂ R body body')
    (hspan : places span span') : Like R places ⟨body, span⟩ ⟨body', span'⟩

/-- Like statements. -/
inductive Stmt.Like (ℓ : Likeness) : Stmt → Stmt → Prop where
  | declaration {declarators declarators' : List Declarator} {word : DeclarationWord}
    {constant : Bool} {span span' : Span}
    (hdeclarators : List.Forall₂ (Declarator.Like ℓ) declarators declarators')
    (hspan : ℓ.span span span') :
    Like ℓ (.declaration declarators word constant span) (.declaration declarators' word constant span')
  | function {name : String} {params : List String} {body body' : Block Stmt} {span span' : Span}
    (hbody : Block.Like (Like ℓ) ℓ.span body body') (hspan : ℓ.span span span') :
    Like ℓ (.function name params body span) (.function name params body' span')
  | conditional {condition condition' : Expr} {consequent consequent' : Block Stmt}
    {alternate alternate' : Option Stmt} {span span' : Span}
    (hcondition : Expr.Like ℓ condition condition')
    (hconsequent : Block.Like (Like ℓ) ℓ.span consequent consequent')
    (halternate : Option.Rel (Like ℓ) alternate alternate') (hspan : ℓ.span span span') :
    Like ℓ (.conditional condition consequent alternate span)
      (.conditional condition' consequent' alternate' span')
  | loop {condition condition' : Expr} {body body' : Block Stmt} {span span' : Span}
    (hcondition : Expr.Like ℓ condition condition')
    (hbody : Block.Like (Like ℓ) ℓ.span body body') (hspan : ℓ.span span span') :
    Like ℓ (.loop condition body span) (.loop condition' body' span')
  | block {block block' : Block Stmt} (hblock : Block.Like (Like ℓ) ℓ.span block block') :
    Like ℓ (.block block) (.block block')
  | expression {expr expr' : Expr} (hexpr : Expr.Like ℓ expr expr') :
    Like ℓ (.expression expr) (.expression expr')

/-- Failures of one stage for the same reason, at related places. -/
structure Failure.Like (ℓ : Likeness) (phase : Phase) (f f' : Failure) : Prop where
  fault : f'.fault = f.fault
  phase : f.phase = phase
  span : Option.Rel ℓ.span f.span f'.span

variable {ℓ : Likeness}

theorem Expr.Like.span {e e' : Expr} (h : e.Like ℓ e') : ℓ.span e.span e'.span := by
  cases h <;> assumption

/-! ## Likeness with itself -/

/-- Nothing is required of numbers and members, and a span may stay as it is. -/
structure Likeness.IsRefl (ℓ : Likeness) : Prop where
  span : ∀ span, ℓ.span span span
  number : ∀ n, ℓ.number n
  named : ¬ℓ.named

mutual

theorem Expr.like_refl (hℓ : ℓ.IsRefl) : ∀ e : Expr, e.Like ℓ e
  | .identifier .. => .identifier (hℓ.span _)
  | .number .. => .number (hℓ.number _) (hℓ.span _)
  | .text .. => .text (hℓ.span _)
  | .null _ => .null (hℓ.span _)
  | .object properties _ => .object (Expr.like_refl_properties hℓ properties) (hℓ.span _)
  | .assignment target value _ =>
    .assignment (target.like_refl hℓ) (value.like_refl hℓ) (hℓ.span _)
  | .binary left _ right _ => .binary (left.like_refl hℓ) (right.like_refl hℓ) (hℓ.span _)
  | .unary _ operand _ => .unary (operand.like_refl hℓ) (hℓ.span _)
  | .logical left _ right _ => .logical (left.like_refl hℓ) (right.like_refl hℓ) (hℓ.span _)
  | .member owner property _ _ =>
    .member (owner.like_refl hℓ) (property.like_refl hℓ) (hℓ.span _) fun h => absurd h hℓ.named
  | .call callee args _ => .call (callee.like_refl hℓ) (Expr.like_refl_all hℓ args) (hℓ.span _)

theorem Expr.like_refl_all (hℓ : ℓ.IsRefl) : ∀ es : List Expr, List.Forall₂ (Expr.Like ℓ) es es
  | [] => .nil
  | e :: es => .cons (e.like_refl hℓ) (Expr.like_refl_all hℓ es)

theorem Expr.like_refl_properties (hℓ : ℓ.IsRefl) : ∀ properties : List (String × Option Expr),
    List.Forall₂ (Record.Like (Option.Rel (Expr.Like ℓ))) properties properties
  | [] => .nil
  | (_, none) :: rest => .cons (.entry .none) (Expr.like_refl_properties hℓ rest)
  | (_, some e) :: rest =>
    .cons (.entry (.some (e.like_refl hℓ))) (Expr.like_refl_properties hℓ rest)

end

theorem Declarator.like_refl (hℓ : ℓ.IsRefl) (d : Declarator) : d.Like ℓ d := by
  refine ⟨rfl, ?_, hℓ.span _⟩
  cases d.init with
  | none => exact .none
  | some e => exact .some (e.like_refl hℓ)

mutual

theorem Stmt.like_refl (hℓ : ℓ.IsRefl) : ∀ s : Stmt, s.Like ℓ s
  | .declaration .. =>
    .declaration (List.forall₂_same.mpr fun d _ => d.like_refl hℓ) (hℓ.span _)
  | .function _ _ body _ => .function (Stmt.like_refl_block hℓ body) (hℓ.span _)
  | .conditional condition consequent alternate _ =>
    .conditional (condition.like_refl hℓ) (Stmt.like_refl_block hℓ consequent)
      (Stmt.like_refl_alternate hℓ alternate) (hℓ.span _)
  | .loop condition body _ =>
    .loop (condition.like_refl hℓ) (Stmt.like_refl_block hℓ body) (hℓ.span _)
  | .block body => .block (Stmt.like_refl_block hℓ body)
  | .expression e => .expression (e.like_refl hℓ)

theorem Stmt.like_refl_block (hℓ : ℓ.IsRefl) :
    ∀ b : Block Stmt, Block.Like (Stmt.Like ℓ) ℓ.span b b
  | ⟨body, _⟩ => .block (Stmt.like_refl_all hℓ body) (hℓ.span _)

theorem Stmt.like_refl_all (hℓ : ℓ.IsRefl) :
    ∀ body : List Stmt, List.Forall₂ (Stmt.Like ℓ) body body
  | [] => .nil
  | s :: rest => .cons (s.like_refl hℓ) (Stmt.like_refl_all hℓ rest)

theorem Stmt.like_refl_alternate (hℓ : ℓ.IsRefl) :
    ∀ s : Option Stmt, Option.Rel (Stmt.Like ℓ) s s
  | none => .none
  | some s => .some (s.like_refl hℓ)

end

/-! ## Moving spans -/

mutual

/-- An expression with a function applied to all its spans. -/
def Expr.mapSpans (f : Span → Span) : Expr → Expr
  | .identifier name span => .identifier name (f span)
  | .number value span => .number value (f span)
  | .text value span => .text value (f span)
  | .null span => .null (f span)
  | .object properties span => .object (Expr.mapSpansOfProperties f properties) (f span)
  | .assignment target value span =>
    .assignment (target.mapSpans f) (value.mapSpans f) (f span)
  | .binary left op right span => .binary (left.mapSpans f) op (right.mapSpans f) (f span)
  | .unary op operand span => .unary op (operand.mapSpans f) (f span)
  | .logical left op right span => .logical (left.mapSpans f) op (right.mapSpans f) (f span)
  | .member owner property computed span =>
    .member (owner.mapSpans f) (property.mapSpans f) computed (f span)
  | .call callee args span => .call (callee.mapSpans f) (Expr.mapSpansOfAll f args) (f span)

/-- The same of a list of expressions. -/
def Expr.mapSpansOfAll (f : Span → Span) : List Expr → List Expr
  | [] => []
  | expr :: rest => expr.mapSpans f :: Expr.mapSpansOfAll f rest

/-- The same of the properties of an object literal. -/
def Expr.mapSpansOfProperties (f : Span → Span) :
    List (String × Option Expr) → List (String × Option Expr)
  | [] => []
  | (key, none) :: rest => (key, none) :: Expr.mapSpansOfProperties f rest
  | (key, some expr) :: rest => (key, some (expr.mapSpans f)) :: Expr.mapSpansOfProperties f rest

end

/-- A variable of a declaration with a function applied to all its spans. -/
def Declarator.mapSpans (f : Span → Span) (d : Declarator) : Declarator :=
  ⟨d.name, d.init.map (Expr.mapSpans f), f d.span⟩

mutual

/-- A statement with a function applied to all its spans. -/
def Stmt.mapSpans (f : Span → Span) : Stmt → Stmt
  | .declaration declarators word constant span =>
    .declaration (declarators.map (Declarator.mapSpans f)) word constant (f span)
  | .function name params body span => .function name params (Stmt.mapSpansOfBlock f body) (f span)
  | .conditional condition consequent alternate span =>
    .conditional (condition.mapSpans f) (Stmt.mapSpansOfBlock f consequent)
      (Stmt.mapSpansOfAlternate f alternate) (f span)
  | .loop condition body span => .loop (condition.mapSpans f) (Stmt.mapSpansOfBlock f body) (f span)
  | .block body => .block (Stmt.mapSpansOfBlock f body)
  | .expression expr => .expression (expr.mapSpans f)

/-- The same of a block. -/
def Stmt.mapSpansOfBlock (f : Span → Span) : Block Stmt → Block Stmt
  | ⟨body, span⟩ => ⟨Stmt.mapSpansOfAll f body, f span⟩

/-- The same of a list of statements. -/
def Stmt.mapSpansOfAll (f : Span → Span) : List Stmt → List Stmt
  | [] => []
  | stmt :: rest => stmt.mapSpans f :: Stmt.mapSpansOfAll f rest

/-- The same of the alternate of a conditional. -/
def Stmt.mapSpansOfAlternate (f : Span → Span) : Option Stmt → Option Stmt
  | none => none
  | some stmt => some (stmt.mapSpans f)

end

section MapSpans

variable {f : Span → Span}

mutual

/-- **Code that is like a piece with moved spans is that piece with moved spans.** -/
theorem Expr.Like.eq_mapSpans (hf : ∀ s s', ℓ.span s s' → s' = f s) :
    ∀ {e e' : Expr}, e.Like ℓ e' → e' = e.mapSpans f
  | .identifier .., _, .identifier hspan => by rw [hf _ _ hspan, Expr.mapSpans]
  | .number .., _, .number _ hspan => by rw [hf _ _ hspan, Expr.mapSpans]
  | .text .., _, .text hspan => by rw [hf _ _ hspan, Expr.mapSpans]
  | .null .., _, .null hspan => by rw [hf _ _ hspan, Expr.mapSpans]
  | .object .., _, .object hproperties hspan => by
    rw [hf _ _ hspan, Expr.eq_mapSpansOfProperties hf hproperties, Expr.mapSpans]
  | .assignment .., _, .assignment htarget hvalue hspan => by
    rw [hf _ _ hspan, htarget.eq_mapSpans hf, hvalue.eq_mapSpans hf, Expr.mapSpans]
  | .binary .., _, .binary hleft hright hspan => by
    rw [hf _ _ hspan, hleft.eq_mapSpans hf, hright.eq_mapSpans hf, Expr.mapSpans]
  | .unary .., _, .unary hoperand hspan => by
    rw [hf _ _ hspan, hoperand.eq_mapSpans hf, Expr.mapSpans]
  | .logical .., _, .logical hleft hright hspan => by
    rw [hf _ _ hspan, hleft.eq_mapSpans hf, hright.eq_mapSpans hf, Expr.mapSpans]
  | .member .., _, .member hobject hproperty hspan _ => by
    rw [hf _ _ hspan, hobject.eq_mapSpans hf, hproperty.eq_mapSpans hf, Expr.mapSpans]
  | .call .., _, .call hcallee hargs hspan => by
    rw [hf _ _ hspan, hcallee.eq_mapSpans hf, Expr.eq_mapSpansOfAll hf hargs, Expr.mapSpans]

theorem Expr.eq_mapSpansOfAll (hf : ∀ s s', ℓ.span s s' → s' = f s) :
    ∀ {es es' : List Expr}, List.Forall₂ (Expr.Like ℓ) es es' → es' = Expr.mapSpansOfAll f es
  | [], [], .nil => by rw [Expr.mapSpansOfAll]
  | _ :: _, _ :: _, .cons hfirst hrest => by
    rw [hfirst.eq_mapSpans hf, Expr.eq_mapSpansOfAll hf hrest, Expr.mapSpansOfAll]

theorem Expr.eq_mapSpansOfProperties (hf : ∀ s s', ℓ.span s s' → s' = f s) :
    ∀ {ps ps' : List (String × Option Expr)},
      List.Forall₂ (Record.Like (Option.Rel (Expr.Like ℓ))) ps ps' →
        ps' = Expr.mapSpansOfProperties f ps
  | [], [], .nil => by rw [Expr.mapSpansOfProperties]
  | (_, none) :: _, (_, none) :: _, .cons (.entry _) hrest => by
    rw [Expr.eq_mapSpansOfProperties hf hrest, Expr.mapSpansOfProperties]
  | (_, some _) :: _, (_, some _) :: _, .cons (.entry (.some hfirst)) hrest => by
    rw [hfirst.eq_mapSpans hf, Expr.eq_mapSpansOfProperties hf hrest, Expr.mapSpansOfProperties]

end

theorem Declarator.Like.eq_mapSpans (hf : ∀ s s', ℓ.span s s' → s' = f s) {d d' : Declarator}
    (h : d.Like ℓ d') : d' = d.mapSpans f := by
  have hinit : d'.init = d.init.map (Expr.mapSpans f) := by
    have hrel := h.init
    revert hrel
    cases d.init <;> cases d'.init <;> rintro ⟨⟩
    · rfl
    · rename_i hexpr
      exact congrArg some (hexpr.eq_mapSpans hf)
  cases d'
  simp only [Declarator.mapSpans, Declarator.mk.injEq]
  exact ⟨h.name, hinit, hf _ _ h.span⟩

theorem Declarator.eq_map_mapSpans (hf : ∀ s s', ℓ.span s s' → s' = f s) {ds ds' : List Declarator}
    (h : List.Forall₂ (Declarator.Like ℓ) ds ds') : ds' = ds.map (Declarator.mapSpans f) := by
  induction h with
  | nil => rfl
  | cons hfirst _ ih => rw [List.map_cons, ih, hfirst.eq_mapSpans hf]

mutual

theorem Stmt.Like.eq_mapSpans (hf : ∀ s s', ℓ.span s s' → s' = f s) :
    ∀ {s s' : Stmt}, s.Like ℓ s' → s' = s.mapSpans f
  | .declaration .., _, .declaration hdeclarators hspan => by
    rw [hf _ _ hspan, Declarator.eq_map_mapSpans hf hdeclarators, Stmt.mapSpans]
  | .function .., _, .function hbody hspan => by
    rw [hf _ _ hspan, Stmt.eq_mapSpansOfBlock hf hbody, Stmt.mapSpans]
  | .conditional .., _, .conditional hcondition hconsequent halternate hspan => by
    rw [hf _ _ hspan, hcondition.eq_mapSpans hf, Stmt.eq_mapSpansOfBlock hf hconsequent,
      Stmt.eq_mapSpansOfAlternate hf halternate, Stmt.mapSpans]
  | .loop .., _, .loop hcondition hbody hspan => by
    rw [hf _ _ hspan, hcondition.eq_mapSpans hf, Stmt.eq_mapSpansOfBlock hf hbody, Stmt.mapSpans]
  | .block .., _, .block hblock => by rw [Stmt.eq_mapSpansOfBlock hf hblock, Stmt.mapSpans]
  | .expression .., _, .expression hexpr => by rw [hexpr.eq_mapSpans hf, Stmt.mapSpans]

theorem Stmt.eq_mapSpansOfBlock (hf : ∀ s s', ℓ.span s s' → s' = f s) :
    ∀ {b b' : Block Stmt}, Block.Like (Stmt.Like ℓ) ℓ.span b b' → b' = Stmt.mapSpansOfBlock f b
  | ⟨_, _⟩, _, .block hbody hspan => by
    rw [hf _ _ hspan, Stmt.eq_mapSpansOfAll hf hbody, Stmt.mapSpansOfBlock]

theorem Stmt.eq_mapSpansOfAll (hf : ∀ s s', ℓ.span s s' → s' = f s) :
    ∀ {body body' : List Stmt}, List.Forall₂ (Stmt.Like ℓ) body body' →
      body' = Stmt.mapSpansOfAll f body
  | [], [], .nil => by rw [Stmt.mapSpansOfAll]
  | _ :: _, _ :: _, .cons hfirst hrest => by
    rw [hfirst.eq_mapSpans hf, Stmt.eq_mapSpansOfAll hf hrest, Stmt.mapSpansOfAll]

theorem Stmt.eq_mapSpansOfAlternate (hf : ∀ s s', ℓ.span s s' → s' = f s) :
    ∀ {o o' : Option Stmt}, Option.Rel (Stmt.Like ℓ) o o' → o' = Stmt.mapSpansOfAlternate f o
  | none, none, .none => by rw [Stmt.mapSpansOfAlternate]
  | some _, some _, .some hstmt => by rw [hstmt.eq_mapSpans hf, Stmt.mapSpansOfAlternate]

end

theorem Stmt.eq_map_mapSpans (hf : ∀ s s', ℓ.span s s' → s' = f s) {program program' : Program}
    (h : List.Forall₂ (Stmt.Like ℓ) program program') : program' = program.map (Stmt.mapSpans f) := by
  induction h with
  | nil => rfl
  | cons hfirst _ ih => rw [List.map_cons, ih, hfirst.eq_mapSpans hf]

end MapSpans

end Scriptlet
