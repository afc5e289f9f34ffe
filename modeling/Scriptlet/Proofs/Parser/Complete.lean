import Scriptlet.Parser.Statement
import Scriptlet.Proofs.Parser.Level

/-!
# Everything written is read

A list of tokens with a semicolon between every two statements of a body writes at most one program,
and the parser gives that program.

The proof is by induction on the derivation. For every part of a program `Phrase.Parses` says what
the parser does with the tokens that write it. Of an expression it says that the parser of its level
comes to the point where it holds the expression and goes on to extend it: an operator behind it may
make it the left operand of a larger one. The parser stops there if the next token does not go on at
this level. That it does not go on at a tighter one is known before, and is what makes the operators
of a level group to the left and those of tighter levels come first.
-/

namespace Scriptlet

open Scriptlet.Parser

namespace Grammar

variable {inner : Parser Expr} {l : Level} {ts ts' : List Token} {t next : Token} {e : Expr}
  {depth : Nat}

/-! ## The parsers of the levels -/

/-- The parser of a level. -/
def Level.parser (inner : Parser Expr) : Level → Parser Expr
  | assignment => Parser.assignment inner
  | object => objectOrLogical inner
  | logical => Parser.logical inner
  | unary => Parser.unary inner
  | comparison => Parser.comparison inner
  | additive => Parser.additive inner
  | multiplicative => Parser.multiplicative inner
  | power => Parser.power inner
  | call => callOrMember inner
  | primary => Parser.primary inner

/-- How the parser of a level extends what it has read. -/
def Level.step (inner : Parser Expr) : Level → Expr → Parser (Option Expr)
  | logical => logicalStep inner
  | comparison => binaryStep comparison.accepts (additive.parser inner)
  | additive => binaryStep additive.accepts (multiplicative.parser inner)
  | multiplicative => binaryStep multiplicative.accepts (power.parser inner)
  | power => binaryStep power.accepts (call.parser inner)
  | call => suffix inner
  | _ => fun _ => return none

/-- The levels that extend what they have read. -/
def Level.grows : Level → Bool
  | logical | comparison | additive | multiplicative | power | call => true
  | _ => false

theorem Level.parser_of_grows (inner : Parser Expr) (h : l.grows = true) :
    l.parser inner = l.next.parser inner >>= grow (l.step inner) := by
  cases l <;> first | rfl | cases h

theorem Level.step_of_accepts (inner : Parser Expr) (h : l.accepts t = true) :
    l.step inner = binaryStep l.accepts (l.next.parser inner) := by
  cases l <;> first | rfl | cases h

theorem binaryStep_none {operand : Parser Expr} (h : l.Ends next) (e : Expr) :
    Accepts (binaryStep l.accepts operand e) [] none next := by
  have haccepts : l.accepts next = false :=
    Bool.eq_false_iff.mpr fun h' => h.continuation_ne (continuation_of_accepts h')
  refine .peek ?_
  rw [Stream.first_nil, haccepts]
  exact .pure _ _

theorem logicalStep_none (h : Level.logical.Ends next) (e : Expr) :
    Accepts (logicalStep inner e) [] none next := by
  have hop : logicalOp? next.kind = none := Option.eq_none_iff_forall_ne_some.mpr fun op hop =>
    h.continuation_ne (continuation_of_logical (logicalOp?_eq_some.mp hop))
  refine .peek ?_
  rw [Stream.first_nil, hop]
  exact .pure _ _

theorem suffix_none (h : Level.call.Ends next) (e : Expr) :
    Accepts (suffix inner e) [] none next := by
  have hkind := mt continuation_of_suffix h.continuation_ne
  push Not at hkind
  exact .reject hkind.1 (.reject hkind.2.1 (.reject hkind.2.2 (.pure _ _)))

/-- Nothing is added to an expression that ends. -/
theorem Level.step_none (h : l.Ends next) (e : Expr) :
    Accepts (l.step inner e) [] none next := by
  cases l with
  | logical => exact logicalStep_none h e
  | comparison | additive | multiplicative | power => exact binaryStep_none h e
  | call => exact suffix_none h e
  | assignment | object | unary | primary => exact .pure _ _

/-- An expression of the next tighter level is one that the parser of a level may begin with. -/
theorem enters_of_tighter (hstarts : Starts ts l.next.begins) (hprimary : l ≠ .primary)
    (h : Accepts (l.next.parser inner) ts e next)
    (hassignment : l = .assignment → Level.assignment.Ends next) :
    Enters (l.parser inner) (l.step inner) ts e next := by
  cases l with
  | logical | comparison | additive | multiplicative | power | call =>
    rw [Level.parser_of_grows inner rfl]
    exact .start h
  | assignment =>
    have hequals := mt continuation_of_equals (hassignment rfl).continuation_ne
    exact .of_accepts (h.bind_last (.reject hequals (.pure _ _))) (.pure _ _)
  | object =>
    refine .of_accepts (.peek ?_) (.pure _ _)
    rw [if_neg (hstarts.first_ne rfl next)]
    exact h
  | unary =>
    refine .of_accepts (.peek ?_) (.pure _ _)
    have hop : unaryOp? (Stream.first ts next).kind = none := by
      have hfirst := hstarts.first next
      cases hkind : (Stream.first ts next).kind <;>
        simp [Level.next, Level.begins, hkind, beginsOperand] at hfirst <;> rfl
    rw [hop]
    exact h
  | primary => exact absurd rfl hprimary

/-! ## What the parser does with a derivation -/

/-- The kinds of token that stand behind statements. -/
def closesStatement (kind : TokenKind) : Bool :=
  kind = .semicolon || kind = .closeBrace || kind = .endOfInput

/-- What the parser does with the tokens that write a part of a program. The depth is that of the
readers of nested expressions, `nesting` that of nested statements; neither has to be larger than the
number of tokens. -/
def Phrase.Parses (ts : List Token) : Phrase → Prop
  | expr l e => ∀ depth next, ts.length ≤ depth + 1 → l.next.Ends next →
      (l = .assignment → Level.assignment.Ends next) →
      Enters (l.parser (expression depth)) (l.step (expression depth)) ts e next
  | arguments args => ∀ depth next, ts.length ≤ depth → next.kind = .closeParen → args ≠ [] →
      Rows (expression depth) next ts args
  | property key value => ∀ depth rest next, ts.length ≤ depth → EndsProperty rest next →
      Accepts (Parser.property (expression depth)) (ts ++ rest) (key, value) next
  | properties fields => ∀ depth next, ts.length ≤ depth → next.kind = .closeBrace →
      Lists .closeBrace (Parser.property (expression depth)) next ts fields
  | declarator constant d => ∀ depth next, ts.length ≤ depth → closes next.kind = true →
      Accepts (Parser.declarator constant (expression depth)) ts d next
  | declarators constant ds => ∀ depth next, ts.length ≤ depth → closes next.kind = true →
      Rows (Parser.declarator constant (expression depth)) next ts ds
  | stmt s => ∀ depth nesting next, ts.length ≤ depth → ts.length ≤ nesting + 1 →
      closesStatement next.kind = true →
      Accepts (statement (expression depth) (nesting + 1)) ts s next
  | alternate s => ∀ depth nesting next, ts.length ≤ depth → ts.length ≤ nesting →
      closesStatement next.kind = true →
      Accepts (Parser.alternate (statement (expression depth) nesting)) ts s next
  | run stmts => ∀ depth nesting next, ts.length ≤ depth → ts.length ≤ nesting →
      next.kind = .closeBrace ∨ next.kind = .endOfInput → Lists next.kind (do
        let stmt ← statement (expression depth) nesting
        skipSemicolons
        return stmt) next ts stmts
  | body stmts => ∀ depth nesting next, ts.length ≤ depth → ts.length ≤ nesting →
      next.kind = .closeBrace ∨ next.kind = .endOfInput →
      Accepts (statements next.kind (statement (expression depth) nesting)) ts stmts next
  | block b => ∀ depth nesting opening closing next, ts.length ≤ depth → ts.length ≤ nesting →
      Accepts (Parser.block opening closing (statement (expression depth) nesting)) ts b next

namespace Phrase.Parses

/-- An expression is read whole if it ends. -/
theorem accepts (h : (Phrase.expr l e).Parses ts) (hlength : ts.length ≤ depth + 1)
    (hends : l.Ends next) : Accepts (l.parser (expression depth)) ts e next :=
  (h depth next hlength hends.next (· ▸ hends)).stop (Level.step_none hends e)

/-- A nested expression is read whole. -/
theorem expression (h : (Phrase.expr .assignment e).Parses ts) (hne : ts ≠ [])
    (hlength : ts.length ≤ depth) (hends : Level.assignment.Ends next) :
    Accepts (Parser.expression depth) ts e next := by
  have hpos := List.length_pos_iff.mpr hne
  obtain ⟨depth, rfl⟩ : ∃ n, depth = n + 1 := ⟨depth - 1, by omega⟩
  exact h.accepts hlength hends

theorem tighter (h : (Phrase.expr l.next e).Parses ts) (hstarts : Starts ts l.next.begins) :
    (Phrase.expr l e).Parses ts := by
  by_cases hprimary : l = .primary
  · subst hprimary
    exact h
  · intro depth next hlength hends hassignment
    exact enters_of_tighter hstarts hprimary (h.accepts hlength hends) hassignment

/-- A nested statement is read whole. -/
theorem statement {s : Stmt} {nesting : Nat} (h : (Phrase.stmt s).Parses ts) (hne : ts ≠ [])
    (hlength : ts.length ≤ depth) (hnesting : ts.length ≤ nesting)
    (hnext : closesStatement next.kind = true) :
    Accepts (Parser.statement (Parser.expression depth) nesting) ts s next := by
  have hpos := List.length_pos_iff.mpr hne
  obtain ⟨nesting, rfl⟩ : ∃ n, nesting = n + 1 := ⟨nesting - 1, by omega⟩
  exact h depth nesting next hlength hnesting hnext

/-! ### Primary expressions -/

theorem leaf (h : t.kind = .identifier ∧ e = .identifier t.lexeme t.span ∨
      t.kind = .text ∧ e = .text t.lexeme t.span ∨ t.kind = .null ∧ e = .null t.span) :
    (Phrase.expr .primary e).Parses [t] := by
  intro depth next _ _ _
  refine .of_accepts (.peek ?_) (.pure _ _)
  rcases h with ⟨ht, rfl⟩ | ⟨ht, rfl⟩ | ⟨ht, rfl⟩ <;>
    simpa only [Stream.first_cons, ht] using .advance (.pure _ _)

theorem number {value : Double} (ht : t.kind = .integer ∨ t.kind = .float)
    (hvalue : Double.ofLexeme? t.lexeme.toList = some value) :
    (Phrase.expr .primary (.number ⟨value, t.kind = .float⟩ t.span)).Parses [t] := by
  intro depth next _ _ _
  refine .of_accepts (.peek ?_) (.pure _ _)
  have hliteral : numberLiteral t = pure (.number ⟨value, t.kind = .float⟩ t.span) := by
    simp only [numberLiteral, hvalue]
  have hadvance : Accepts (do
      let literal ← numberLiteral t
      let _ ← advance
      return literal) [t] (.number ⟨value, t.kind = .float⟩ t.span) next := by
    rw [hliteral]
    exact .bind (.pure _ _) (.advance (.pure _ _))
  rcases ht with ht | ht <;> simpa only [Stream.first_cons, ht] using hadvance

theorem group {opening closing : Token} (ho : opening.kind = .openParen)
    (he : (Phrase.expr .assignment e).Parses ts) (hne : ts ≠ [])
    (hc : closing.kind = .closeParen) :
    (Phrase.expr .primary e).Parses (opening :: ts ++ [closing]) := by
  intro depth next hlength _ _
  simp only [List.cons_append, List.length_cons, List.length_append, List.length_nil] at hlength
  have hends : Level.assignment.Ends closing := Level.ends_of_closes _ (by simp [closes, hc])
  refine .of_accepts (.peek ?_) (.pure _ _)
  simp only [List.cons_append, Stream.first_cons, ho]
  exact .advance ((he.expression hne (by omega) hends).bind (.expect hc (.pure _ _)))

/-! ### Calls and members -/

theorem accepts_arguments {args : List Expr} (hargs : Derives 1 ts (.arguments args))
    (h : (Phrase.arguments args).Parses ts) (hlength : ts.length ≤ depth)
    (hnext : next.kind = .closeParen) :
    Accepts (Parser.arguments (Parser.expression depth)) ts args next := by
  cases args with
  | nil =>
    cases hargs
    refine .peek ?_
    rw [Stream.first_nil, if_pos hnext]
    exact .pure _ _
  | cons arg args =>
    refine .peek ?_
    rw [if_neg (hargs.starts_arguments.first_ne rfl next)]
    exact (h depth next hlength hnext (by simp)).accepts (by simp [hnext])

theorem call {opening closing : Token} {callee : Expr} {args : List Expr}
    (hcallee : (Phrase.expr .call callee).Parses ts) (ho : opening.kind = .openParen)
    (hargs : Derives 1 ts' (.arguments args)) (h : (Phrase.arguments args).Parses ts')
    (hc : closing.kind = .closeParen) :
    (Phrase.expr .call (.call callee args (callee.span.join closing.span))).Parses
      (ts ++ opening :: ts' ++ [closing]) := by
  intro depth next hlength _ _
  simp only [List.length_cons, List.length_append, List.length_nil] at hlength
  have hends : Level.primary.Ends opening :=
    Level.next_ends_of_continuation (continuation_of_suffix (.inl ho)) (by decide)
  rw [List.append_assoc]
  refine (hcallee depth opening (by omega) hends (by simp)).extend (by simp) (.accept ho ?_)
  exact .bind (accepts_arguments hargs h (by omega) hc) (.expect hc (.pure _ _))

theorem member {dot name : Token} {object : Expr} (hobject : (Phrase.expr .call object).Parses ts)
    (hdot : dot.kind = .dot) (hname : name.kind = .identifier) :
    (Phrase.expr .call (.member object (.identifier name.lexeme name.span) false
      (object.span.join name.span))).Parses (ts ++ [dot, name]) := by
  intro depth next hlength _ _
  simp only [List.length_append, List.length_cons, List.length_nil] at hlength
  have hends : Level.primary.Ends dot :=
    Level.next_ends_of_continuation (continuation_of_suffix (.inr (.inl hdot))) (by decide)
  refine (hobject depth dot (by omega) hends (by simp)).extend (by simp) ?_
  exact .reject (by simp [hdot]) (.accept hdot (.expect hname (.pure _ _)))

theorem computed {opening closing : Token} {object property : Expr}
    (hobject : (Phrase.expr .call object).Parses ts) (ho : opening.kind = .openBracket)
    (hproperty : (Phrase.expr .assignment property).Parses ts') (hne : ts' ≠ [])
    (hc : closing.kind = .closeBracket) :
    (Phrase.expr .call (.member object property true (object.span.join closing.span))).Parses
      (ts ++ opening :: ts' ++ [closing]) := by
  intro depth next hlength _ _
  simp only [List.length_cons, List.length_append, List.length_nil] at hlength
  have hends : Level.primary.Ends opening :=
    Level.next_ends_of_continuation (continuation_of_suffix (.inr (.inr ho))) (by decide)
  have hends' : Level.assignment.Ends closing := Level.ends_of_closes _ (by simp [closes, hc])
  rw [List.append_assoc]
  refine (hobject depth opening (by omega) hends (by simp)).extend (by simp) ?_
  refine .reject (by simp [ho]) (.reject (by simp [ho]) (.accept ho ?_))
  exact .bind (hproperty.expression hne (by omega) hends') (.expect hc (.pure _ _))

/-! ### Operators -/

theorem binary {op : BinaryOp} {left right : Expr} (hleft : (Phrase.expr l left).Parses ts)
    (hop : Infix l t op) (hright : (Phrase.expr l.next right).Parses ts') :
    (Phrase.expr l (.binary left op right (left.span.join right.span))).Parses (ts ++ t :: ts') := by
  intro depth next hlength hends _
  simp only [List.length_append, List.length_cons] at hlength
  -- The sign goes on at this level and at no tighter one, so the left operand is complete, and the
  -- parser of the level is about to extend it.
  have hends' : l.next.Ends t := Level.next_ends_of_continuation
    (continuation_of_accepts hop.accepts) (by rintro rfl; cases hop.accepts)
  have hassignment : l ≠ .assignment := by rintro rfl; cases hop.accepts
  refine (hleft depth t (by omega) hends' (absurd · hassignment)).extend (by simp) ?_
  rw [Level.step_of_accepts _ hop.accepts]
  refine .peek ?_
  rw [Stream.first_cons, hop.accepts, if_pos rfl]
  simp only [hop.ofLexeme?]
  refine .advance ((hright.accepts (by omega) hends).bind_last (.pure _ _))

theorem unary {op : UnaryOp} {operand : Expr} (hop : t.kind = op.kind)
    (hoperand : (Phrase.expr .comparison operand).Parses ts) :
    (Phrase.expr .unary (.unary op operand (t.span.join operand.span))).Parses (t :: ts) := by
  intro depth next hlength hends _
  simp only [List.length_cons] at hlength
  refine .of_accepts (.peek ?_) (.pure _ _)
  simp only [Stream.first_cons, unaryOp?_eq_some.mpr hop]
  exact .advance ((hoperand.accepts (by omega) hends).bind_last (.pure _ _))

theorem logical {op : LogicalOp} {left right : Expr} (hleft : (Phrase.expr .logical left).Parses ts)
    (hop : t.kind = op.kind) (hright : (Phrase.expr .unary right).Parses ts') :
    (Phrase.expr .logical (.logical left op right (left.span.join right.span))).Parses
      (ts ++ t :: ts') := by
  intro depth next hlength hends _
  simp only [List.length_append, List.length_cons] at hlength
  have hends' : Level.unary.Ends t :=
    Level.next_ends_of_continuation (continuation_of_logical hop) (by decide)
  refine (hleft depth t (by omega) hends' (by simp)).extend (by simp) (.peek ?_)
  simp only [Stream.first_cons, logicalOp?_eq_some.mpr hop]
  exact .advance ((hright.accepts (by omega) hends).bind_last (.pure _ _))

/-! ### Object literals and assignments -/

theorem accepts_end_of_property (h : EndsProperty ts next) (field : String × Option Expr) :
    Accepts (do
      if (← peek).kind ≠ .closeBrace then
        let _ ← expect .comma .propertySeparator
      return field) ts field next := by
  refine .peek ?_
  rcases h with ⟨rfl, hnext⟩ | ⟨comma, rfl, hcomma⟩
  · rw [Stream.first_nil, if_neg (not_not.mpr hnext)]
    exact .pure _ _
  · rw [Stream.first_cons, if_pos (by simp [hcomma])]
    exact .expect hcomma (.pure _ _)

theorem key (ht : t.kind = .identifier) : (Phrase.property t.lexeme none).Parses [t] := by
  intro depth rest next _ hrest
  have hcolon : (Stream.first rest next).kind ≠ .colon := by
    intro hkind
    have hcloses := hrest.closes
    simp [hkind, closes] at hcloses
  refine .expect ht (.reject hcolon ?_)
  exact accepts_end_of_property hrest (t.lexeme, none)

theorem entry {colon : Token} (ht : t.kind = .identifier) (hcolon : colon.kind = .colon)
    (he : (Phrase.expr .assignment e).Parses ts) (hne : ts ≠ []) :
    (Phrase.property t.lexeme (some e)).Parses (t :: colon :: ts) := by
  intro depth rest next hlength hrest
  simp only [List.length_cons] at hlength
  have hends : Level.assignment.Ends (Stream.first rest next) := Level.ends_of_closes _ hrest.closes
  refine .expect ht (.accept hcolon ?_)
  exact .bind (he.expression hne (by omega) hends).map
    (accepts_end_of_property hrest (t.lexeme, some e))

theorem last_property {key : String} {value : Option Expr}
    (h : (Phrase.property key value).Parses ts) (hstarts : Starts ts (· = .identifier)) :
    (Phrase.properties [(key, value)]).Parses ts := by
  intro depth next hlength hnext
  have hproperty := h depth [] next hlength (.inl ⟨rfl, hnext⟩)
  rw [List.append_nil] at hproperty
  rw [← List.append_nil ts]
  exact .cons hproperty hstarts.ne_nil (hstarts.first_ne rfl _) (hstarts.first_ne rfl _) .nil

theorem more_properties {comma : Token} {key : String} {value : Option Expr}
    {fields : List (String × Option Expr)} (h : (Phrase.property key value).Parses ts)
    (hstarts : Starts ts (· = .identifier)) (hcomma : comma.kind = .comma)
    (hfields : (Phrase.properties fields).Parses ts') :
    (Phrase.properties ((key, value) :: fields)).Parses (ts ++ comma :: ts') := by
  intro depth next hlength hnext
  simp only [List.length_append, List.length_cons] at hlength
  have hproperty := h depth [comma] (Stream.first ts' next) (by omega) (.inr ⟨comma, rfl, hcomma⟩)
  rw [List.append_cons]
  have hstarts' : Starts (ts ++ [comma]) (· = .identifier) := hstarts.append
  exact .cons hproperty hstarts'.ne_nil (hstarts'.first_ne rfl _) (hstarts'.first_ne rfl _)
    (hfields depth next (by omega) hnext)

theorem object {opening closing : Token} {fields : List (String × Option Expr)}
    (ho : opening.kind = .openBrace) (hfields : (Phrase.properties fields).Parses ts)
    (hc : closing.kind = .closeBrace) :
    (Phrase.expr .object (.object fields (opening.span.join closing.span))).Parses
      (opening :: ts ++ [closing]) := by
  intro depth next hlength _ _
  simp only [List.cons_append, List.length_cons, List.length_append, List.length_nil] at hlength
  refine .of_accepts (.peek ?_) (.pure _ _)
  rw [List.cons_append, Stream.first_cons, if_pos ho]
  have hproperties := (hfields depth closing (by omega) hc).accepts hc
  exact .advance (.bind hproperties (.expect hc (.pure _ _)))

theorem assignment {target value : Expr} (htarget : (Phrase.expr .object target).Parses ts)
    (ht : t.kind = .equals) (hvalue : (Phrase.expr .assignment value).Parses ts') (hne : ts' ≠ []) :
    (Phrase.expr .assignment (.assignment target value (target.span.join value.span))).Parses
      (ts ++ t :: ts') := by
  intro depth next hlength _ hassignment
  simp only [List.length_append, List.length_cons] at hlength
  have hends : Level.object.Ends t :=
    Level.next_ends_of_continuation (continuation_of_equals ht) (by decide)
  refine .of_accepts (.bind (htarget.accepts (by omega) hends) (.accept ht ?_)) (.pure _ _)
  exact .bind_last (hvalue.expression hne (by omega) (hassignment rfl)) (.pure _ _)

/-! ### Arguments -/

theorem one_argument (he : (Phrase.expr .assignment e).Parses ts) (hne : ts ≠ []) :
    (Phrase.arguments [e]).Parses ts := by
  intro depth next hlength hnext _
  exact .one (he.expression hne hlength (Level.ends_of_closes _ (by simp [closes, hnext])))

theorem more_arguments {comma : Token} {arg : Expr} {args : List Expr}
    (he : (Phrase.expr .assignment e).Parses ts) (hne : ts ≠ []) (hcomma : comma.kind = .comma)
    (hargs : (Phrase.arguments (arg :: args)).Parses ts') :
    (Phrase.arguments (e :: arg :: args)).Parses (ts ++ comma :: ts') := by
  intro depth next hlength hnext _
  simp only [List.length_append, List.length_cons] at hlength
  have hends : Level.assignment.Ends comma := Level.ends_of_closes _ (by simp [closes, hcomma])
  exact .more (he.expression hne (by omega) hends) hcomma
    (hargs depth next (by omega) hnext (by simp))

/-! ### Declarations -/

theorem bare (ht : t.kind = .identifier) :
    (Phrase.declarator false ⟨t.lexeme, none, t.span⟩).Parses [t] := by
  intro depth next _ hnext
  have hequals : next.kind ≠ .equals := by
    intro hkind
    simp [hkind, closes] at hnext
  exact .expect ht (.reject hequals (.pure _ _))

theorem initialized {equals : Token} {constant : Bool} (ht : t.kind = .identifier)
    (hequals : equals.kind = .equals) (he : (Phrase.expr .assignment e).Parses ts) (hne : ts ≠ []) :
    (Phrase.declarator constant ⟨t.lexeme, some e, t.span⟩).Parses (t :: equals :: ts) := by
  intro depth next hlength hnext
  simp only [List.length_cons] at hlength
  refine .expect ht (.accept hequals ?_)
  exact .bind_last (he.expression hne (by omega) (Level.ends_of_closes _ hnext)) (.pure _ _)

theorem more_declarators {comma : Token} {constant : Bool} {d : Declarator} {ds : List Declarator}
    (hd : (Phrase.declarator constant d).Parses ts) (hcomma : comma.kind = .comma)
    (hds : (Phrase.declarators constant ds).Parses ts') :
    (Phrase.declarators constant (d :: ds)).Parses (ts ++ comma :: ts') := by
  intro depth next hlength hnext
  simp only [List.length_append, List.length_cons] at hlength
  exact .more (hd depth comma (by omega) (by simp [closes, hcomma])) hcomma
    (hds depth next (by omega) hnext)

theorem closes_of_closesStatement {kind : TokenKind} (h : closesStatement kind = true) :
    closes kind = true ∧ kind ≠ .comma ∧ kind ≠ .elseWord := by
  revert h
  cases kind <;> decide

theorem accepts_declarationWord {word : DeclarationWord} (ht : t.kind = word.kind)
    {f : DeclarationWord → Parser Stmt} {s : Stmt} (hf : Accepts (f word) ts s next) :
    Accepts (declarationWord >>= f) (t :: ts) s next := by
  have hword : Accepts declarationWord [t] word (Stream.first ts next) := by
    cases word with
    | var => exact .accept ht (.pure _ _)
    | declare => exact .reject (by simp [ht, DeclarationWord.kind]) (.accept ht (.pure _ _))
  exact .bind hword hf

theorem declaration {word : DeclarationWord} {ds : List Declarator} (ht : t.kind = word.kind)
    (hds : (Phrase.declarators false ds).Parses ts) :
    (Phrase.stmt (.declaration ds word false t.span)).Parses (t :: ts) := by
  intro depth nesting next hlength hnesting hnext
  simp only [List.length_cons] at hlength hnesting
  obtain ⟨hcloses, hcomma, -⟩ := closes_of_closesStatement hnext
  have hrow := (hds depth next (by omega) hcloses).accepts hcomma
  have hdeclaration : Accepts (Parser.declaration (Parser.expression depth)) (t :: ts)
      (.declaration ds word false t.span) next := by
    refine .peek (.reject (by cases word <;> simp [ht, DeclarationWord.kind]) ?_)
    exact accepts_declarationWord ht (.bind_last hrow (.pure _ _))
  refine .peek ?_
  cases word <;> simpa only [Stream.first_cons, ht, DeclarationWord.kind] using hdeclaration

theorem constants {const : Token} {word : DeclarationWord} {ds : List Declarator}
    (hconst : const.kind = .constWord) (ht : t.kind = word.kind)
    (hds : (Phrase.declarators true ds).Parses ts) :
    (Phrase.stmt (.declaration ds word true const.span)).Parses (const :: t :: ts) := by
  intro depth nesting next hlength hnesting hnext
  simp only [List.length_cons] at hlength hnesting
  obtain ⟨hcloses, hcomma, -⟩ := closes_of_closesStatement hnext
  have hrow := (hds depth next (by omega) hcloses).accepts hcomma
  refine .peek ?_
  simp only [Stream.first_cons, hconst]
  exact .peek (.accept hconst (accepts_declarationWord ht (.bind_last hrow (.pure _ _))))

theorem accepts_parameters {args : List Expr} {params : List String}
    (h : List.Forall₂ (fun arg param => ∃ span, arg = .identifier param span) args params) :
    args.mapM parameter = pure params := by
  induction h with
  | nil => rfl
  | cons harg _ ih =>
    obtain ⟨span, rfl⟩ := harg
    rw [List.mapM_cons, ih]
    rfl

theorem function {word name opening closing : Token} {args : List Expr} {params : List String}
    {body : Block Stmt} (hword : word.kind = .defWord) (hname : name.kind = .identifier)
    (ho : opening.kind = .openParen) (hargs : Derives 1 ts (.arguments args))
    (h : (Phrase.arguments args).Parses ts)
    (hparams : List.Forall₂ (fun arg param => ∃ span, arg = .identifier param span) args params)
    (hc : closing.kind = .closeParen) (hbody : (Phrase.block body).Parses ts') :
    (Phrase.stmt (.function name.lexeme params body word.span)).Parses
      (word :: name :: opening :: ts ++ closing :: ts') := by
  intro depth nesting next hlength hnesting hnext
  simp only [List.cons_append, List.length_cons, List.length_append] at hlength hnesting
  have hblock := hbody depth nesting .functionBodyOpen .functionBodyClose next (by omega) (by omega)
  refine .peek ?_
  simp only [List.cons_append, Stream.first_cons, hword]
  refine .advance (.expect hname (.expect ho ?_))
  refine .bind (accepts_arguments hargs h (by omega) hc) (.expect hc ?_)
  rw [accepts_parameters hparams]
  exact .bind (.pure _ _) (hblock.bind_last (.pure _ _))

/-! ### Control flow -/

theorem conditional {ts'' : List Token} {condition : Expr} {consequent : Block Stmt}
    {alternate : Option Stmt} (ht : t.kind = .ifWord)
    (hcondition : (Phrase.expr .assignment condition).Parses ts) (hne : ts ≠ [])
    (hconsequent : (Phrase.block consequent).Parses ts') (hbrace : Starts ts' (· = .openBrace))
    (halternate : (Phrase.alternate alternate).Parses ts'') :
    (Phrase.stmt (.conditional condition consequent alternate t.span)).Parses
      (t :: ts ++ ts' ++ ts'') := by
  intro depth nesting next hlength hnesting hnext
  simp only [List.cons_append, List.length_cons, List.length_append] at hlength hnesting
  refine .peek ?_
  simp only [List.cons_append, List.append_assoc, Stream.first_cons, ht]
  have hends : Level.assignment.Ends (Stream.first (ts' ++ ts'') next) := by
    have hkind : (Stream.first (ts' ++ ts'') next).kind = .openBrace := by
      simpa using (hbrace.append).first next
    exact Level.ends_of_closes _ (by simp [closes, hkind])
  refine .advance (.bind (hcondition.expression hne (by omega) hends) (.bind
    (hconsequent depth nesting _ _ _ (by omega) (by omega)) ?_))
  exact .bind_last (halternate depth nesting next (by omega) (by omega) hnext) (.pure _ _)

theorem loop {condition : Expr} {body : Block Stmt} (ht : t.kind = .whileWord)
    (hcondition : (Phrase.expr .assignment condition).Parses ts) (hne : ts ≠ [])
    (hbody : (Phrase.block body).Parses ts') (hbrace : Starts ts' (· = .openBrace)) :
    (Phrase.stmt (.loop condition body t.span)).Parses (t :: ts ++ ts') := by
  intro depth nesting next hlength hnesting hnext
  simp only [List.cons_append, List.length_cons, List.length_append] at hlength hnesting
  refine .peek ?_
  simp only [List.cons_append, Stream.first_cons, ht]
  have hends : Level.assignment.Ends (Stream.first ts' next) := by
    have hkind : (Stream.first ts' next).kind = .openBrace := by simpa using hbrace.first next
    exact Level.ends_of_closes _ (by simp [closes, hkind])
  refine .advance (.bind (hcondition.expression hne (by omega) hends) ?_)
  exact .bind_last (hbody depth nesting _ _ _ (by omega) (by omega)) (.pure _ _)

theorem no_alternate : (Phrase.alternate none).Parses [] := by
  intro depth nesting next _ _ hnext
  obtain ⟨-, -, helse⟩ := closes_of_closesStatement hnext
  exact .reject helse (.pure _ _)

theorem last_alternate {b : Block Stmt} (ht : t.kind = .elseWord)
    (hb : (Phrase.block b).Parses ts) (hbrace : Starts ts (· = .openBrace)) :
    (Phrase.alternate (some (.block b))).Parses (t :: ts) := by
  intro depth nesting next hlength hnesting _
  simp only [List.length_cons] at hlength hnesting
  refine .accept ht (.peek ?_)
  rw [if_neg (hbrace.first_ne rfl next)]
  exact .bind_last (hb depth nesting _ _ _ (by omega) (by omega)) (.pure _ _)

theorem next_alternate {word : Token} {s : Stmt} (ht : t.kind = .elseWord)
    (hword : word.kind = .ifWord) (hs : (Phrase.stmt s).Parses (word :: ts)) :
    (Phrase.alternate (some s)).Parses (t :: word :: ts) := by
  intro depth nesting next hlength hnesting hnext
  simp only [List.length_cons] at hlength hnesting
  refine .accept ht (.peek ?_)
  rw [Stream.first_cons, if_pos hword]
  exact .map (hs.statement (List.cons_ne_nil _ _) (by simp; omega) (by simp; omega) hnext)

theorem expression_statement (he : (Phrase.expr .assignment e).Parses ts)
    (hstarts : Starts ts Level.assignment.begins) : (Phrase.stmt (.expression e)).Parses ts := by
  intro depth nesting next hlength hnesting hnext
  obtain ⟨hcloses, -⟩ := closes_of_closesStatement hnext
  have hexpression : Accepts (Stmt.expression <$> Parser.expression depth) ts (.expression e) next :=
    .map (he.expression hstarts.ne_nil hlength (Level.ends_of_closes _ hcloses))
  refine .peek ?_
  have hfirst := hstarts.first next
  split <;> first | exact hexpression | simp_all [Level.begins, unaryOp?, beginsOperand]

/-! ### Rows of statements -/

theorem accepts_skipSemicolons (h : ∀ t ∈ ts, t.kind = .semicolon) (hnext : next.kind ≠ .semicolon) :
    Accepts skipSemicolons ts () next := by
  have hcollects : ∃ as, Collects (do
      if ← accept .semicolon then return some () else return none) ts as next := by
    induction ts with
    | nil => exact ⟨[], .nil (.reject hnext (.pure _ _))⟩
    | cons t ts ih =>
      obtain ⟨as, has⟩ := ih fun t ht => h t (by simp [ht])
      rw [← List.singleton_append]
      exact ⟨() :: as, .cons (.accept (h t (by simp)) (.pure _ _)) (by simp) has⟩
  obtain ⟨as, has⟩ := hcollects
  exact .bind_last has.many (.pure _ _)

theorem more_stmts {semicolons : List Token} {s : Stmt} {stmts : List Stmt}
    (hs : (Phrase.stmt s).Parses ts) (hstarts : Starts ts (Phrase.stmt s).begins)
    (hsemicolons : ∀ t ∈ semicolons, t.kind = .semicolon) (hrun : Derives 1 ts' (.run stmts))
    (hstmts : (Phrase.run stmts).Parses ts') (hleast : stmts ≠ [] → 1 ≤ semicolons.length) :
    (Phrase.run (s :: stmts)).Parses (ts ++ semicolons ++ ts') := by
  intro depth nesting next hlength hnesting hnext
  simp only [List.length_append] at hlength hnesting
  have hsemicolon : (Stream.first ts' next).kind ≠ .semicolon :=
    hrun.first_ne_semicolon (by rcases hnext with h | h <;> simp [h])
  -- Without a semicolon behind it, the statement is the last one.
  have hcloses : closesStatement (Stream.first semicolons (Stream.first ts' next)).kind = true := by
    cases semicolons with
    | cons t _ => simp [closesStatement, hsemicolons t]
    | nil =>
      obtain rfl : stmts = [] := by
        by_contra hne
        exact absurd (hleast hne) (by simp)
      cases hrun
      rcases hnext with h | h <;> simp [closesStatement, h]
  have hitem : Accepts (do
      let stmt ← Parser.statement (Parser.expression depth) nesting
      skipSemicolons
      return stmt) (ts ++ semicolons) s (Stream.first ts' next) :=
    .bind (hs.statement hstarts.ne_nil (by omega) (by omega) hcloses)
      (.bind_last (accepts_skipSemicolons hsemicolons hsemicolon) (.pure _ _))
  have hstarts' : Starts (ts ++ semicolons) (Phrase.stmt s).begins := hstarts.append
  exact .cons hitem hstarts'.ne_nil
    (hstarts'.first_ne (by rcases hnext with h | h <;> rw [h] <;> rfl) next)
    (hstarts'.first_ne rfl next) (hstmts depth nesting next (by omega) (by omega) hnext)

theorem body {semicolons : List Token} {stmts : List Stmt}
    (hsemicolons : ∀ t ∈ semicolons, t.kind = .semicolon) (hrun : Derives 1 ts (.run stmts))
    (hstmts : (Phrase.run stmts).Parses ts) : (Phrase.body stmts).Parses (semicolons ++ ts) := by
  intro depth nesting next hlength hnesting hnext
  simp only [List.length_append] at hlength hnesting
  have hsemicolon : (Stream.first ts next).kind ≠ .semicolon :=
    hrun.first_ne_semicolon (by rcases hnext with h | h <;> simp [h])
  exact .bind (accepts_skipSemicolons hsemicolons hsemicolon)
    ((hstmts depth nesting next (by omega) (by omega) hnext).accepts rfl)

theorem block {opening closing : Token} {stmts : List Stmt} (ho : opening.kind = .openBrace)
    (hbody : (Phrase.body stmts).Parses ts) (hc : closing.kind = .closeBrace) :
    (Phrase.block ⟨stmts, opening.span⟩).Parses (opening :: ts ++ [closing]) := by
  intro depth nesting _ _ next hlength hnesting
  simp only [List.cons_append, List.length_cons, List.length_append, List.length_nil]
    at hlength hnesting
  have hstatements := hbody depth nesting closing (by omega) (by omega) (.inl hc)
  rw [hc] at hstatements
  exact .expect ho (.bind hstatements (.expect hc (.pure _ _)))

end Phrase.Parses

open Phrase

/-- The parser reads every part of a program. -/
theorem Derives.parses {p : Phrase} (h : Derives 1 ts p) : p.Parses ts := by
  induction h with
  | identifier ht => exact Parses.leaf (.inl ⟨ht, rfl⟩)
  | text ht => exact Parses.leaf (.inr (.inl ⟨ht, rfl⟩))
  | null ht => exact Parses.leaf (.inr (.inr ⟨ht, rfl⟩))
  | number ht hvalue => exact Parses.number ht hvalue
  | group ho he hc ih => exact Parses.group ho ih (he.starts rfl).ne_nil hc
  | tighter he ih => exact ih.tighter (he.starts rfl)
  | call _ ho hargs hc ih ih' => exact ih.call ho hargs ih' hc
  | member _ hdot hname ih => exact ih.member hdot hname
  | computed _ ho hproperty hc ih ih' => exact ih.computed ho ih' (hproperty.starts rfl).ne_nil hc
  | no_arguments => exact fun _ _ _ _ hne => absurd rfl hne
  | one_argument he ih => exact ih.one_argument (he.starts rfl).ne_nil
  | more_arguments he hcomma _ ih ih' => exact ih.more_arguments (he.starts rfl).ne_nil hcomma ih'
  | binary _ hop _ ih ih' => exact ih.binary hop ih'
  | unary hop _ ih => exact Parses.unary hop ih
  | logical _ hop _ ih ih' => exact ih.logical hop ih'
  | key ht => exact Parses.key ht
  | entry ht hcolon he ih => exact Parses.entry ht hcolon ih (he.starts rfl).ne_nil
  | no_properties => exact fun _ _ _ _ => .nil
  | last_property h ih => exact ih.last_property (h.starts rfl)
  | more_properties h hcomma _ ih ih' => exact ih.more_properties (h.starts rfl) hcomma ih'
  | object ho _ hc ih => exact Parses.object ho ih hc
  | assignment _ ht hvalue ih ih' => exact ih.assignment ht ih' (hvalue.starts rfl).ne_nil
  | bare ht => exact Parses.bare ht
  | initialized ht hequals he ih => exact Parses.initialized ht hequals ih (he.starts rfl).ne_nil
  | one_declarator _ ih => exact fun depth next hlength hnext => .one (ih depth next hlength hnext)
  | more_declarators _ hcomma _ ih ih' => exact ih.more_declarators hcomma ih'
  | declaration ht _ ih => exact Parses.declaration ht ih
  | constants hconst ht _ ih => exact Parses.constants hconst ht ih
  | function hword hname ho hargs hparams hc _ ih ih' =>
    exact Parses.function hword hname ho hargs ih hparams hc ih'
  | conditional ht hcondition hconsequent _ ih ih' ih'' =>
    exact Parses.conditional ht ih (hcondition.starts rfl).ne_nil ih' (hconsequent.starts rfl) ih''
  | no_alternate => exact Parses.no_alternate
  | last_alternate ht hb ih => exact Parses.last_alternate ht ih (hb.starts rfl)
  | next_alternate ht hword _ ih => exact Parses.next_alternate ht hword ih
  | loop ht hcondition hbody ih ih' =>
    exact Parses.loop ht ih (hcondition.starts rfl).ne_nil ih' (hbody.starts rfl)
  | expression he ih => exact ih.expression_statement (he.starts rfl)
  | no_stmts => exact fun _ _ _ _ _ _ => .nil
  | more_stmts hs hsemicolons hrun hleast ih ih' =>
    exact ih.more_stmts (hs.starts rfl) hsemicolons hrun ih' hleast
  | body hsemicolons hrun ih => exact Parses.body hsemicolons hrun ih
  | block ho _ hc ih => exact Parses.block ho ih hc

end Grammar

open Grammar

theorem Parser.program_of_derives {ts : List Token} {last : Token} {program : Program}
    (h : Derives 1 ts (.body program)) (hlast : last.kind = .endOfInput) (rest : List Token) :
    ∃ s, Parser.program (Stream.ofTokens (ts ++ last :: rest)) = .ok (program, s) := by
  obtain ⟨s, htakes, hpeek, hbound⟩ := Stream.Takes.ofTokens h.ne_endOfInput hlast
  have hstatements := h.parses (ts.length + 1) (ts.length + 1) last (by omega) (by omega)
    (.inr hlast)
  have hrun := hstatements _ s htakes hpeek
  rw [hlast, ← hbound] at hrun
  exact ⟨s, hrun⟩

/-- Whatever program tokens write, with a semicolon or more between every two statements of a body,
it is the one that is read from them. -/
theorem parseTokens_of_derives {ts rest : List Token} {last : Token} {program : Program}
    (h : Derives 1 ts (.body program)) (hlast : last.kind = .endOfInput) :
    parseTokens (ts ++ last :: rest) = .ok program := by
  obtain ⟨s, hs⟩ := Parser.program_of_derives h hlast rest
  simp [parseTokens, hs, Except.map]

/-- `a - b - c` is a difference of a difference, whatever the signs are tagged. -/
theorem parseTokens_differences :
    let a : Token := ⟨.identifier, ⟨0, 1, 1, 1⟩, "a"⟩
    let minus : Token := ⟨.operator, ⟨2, 3, 1, 3⟩, "-"⟩
    let b : Token := ⟨.identifier, ⟨4, 5, 1, 5⟩, "b"⟩
    let sign : Token := ⟨.unaryMinus, ⟨6, 7, 1, 7⟩, "-"⟩
    let c : Token := ⟨.identifier, ⟨8, 9, 1, 9⟩, "c"⟩
    let last : Token := ⟨.endOfInput, ⟨9, 9, 1, 10⟩, ""⟩
    let difference : Expr := .binary (.identifier "a" a.span) .subtract (.identifier "b" b.span)
      (a.span.join b.span)
    let program : Program := [.expression (.binary difference .subtract (.identifier "c" c.span)
      (difference.span.join c.span))]
    Derives 1 [a, minus, b, sign, c] (.body program) ∧
      parseTokens ([a, minus, b, sign, c] ++ [last]) = .ok program := by
  intro a minus b sign c last difference program
  have hoperand {t : Token} (l : Level) (ht : t.kind = .identifier) :
      Derives 1 [t] (.expr l (.identifier t.lexeme t.span)) :=
    .looser (.identifier ht) (by cases l <;> decide)
  have hdifference : Derives 1 [a, minus, b] (.expr .additive difference) :=
    .binary (hoperand .additive rfl) (infix_of_accepts rfl rfl) (hoperand .multiplicative rfl)
  have hdifferences : Derives 1 [a, minus, b, sign, c] (.expr .additive
      (.binary difference .subtract (.identifier "c" c.span) (difference.span.join c.span))) :=
    .binary hdifference (infix_of_accepts rfl rfl) (hoperand .multiplicative rfl)
  have hrun : Derives 1 [a, minus, b, sign, c] (.run program) :=
    .more_stmts (.expression (hdifferences.looser (by decide))) (List.forall_mem_nil _) .no_stmts
      (absurd rfl)
  have hbody : Derives 1 [a, minus, b, sign, c] (.body program) := .body (List.forall_mem_nil _) hrun
  exact ⟨hbody, parseTokens_of_derives hbody rfl⟩

end Scriptlet
