import Scriptlet.Proofs.Parser.Sound
import Scriptlet.Proofs.Token.Lossless

/-!
# Expressions stand inside each other

**Theorem (`expressions_nest`).** In a source that is a program, every expression stands at a place of the
source, the expressions that it is put together from stand inside it, and they stand one behind the other.

Grouping parentheses leave no trace in a program, so an expression may stand on less than the tokens that
write it. What the proof carries along is that it never stands on more: `Among` says that spans stand one
behind the other among some tokens. Tokens side by side give spans side by side (`Among.append`), and the
spans of a program that are not those of tokens are joined from the first to the last of such a row
(`Among.join`). The rest is an induction on the derivation of the program (`Derives.sit`).
-/

namespace Scriptlet

/-! ## The expressions of a program -/

/-- The expressions that an expression is put together from, from left to right. -/
def Expr.parts : Expr → List Expr
  | .identifier .. | .number .. | .text .. | .null _ => []
  | .object fields _ => fields.filterMap (·.2)
  | .assignment target value _ => [target, value]
  | .binary left _ right _ | .logical left _ right _ => [left, right]
  | .unary _ operand _ => [operand]
  | .member owner property _ _ => [owner, property]
  | .call callee args _ => callee :: args

/-- An expression is another one or stands somewhere inside it. -/
inductive Expr.PartOf (e : Expr) : Expr → Prop where
  | itself : PartOf e e
  | inside {part whole : Expr} (hpart : part ∈ whole.parts) (h : PartOf e part) : PartOf e whole

mutual

/-- The expressions of a statement that are not parts of others, from left to right. -/
def Stmt.expressions : Stmt → List Expr
  | .declaration declarators _ _ _ => declarators.filterMap (·.init)
  | .function _ _ body _ | .block body => body.expressions
  | .conditional condition consequent alternate _ =>
    condition :: (consequent.expressions ++ alternateExpressions alternate)
  | .loop condition body _ => condition :: body.expressions
  | .expression expr => [expr]

/-- The expressions of the statements of a block. -/
def Block.expressions : Block Stmt → List Expr
  | ⟨body, _⟩ => bodyExpressions body

/-- The expressions of some statements. -/
def bodyExpressions : List Stmt → List Expr
  | [] => []
  | stmt :: rest => stmt.expressions ++ bodyExpressions rest

/-- The expressions of the alternate of a conditional. -/
def alternateExpressions : Option Stmt → List Expr
  | none => []
  | some stmt => stmt.expressions

end

/-- The expressions of a program that are not parts of others, from left to right. -/
def Program.expressions (program : Program) : List Expr := bodyExpressions program

/-- An expression at a place of a source whose parts stand inside it, one behind the other. -/
structure Expr.Nests (source : List Char) (e : Expr) : Prop where
  place : e.span.PlacedIn source
  inside : ∀ part ∈ e.parts, e.span.start ≤ part.span.start ∧ part.span.stop ≤ e.span.stop
  apart : e.parts.Pairwise fun first second => first.span.stop ≤ second.span.start

namespace Grammar

variable {source : List Char} {ts ts' : List Token} {t : Token} {span span' : Span}
  {spans spans' : List Span} {e : Expr} {es es' : List Expr} {p : Phrase} {least : Nat}

/-! ## Spans among tokens -/

/-- Tokens at places of a source, one behind the other. -/
structure InOrder (source : List Char) (ts : List Token) : Prop where
  placed : ∀ t ∈ ts, t.span.PlacedIn source
  apart : ts.Pairwise fun first second => first.span.stop ≤ second.span.start

/-- Places of a source that stand one behind the other among some tokens: no place begins before all of
the tokens, or ends behind all of them. -/
structure Among (source : List Char) (ts : List Token) (spans : List Span) : Prop where
  placed : ∀ span ∈ spans, span.PlacedIn source
  apart : spans.Pairwise fun first second => first.stop ≤ second.start
  start : ∀ offset, (∀ t ∈ ts, offset ≤ t.span.start) → ∀ span ∈ spans, offset ≤ span.start
  stop : ∀ offset, (∀ t ∈ ts, t.span.stop ≤ offset) → ∀ span ∈ spans, span.stop ≤ offset

namespace InOrder

theorem left (h : InOrder source (ts ++ ts')) : InOrder source ts :=
  ⟨fun t ht => h.placed t (List.mem_append_left _ ht), (List.pairwise_append.mp h.apart).1⟩

theorem right (h : InOrder source (ts ++ ts')) : InOrder source ts' :=
  ⟨fun t ht => h.placed t (List.mem_append_right _ ht), (List.pairwise_append.mp h.apart).2.1⟩

theorem tail (h : InOrder source (t :: ts)) : InOrder source ts := @right source [t] ts h

theorem first (h : InOrder source (t :: ts)) : InOrder source [t] := @left source [t] ts h

end InOrder

namespace Among

theorem nil : Among source ts [] := ⟨by simp, .nil, by simp, by simp⟩

theorem token (h : InOrder source [t]) : Among source [t] [t.span] :=
  ⟨by simpa using h.placed, List.pairwise_singleton _ _, by simp, by simp⟩

/-- More tokens leave more room. -/
theorem widen (h : Among source ts spans) (hsub : ts ⊆ ts') : Among source ts' spans :=
  ⟨h.placed, h.apart, fun offset hoffset => h.start offset fun t ht => hoffset t (hsub ht),
    fun offset hoffset => h.stop offset fun t ht => hoffset t (hsub ht)⟩

/-- Spans among no tokens: there are none. -/
theorem eq_nil (h : Among source [] spans) : spans = [] := by
  refine List.eq_nil_iff_forall_not_mem.mpr fun span hspan => ?_
  have hstart := h.start (span.start + 1) (by simp) span hspan
  omega

/-- Side by side. -/
theorem append (h : Among source ts spans) (h' : Among source ts' spans')
    (hts : InOrder source (ts ++ ts')) : Among source (ts ++ ts') (spans ++ spans') := by
  refine ⟨List.forall_mem_append.mpr ⟨h.placed, h'.placed⟩,
    List.pairwise_append.mpr ⟨h.apart, h'.apart, fun span hspan span' hspan' => ?_⟩,
    fun offset hoffset => ?_, fun offset hoffset => ?_⟩
  · -- The first of the tokens on the right stands between the spans on both sides.
    cases ts' with
    | nil =>
      rw [h'.eq_nil] at hspan'
      exact absurd hspan' List.not_mem_nil
    | cons t rest =>
      obtain ⟨-, hrest, hleft⟩ := List.pairwise_append.mp hts.apart
      have ht := (hts.right.placed t List.mem_cons_self).ordered
      have hstop := h.stop t.span.start (fun u hu => hleft u hu t List.mem_cons_self) span hspan
      have hstart : t.span.start ≤ span'.start := by
        refine h'.start _ (List.forall_mem_cons.mpr ⟨Nat.le_refl _, fun u hu => ?_⟩) span' hspan'
        exact Nat.le_trans ht ((List.pairwise_cons.mp hrest).1 u hu)
      exact Nat.le_trans hstop hstart
  · obtain ⟨hleft, hright⟩ := List.forall_mem_append.mp hoffset
    exact List.forall_mem_append.mpr ⟨h.start offset hleft, h'.start offset hright⟩
  · obtain ⟨hleft, hright⟩ := List.forall_mem_append.mp hoffset
    exact List.forall_mem_append.mpr ⟨h.stop offset hleft, h'.stop offset hright⟩

/-- A token in front. -/
theorem cons (h : Among source ts spans) (hts : InOrder source (t :: ts)) :
    Among source (t :: ts) (t.span :: spans) := (token hts.first).append h hts

/-- A token in front and one behind. -/
theorem enclosed {opening closing : Token} (h : Among source ts spans)
    (hts : InOrder source (opening :: ts ++ [closing])) :
    Among source (opening :: ts ++ [closing]) (opening.span :: spans ++ [closing.span]) :=
  (h.cons hts.left).append (token hts.right) hts

/-- What is joined from the first to the last span of a row has all of them inside. -/
theorem join {first last : Span} {middle : List Span}
    (h : Among source ts (first :: middle ++ [last])) :
    Among source ts [first.join last] ∧ ∀ span ∈ first :: middle ++ [last],
      (first.join last).start ≤ span.start ∧ span.stop ≤ (first.join last).stop := by
  obtain ⟨hfirst, hmiddle, hlast⟩ : first.PlacedIn source ∧ (∀ span ∈ middle, span.PlacedIn source) ∧
      last.PlacedIn source := by simpa [or_imp, forall_and] using h.placed
  obtain ⟨hbehind, hbefore⟩ := List.pairwise_cons.mp (List.cons_append ▸ h.apart)
  obtain ⟨-, -, hend⟩ := List.pairwise_append.mp hbefore
  have hlast' : last ∈ first :: middle ++ [last] := by simp
  refine ⟨⟨by simpa using hfirst.join hlast, List.pairwise_singleton _ _,
    fun offset hoffset => ?_, fun offset hoffset => ?_⟩, fun span hspan => ?_⟩
  · simpa [Span.join] using h.start offset hoffset first List.mem_cons_self
  · have hstop := h.stop offset hoffset first List.mem_cons_self
    have hstop' := h.stop offset hoffset last hlast'
    simpa [Span.join] using Nat.max_le.mpr ⟨hstop', hstop⟩
  · have hforward := hfirst.ordered
    have hforward' := hlast.ordered
    have hbetween := hbehind last (by simp)
    simp only [Span.join]
    rcases List.mem_cons.mp hspan with rfl | hspan
    · omega
    · have hstart := hbehind span hspan
      rcases List.mem_append.mp hspan with hspan | hspan
      · have hstop := hend span hspan last (by simp)
        omega
      · obtain rfl := List.mem_singleton.mp hspan
        omega

end Among

/-! ## Expressions among tokens -/

/-- Expressions one behind the other among some tokens, with everything inside them nested. -/
structure Sit (source : List Char) (ts : List Token) (es : List Expr) : Prop where
  among : Among source ts (es.map Expr.span)
  nests : ∀ whole ∈ es, ∀ e : Expr, e.PartOf whole → e.Nests source

namespace Sit

theorem nil : Sit source ts [] := ⟨.nil, by simp⟩

theorem widen (h : Sit source ts es) (hsub : ts ⊆ ts') : Sit source ts' es :=
  ⟨h.among.widen hsub, h.nests⟩

theorem append (h : Sit source ts es) (h' : Sit source ts' es') (hts : InOrder source (ts ++ ts')) :
    Sit source (ts ++ ts') (es ++ es') :=
  ⟨List.map_append ▸ h.among.append h'.among hts, List.forall_mem_append.mpr ⟨h.nests, h'.nests⟩⟩

/-- An expression without parts, on one token. -/
theorem leaf (hts : InOrder source [t]) (hspan : e.span = t.span) (hparts : e.parts = []) :
    Sit source [t] [e] := by
  refine ⟨by simpa [hspan] using Among.token hts, ?_⟩
  simp only [List.mem_singleton, forall_eq]
  intro part hpart
  cases hpart with
  | itself => exact ⟨hspan ▸ hts.placed t List.mem_cons_self, by simp [hparts], by simp [hparts]⟩
  | inside hmem => simp [hparts] at hmem

/-- An expression over a row of spans, some of which are those of its parts. -/
theorem compose {first last : Span} {middle : List Span}
    (hrow : Among source ts (first :: middle ++ [last])) (hspan : e.span = first.join last)
    (hparts : (e.parts.map Expr.span).Sublist (first :: middle ++ [last]))
    (hnests : ∀ whole ∈ e.parts, ∀ part : Expr, part.PartOf whole → part.Nests source) :
    Sit source ts [e] := by
  obtain ⟨hjoin, hinside⟩ := hrow.join
  refine ⟨by simpa [hspan] using hjoin, ?_⟩
  simp only [List.mem_singleton, forall_eq]
  intro part hpart
  cases hpart with
  | itself =>
    refine ⟨by simpa [hspan] using hjoin.placed, fun part hmem => ?_, ?_⟩
    · rw [hspan]
      exact hinside _ (hparts.subset (List.mem_map_of_mem hmem))
    · exact List.pairwise_map.mp (hrow.apart.sublist hparts)
  | inside hmem h => exact hnests _ hmem part h

end Sit

/-- The expressions of a part of a program that are not parts of others, from left to right. -/
def Phrase.expressions : Phrase → List Expr
  | .expr _ e => [e]
  | .arguments args => args
  | .property _ value => value.toList
  | .properties fields => fields.filterMap (·.2)
  | .declarator _ d => d.init.toList
  | .declarators _ ds => ds.filterMap (·.init)
  | .stmt s => s.expressions
  | .alternate s => alternateExpressions s
  | .run stmts | .body stmts => bodyExpressions stmts
  | .block b => b.expressions

/-- An expression of two others with a token between them. -/
theorem Sit.between {left right : Expr} (h : Sit source ts [left]) (h' : Sit source ts' [right])
    (hts : InOrder source (ts ++ t :: ts')) (hspan : e.span = left.span.join right.span)
    (hparts : e.parts = [left, right]) : Sit source (ts ++ t :: ts') [e] := by
  have hrow := h.among.append (h'.among.cons hts.right) hts
  refine @compose _ _ _ _ _ [t.span] hrow hspan ?_ ?_
  · rw [hparts]
    exact .cons_cons _ (.cons _ (.refl _))
  · rw [hparts]
    exact List.forall_mem_append.mpr ⟨h.nests, h'.nests⟩

/-- An expression and what stands in brackets behind it. -/
theorem Sit.bracketed {opening closing : Token} {first : Expr} (h : Sit source ts [first])
    (h' : Sit source ts' es) (hts : InOrder source (ts ++ opening :: ts' ++ [closing]))
    (hspan : e.span = first.span.join closing.span) (hparts : e.parts = first :: es) :
    Sit source (ts ++ opening :: ts' ++ [closing]) [e] := by
  rw [List.append_assoc] at hts ⊢
  have hrow := h.among.append (h'.among.enclosed hts.right) hts
  refine @compose _ _ _ _ _ (opening.span :: es.map Expr.span) hrow hspan ?_ ?_
  · rw [hparts]
    exact .cons_cons _ (.cons _ (List.sublist_append_left _ _))
  · rw [hparts]
    exact List.forall_mem_append.mpr ⟨h.nests, h'.nests⟩

/-- **Expressions stand among the tokens that write them.** -/
theorem Derives.sit (h : Derives least ts p) (hts : InOrder source ts) :
    Sit source ts p.expressions := by
  induction h with
  -- Expressions
  | identifier | text | null | number => exact .leaf hts rfl rfl
  | group _ _ _ ih => exact (ih hts.left.tail).widen (by simp)
  | tighter _ ih | expression _ ih => exact ih hts
  | call _ _ _ _ ihcallee ihargs =>
    exact (ihcallee hts.left.left).bracketed (ihargs hts.left.right.tail) hts rfl rfl
  | computed _ _ _ _ ihobject ihproperty =>
    exact (ihobject hts.left.left).bracketed (ihproperty hts.left.right.tail) hts rfl rfl
  | @member dot name _ object _ _ _ ih =>
    have hname : Sit source [name] [.identifier name.lexeme name.span] := .leaf hts.right.tail rfl rfl
    exact (ih hts.left).between hname hts rfl rfl
  | binary _ _ _ ihleft ihright | logical _ _ _ ihleft ihright | assignment _ _ _ ihleft ihright =>
    exact (ihleft hts.left).between (ihright hts.right.tail) hts rfl rfl
  | unary _ _ ih =>
    have hoperand := ih hts.tail
    exact @Sit.compose _ _ _ _ _ [] (hoperand.among.cons hts) rfl (.cons _ (.refl _)) hoperand.nests
  | object _ _ _ ih =>
    have hfields := ih hts.left.tail
    exact .compose (hfields.among.enclosed hts) rfl (.cons _ (List.sublist_append_left _ _)) hfields.nests
  -- Rows of expressions
  | no_arguments | no_properties | no_alternate | no_stmts | key | bare => exact .nil
  | one_argument _ ih => exact ih hts
  | more_arguments _ _ _ ihfirst ihrest =>
    exact (ihfirst hts.left).append ((ihrest hts.right.tail).widen (by simp)) hts
  | @last_property _ _ value _ ih =>
    cases value <;> exact ih hts
  | @more_properties _ _ _ _ value _ _ _ _ ihfirst ihrest =>
    have hboth := (ihfirst hts.left).append ((ihrest hts.right.tail).widen (by simp)) hts
    cases value <;> exact hboth
  | entry _ _ _ ih | initialized _ _ _ ih | constants _ _ _ ih =>
    exact (ih hts.tail.tail).widen (by simp)
  | @one_declarator _ _ d _ ih =>
    obtain ⟨name, _ | init, span⟩ := d <;> exact ih hts
  | @more_declarators _ _ _ _ d _ _ _ _ ihfirst ihrest =>
    have hboth := (ihfirst hts.left).append ((ihrest hts.right.tail).widen (by simp)) hts
    obtain ⟨name, _ | init, span⟩ := d <;> exact hboth
  -- Statements
  | declaration _ _ ih | last_alternate _ _ ih | next_alternate _ _ _ ih =>
    exact (ih hts.tail).widen (by simp)
  | function _ _ _ _ _ _ _ _ ih =>
    exact (ih hts.right.tail).widen fun t ht => by simp [ht]
  | conditional _ _ _ _ ihcondition ihconsequent ihalternate =>
    rw [List.append_assoc] at hts ⊢
    have hbodies := (ihconsequent hts.right.left).append (ihalternate hts.right.right) hts.right
    exact ((ihcondition hts.left.tail).append hbodies hts.tail).widen (by simp)
  | loop _ _ _ ihcondition ihbody =>
    exact ((ihcondition hts.left.tail).append (ihbody hts.right) hts.tail).widen (by simp)
  | more_stmts _ _ _ _ ihstmt ihrest =>
    exact ((ihstmt hts.left.left).widen (by simp)).append (ihrest hts.right) hts
  | body _ _ ih => exact (ih hts.right).widen (by simp)
  | block _ _ _ ih => exact (ih hts.left.tail).widen (by simp)

end Grammar

open Grammar

/-- **Expressions stand inside each other**: in a source that is a program, the expressions of statements
stand one behind the other, and every expression inside them stands in the source, with its parts inside
it and one behind the other. -/
theorem expressions_nest {source : String} {program : Program} (h : parse source = .ok program) :
    (program.expressions.Pairwise fun first second => first.span.stop ≤ second.span.start) ∧
      ∀ whole ∈ program.expressions, ∀ e : Expr, e.PartOf whole → e.Nests source.toList := by
  obtain ⟨tokens, htokens, hparse⟩ := exists_of_parse h
  obtain ⟨s, hprogram⟩ := exists_of_parseTokens hparse
  have hspells : Spells [] tokens source.toList := by
    have hspec := tokenize_spec source
    rwa [htokens] at hspec
  have hsublist := List.takeWhile_sublist (l := tokens) fun t : Token => decide (t.kind ≠ .endOfInput)
  have hinorder : InOrder source.toList (tokens.takeWhile (·.kind ≠ .endOfInput)) :=
    ⟨fun t ht => (hspells.standsIn t (hsublist.subset ht)).placed, hspells.pairwise.sublist hsublist⟩
  have hsit := (Parser.derives_of_program hprogram).sit hinorder
  exact ⟨List.pairwise_map.mp hsit.among.apart, hsit.nests⟩

/-- A product begins behind the parenthesis in front of it, where its first factor does. -/
theorem expressions_nest_in_parentheses :
    let source := "(f((a), b)) * (c)"
    let tokens : List Token := [⟨.openParen, ⟨0, 1, 1, 1⟩, "("⟩, ⟨.identifier, ⟨1, 2, 1, 2⟩, "f"⟩,
      ⟨.openParen, ⟨2, 3, 1, 3⟩, "("⟩, ⟨.openParen, ⟨3, 4, 1, 4⟩, "("⟩,
      ⟨.identifier, ⟨4, 5, 1, 5⟩, "a"⟩, ⟨.closeParen, ⟨5, 6, 1, 6⟩, ")"⟩, ⟨.comma, ⟨6, 7, 1, 7⟩, ","⟩,
      ⟨.identifier, ⟨8, 9, 1, 9⟩, "b"⟩, ⟨.closeParen, ⟨9, 10, 1, 10⟩, ")"⟩,
      ⟨.closeParen, ⟨10, 11, 1, 11⟩, ")"⟩, ⟨.operator, ⟨12, 13, 1, 13⟩, "*"⟩,
      ⟨.openParen, ⟨14, 15, 1, 15⟩, "("⟩, ⟨.identifier, ⟨15, 16, 1, 16⟩, "c"⟩,
      ⟨.closeParen, ⟨16, 17, 1, 17⟩, ")"⟩, ⟨.endOfInput, ⟨17, 17, 1, 18⟩, ""⟩]
    let call : Expr := .call (.identifier "f" ⟨1, 2, 1, 2⟩)
      [.identifier "a" ⟨4, 5, 1, 5⟩, .identifier "b" ⟨8, 9, 1, 9⟩] ⟨1, 10, 1, 2⟩
    let product : Expr := .binary call .multiply (.identifier "c" ⟨15, 16, 1, 16⟩) ⟨1, 16, 1, 2⟩
    tokenize source = .ok tokens ∧ parse source = .ok [.expression product] ∧
      product.Nests source.toList ∧ call.Nests source.toList := by
  intro source tokens call product
  have htokens : tokenize source = .ok tokens := by decide +kernel
  have hparse : parse source = .ok [.expression product] := by
    rw [parse, htokens]
    rfl
  obtain ⟨-, hnests⟩ := expressions_nest hparse
  have hproduct := hnests product List.mem_cons_self
  exact ⟨htokens, hparse, hproduct _ .itself, hproduct _ (.inside List.mem_cons_self .itself)⟩

end Scriptlet
