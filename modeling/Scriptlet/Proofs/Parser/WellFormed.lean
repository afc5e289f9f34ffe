import Scriptlet.Proofs.Parser.Sound

/-!
# Programs are well formed

The types of programs admit more than is ever written. A program that was read from tokens is well formed:
the alternate of a conditional is a block or another conditional, and blocks stand nowhere else;
something is declared by every declaration, and constants have first values; and members without brackets
have names.

None of this needs a look at the parser, since it is true of whatever tokens can write
(`Derives.wellFormed`). Only for the alternates there is something to see: a statement that begins with
the word of a conditional is one (`Derives.exists_conditional`).
-/

namespace Scriptlet

/-- Expressions in which members without brackets have names. -/
inductive Expr.WellFormed : Expr → Prop where
  | identifier {name : String} {span : Span} : WellFormed (.identifier name span)
  | number {value : Number} {span : Span} : WellFormed (.number value span)
  | text {value : String} {span : Span} : WellFormed (.text value span)
  | null {span : Span} : WellFormed (.null span)
  | object {properties : List (String × Option Expr)} {span : Span}
    (hproperties : ∀ key e, (key, some e) ∈ properties → WellFormed e) :
    WellFormed (.object properties span)
  | assignment {target value : Expr} {span : Span} (htarget : WellFormed target)
    (hvalue : WellFormed value) : WellFormed (.assignment target value span)
  | binary {left right : Expr} {op : BinaryOp} {span : Span} (hleft : WellFormed left)
    (hright : WellFormed right) : WellFormed (.binary left op right span)
  | unary {op : UnaryOp} {operand : Expr} {span : Span} (hoperand : WellFormed operand) :
    WellFormed (.unary op operand span)
  | logical {left right : Expr} {op : LogicalOp} {span : Span} (hleft : WellFormed left)
    (hright : WellFormed right) : WellFormed (.logical left op right span)
  | member {object : Expr} {name : String} {place span : Span} (hobject : WellFormed object) :
    WellFormed (.member object (.identifier name place) false span)
  | computed {object property : Expr} {span : Span} (hobject : WellFormed object)
    (hproperty : WellFormed property) : WellFormed (.member object property true span)
  | call {callee : Expr} {args : List Expr} {span : Span} (hcallee : WellFormed callee)
    (hargs : ∀ arg ∈ args, WellFormed arg) : WellFormed (.call callee args span)

/-- A variable or constant with a well formed first value. A constant has one in any case. -/
structure Declarator.WellFormed (constant : Bool) (d : Declarator) : Prop where
  init : ∀ e, d.init = some e → e.WellFormed
  constant : constant = true → d.init.isSome

/-- Well formed statements. There is no case for a block, which only stands as an alternate. -/
inductive Stmt.WellFormed : Stmt → Prop where
  | declaration {declarators : List Declarator} {word : DeclarationWord} {constant : Bool}
    {span : Span} (hne : declarators ≠ []) (hdeclarators : ∀ d ∈ declarators, d.WellFormed constant) :
    WellFormed (.declaration declarators word constant span)
  | function {name : String} {params : List String} {body : Block Stmt} {span : Span}
    (hbody : ∀ stmt ∈ body.body, WellFormed stmt) : WellFormed (.function name params body span)
  | conditional {condition : Expr} {consequent : Block Stmt} {span : Span}
    (hcondition : condition.WellFormed) (hconsequent : ∀ stmt ∈ consequent.body, WellFormed stmt) :
    WellFormed (.conditional condition consequent none span)
  | last_alternate {condition : Expr} {consequent alternate : Block Stmt} {span : Span}
    (hcondition : condition.WellFormed) (hconsequent : ∀ stmt ∈ consequent.body, WellFormed stmt)
    (halternate : ∀ stmt ∈ alternate.body, WellFormed stmt) :
    WellFormed (.conditional condition consequent (some (.block alternate)) span)
  | next_alternate {condition condition' : Expr} {consequent consequent' : Block Stmt}
    {alternate : Option Stmt} {span span' : Span} (hcondition : condition.WellFormed)
    (hconsequent : ∀ stmt ∈ consequent.body, WellFormed stmt)
    (halternate : WellFormed (.conditional condition' consequent' alternate span')) :
    WellFormed
      (.conditional condition consequent (some (.conditional condition' consequent' alternate span')) span)
  | loop {condition : Expr} {body : Block Stmt} {span : Span} (hcondition : condition.WellFormed)
    (hbody : ∀ stmt ∈ body.body, WellFormed stmt) : WellFormed (.loop condition body span)
  | expression {e : Expr} (he : e.WellFormed) : WellFormed (.expression e)

namespace Grammar

variable {least : Nat} {t : Token} {ts : List Token} {s : Stmt} {p : Phrase}

/-- A statement that begins with the word of a conditional is one. -/
theorem Derives.exists_conditional (h : Derives least (t :: ts) (.stmt s)) (ht : t.kind = .ifWord) :
    ∃ condition consequent alternate span, s = .conditional condition consequent alternate span := by
  generalize htokens : t :: ts = tokens at h
  cases h with
  | conditional => exact ⟨_, _, _, _, rfl⟩
  | @declaration _ word _ _ hword =>
    cases htokens
    cases word <;> simp [ht, DeclarationWord.kind] at hword
  | constants hword | function hword | loop hword =>
    cases htokens
    simp [ht] at hword
  | expression he =>
    obtain ⟨first, rest, rfl, hfirst⟩ := he.starts rfl
    cases htokens
    simp [Phrase.begins, Level.begins, beginsOperand, Parser.unaryOp?, ht] at hfirst

/-- Well formed parts of a program. -/
def Phrase.WellFormed : Phrase → Prop
  | .expr _ e => e.WellFormed
  | .arguments args => ∀ arg ∈ args, arg.WellFormed
  | .property _ value => ∀ e, value = some e → e.WellFormed
  | .properties fields => ∀ key e, (key, some e) ∈ fields → e.WellFormed
  | .declarator constant d => d.WellFormed constant
  | .declarators constant ds => ds ≠ [] ∧ ∀ d ∈ ds, d.WellFormed constant
  | .stmt s => s.WellFormed
  | .alternate s => ∀ condition consequent span, condition.WellFormed →
    (∀ stmt ∈ consequent.body, stmt.WellFormed) → (Stmt.conditional condition consequent s span).WellFormed
  | .run stmts | .body stmts => ∀ stmt ∈ stmts, stmt.WellFormed
  | .block b => ∀ stmt ∈ b.body, stmt.WellFormed

/-- **Whatever tokens write is well formed.** -/
theorem Derives.wellFormed (h : Derives least ts p) : p.WellFormed := by
  induction h with
  -- Expressions
  | identifier => exact .identifier
  | text => exact .text
  | null => exact .null
  | number => exact .number
  | group _ _ _ ih | tighter _ ih => exact ih
  | call _ _ _ _ ihcallee ihargs => exact .call ihcallee ihargs
  | member _ _ _ ih => exact .member ih
  | computed _ _ _ _ ihobject ihproperty => exact .computed ihobject ihproperty
  | binary _ _ _ ihleft ihright => exact .binary ihleft ihright
  | unary _ _ ih => exact .unary ih
  | logical _ _ _ ihleft ihright => exact .logical ihleft ihright
  | object _ _ _ ih => exact .object ih
  | assignment _ _ _ ihtarget ihvalue => exact .assignment ihtarget ihvalue
  -- Rows of expressions
  | no_arguments => exact List.forall_mem_nil _
  | one_argument _ ih => exact List.forall_mem_singleton.mpr ih
  | more_arguments _ _ _ ihfirst ihrest => exact List.forall_mem_cons.mpr ⟨ihfirst, ihrest⟩
  | key => exact nofun
  | entry _ _ _ ih =>
    rintro _ ⟨⟩
    exact ih
  | no_properties => exact fun _ _ hmem => absurd hmem List.not_mem_nil
  | last_property _ ih =>
    intro key e hmem
    cases List.mem_singleton.mp hmem
    exact ih e rfl
  | more_properties _ _ _ ihfirst ihrest =>
    intro key e hmem
    rcases List.mem_cons.mp hmem with heq | hmem
    · cases heq
      exact ihfirst e rfl
    · exact ihrest key e hmem
  -- Declarations
  | bare => exact ⟨nofun, nofun⟩
  | initialized _ _ _ ih =>
    refine ⟨?_, fun _ => rfl⟩
    rintro _ ⟨⟩
    exact ih
  | one_declarator _ ih => exact ⟨List.cons_ne_nil _ _, List.forall_mem_singleton.mpr ih⟩
  | more_declarators _ _ _ ihfirst ihrest =>
    exact ⟨List.cons_ne_nil _ _, List.forall_mem_cons.mpr ⟨ihfirst, ihrest.2⟩⟩
  | declaration _ _ ih | constants _ _ _ ih => exact .declaration ih.1 ih.2
  | function _ _ _ _ _ _ _ _ ih => exact .function ih
  -- Control flow
  | conditional _ _ _ _ ihcondition ihconsequent ihalternate =>
    exact ihalternate _ _ _ ihcondition ihconsequent
  | no_alternate => exact fun _ _ _ hcondition hconsequent => .conditional hcondition hconsequent
  | last_alternate _ _ ih =>
    exact fun _ _ _ hcondition hconsequent => .last_alternate hcondition hconsequent ih
  | next_alternate _ hword hs ih =>
    obtain ⟨condition, consequent, alternate, span, rfl⟩ := hs.exists_conditional hword
    exact fun _ _ _ hcondition hconsequent => .next_alternate hcondition hconsequent ih
  | loop _ _ _ ihcondition ihbody => exact .loop ihcondition ihbody
  | expression _ ih => exact .expression ih
  -- Rows of statements
  | no_stmts => exact List.forall_mem_nil _
  | more_stmts _ _ _ _ ihfirst ihrest => exact List.forall_mem_cons.mpr ⟨ihfirst, ihrest⟩
  | body _ _ ih | block _ _ _ ih => exact ih

end Grammar

/-- A program that was read is well formed. -/
theorem Parser.wellFormed_of_program {tokens : List Token} {program : Program} {s : Stream}
    (h : Parser.program (Stream.ofTokens tokens) = .ok (program, s)) :
    ∀ stmt ∈ program, stmt.WellFormed := (derives_of_program h).wellFormed

end Scriptlet
