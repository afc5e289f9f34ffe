import Scriptlet.Proofs.Parser.WellFormed
import Scriptlet.Proofs.SessionLikeness

/-!
# Members without brackets

The property of a member without brackets is a name, and it is not evaluated. If it were something else,
the evaluator would fall back on evaluating it like one in brackets (`Point.FallsBack.evaluate_eq`).

**Theorem (`wellFormed_of_parseTokens`).** Every program that is read from tokens is well formed, and the
evaluator never falls back: neither while the program runs in a session nor while anything else does.

Functions outlive the program that declares them, so it does not do to look at the text of one program.
That members without brackets have names is a likeness (`Likeness.naming`), and so it is true of all code
in a session and at all points of a run.
-/

namespace Scriptlet

open List (Forall₂)

/-! ## Code in which members without brackets have names -/

/-- Any spans and any numbers, but names for members without brackets. -/
def Likeness.naming : Likeness := ⟨fun _ _ => True, fun _ => True, True⟩

theorem Likeness.computes_naming : naming.Computes := ⟨fun _ _ _ => trivial, fun _ => trivial⟩

theorem Expr.WellFormed.like {e : Expr} (h : e.WellFormed) : e.Like .naming e := by
  induction h with
  | identifier => exact .identifier trivial
  | number => exact .number trivial trivial
  | text => exact .text trivial
  | null => exact .null trivial
  | object _ ih =>
    refine .object (List.forall₂_same.mpr fun entry hentry => ?_) trivial
    obtain ⟨key, _ | e⟩ := entry
    · exact .entry .none
    · exact .entry (.some (ih key e hentry))
  | assignment _ _ ihtarget ihvalue => exact .assignment ihtarget ihvalue trivial
  | binary _ _ ihleft ihright => exact .binary ihleft ihright trivial
  | unary _ ih => exact .unary ih trivial
  | logical _ _ ihleft ihright => exact .logical ihleft ihright trivial
  | member _ ih => exact .member ih (.identifier trivial) trivial fun _ _ => ⟨_, _, rfl⟩
  | computed _ _ ihobject ihproperty => exact .member ihobject ihproperty trivial nofun
  | call _ _ ihcallee ihargs => exact .call ihcallee (List.forall₂_same.mpr ihargs) trivial

theorem Declarator.WellFormed.like {constant : Bool} {d : Declarator} (h : d.WellFormed constant) :
    d.Like .naming d := by
  obtain ⟨name, _ | e, span⟩ := d
  · exact ⟨rfl, .none, trivial⟩
  · exact ⟨rfl, .some (h.init e rfl).like, trivial⟩

theorem Block.like_of_forall {b : Block Stmt} (h : ∀ stmt ∈ b.body, stmt.Like .naming stmt) :
    Block.Like (Stmt.Like .naming) Likeness.naming.span b b :=
  .block (List.forall₂_same.mpr h) trivial

theorem Stmt.WellFormed.like {s : Stmt} (h : s.WellFormed) : s.Like .naming s := by
  induction h with
  | declaration _ hdeclarators =>
    exact .declaration (List.forall₂_same.mpr fun d hd => (hdeclarators d hd).like) trivial
  | function _ ih => exact .function (Block.like_of_forall ih) trivial
  | conditional hcondition _ ih =>
    exact .conditional hcondition.like (Block.like_of_forall ih) .none trivial
  | last_alternate hcondition _ _ ih ihalternate =>
    have hblock : (Stmt.block _).Like .naming _ := .block (Block.like_of_forall ihalternate)
    exact .conditional hcondition.like (Block.like_of_forall ih) (.some hblock) trivial
  | next_alternate hcondition _ _ ih ihalternate =>
    exact .conditional hcondition.like (Block.like_of_forall ih) (.some ihalternate) trivial
  | loop hcondition _ ih => exact .loop hcondition.like (Block.like_of_forall ih) trivial
  | expression he => exact .expression he.like

/-! ## Values -/

/-- A value in which all functions have well formed bodies. -/
def Value.WellFormed (v : Value) : Prop := ∀ f, v.Carries f → ∀ stmt ∈ f.body.body, stmt.WellFormed

mutual

theorem Value.like_of_wellFormed : ∀ v : Value, v.WellFormed → v.Like .naming v
  | .null, _ => .null
  | .boolean b, _ => .boolean b
  | .number _, _ => .number trivial
  | .text s, _ => .text s
  | .object _ fields, h =>
    .object (Value.like_of_wellFormed_fields fields fun _ hentry f hf => h f (.part hentry hf))
  | .function f, h =>
    .function ⟨rfl, rfl, rfl, Block.like_of_forall fun stmt hstmt => (h f (.itself f) stmt hstmt).like, rfl⟩
  | .native g, _ => .native g

theorem Value.like_of_wellFormed_fields : ∀ fields : List (String × Value),
    (∀ entry ∈ fields, entry.2.WellFormed) → Forall₂ (Record.Like (Value.Like .naming)) fields fields
  | [], _ => .nil
  | (_, v) :: rest, h =>
    .cons (.entry (Value.like_of_wellFormed v (h _ List.mem_cons_self)))
      (Value.like_of_wellFormed_fields rest fun entry hentry => h entry (List.mem_cons_of_mem _ hentry))

end

/-! ## Points -/

/-- Whether the property of a member without brackets is evaluated at a point. -/
def Point.FallsBack (p : Point) : Prop :=
  ∃ object property span, p.task = .expression (.member object property false span) ∧
    (Expr.member object property false span).operands = [object, property]

section

variable {steps : Nat} {scope : ScopeId} {object property : Expr} {span : Span} {m : Machine}

/-- The evaluator falls back exactly where the property is no name. -/
theorem Point.fallsBack_iff :
    FallsBack ⟨steps, scope, .expression (.member object property false span), m⟩ ↔
      ∀ name place, property ≠ .identifier name place := by
  constructor
  · intro hfalls name place hproperty
    obtain ⟨_, _, _, htask, hoperands⟩ := hfalls
    cases htask
    subst hproperty
    cases hoperands
  · intro hnone
    refine ⟨object, property, span, rfl, ?_⟩
    cases property with
    | identifier name place => exact absurd rfl (hnone name place)
    | _ => rfl

/-- Where it falls back, a member without brackets is evaluated like one in brackets. -/
theorem Point.FallsBack.evaluate_eq
    (h : FallsBack ⟨steps, scope, .expression (.member object property false span), m⟩) :
    Eval.evaluate steps (.member object property false span) scope =
      Eval.evaluate steps (.member object property true span) scope := by
  have hnone := Point.fallsBack_iff.mp h
  cases steps with
  | zero => rfl
  | succ steps =>
    cases property with
    | identifier name place => exact absurd rfl (hnone name place)
    | _ => rfl

end

theorem Point.Like.not_fallsBack {p : Point} (h : p.Like .naming) : ¬p.FallsBack := by
  intro hfalls
  obtain ⟨steps, scope, task, m⟩ := p
  have ⟨object, property, span, htask, _⟩ := hfalls
  subst htask
  cases h.task with
  | member _ _ _ hname =>
    obtain ⟨name, place, hproperty⟩ := hname trivial rfl
    exact Point.fallsBack_iff.mp hfalls name place hproperty

/-! ## Programs -/

theorem like_of_parseTokens {tokens : List Token} {program : Program}
    (h : parseTokens tokens = .ok program) : Forall₂ (Stmt.Like .naming) program program := by
  obtain ⟨s, hprogram⟩ := exists_of_parseTokens h
  exact List.forall₂_same.mpr fun stmt hstmt => (Parser.wellFormed_of_program hprogram stmt hstmt).like

/-- A step that brings along values with well formed bodies. -/
theorem Session.Step.fits_naming {step : Step} (h : ∀ v ∈ step.args, v.WellFormed) :
    step.Fits .naming := by
  refine ⟨fun source program _ hparse => ?_, fun v hv => v.like_of_wellFormed (h v hv)⟩
  obtain ⟨tokens, -, htokens⟩ := exists_of_parse hparse
  exact like_of_parseTokens htokens

/-- **Every program that is read is well formed**, so the evaluator never falls back on evaluating the
property of a member without brackets: not while a program runs that was read from any tokens, after
whatever has been done in the session before, and not while a step of the session runs something. -/
theorem wellFormed_of_parseTokens {tokens : List Token} {program : Program}
    (h : parseTokens tokens = .ok program) :
    (∀ stmt ∈ program, stmt.WellFormed) ∧
      ∀ console limit row, (∀ step ∈ row, ∀ v ∈ step.args, v.WellFormed) →
        let s := (Session.start console limit).after row
        (∀ root steps p, s.root = some root →
          Reaches ⟨steps, root, .sequence .null program, s.quiet.working⟩ p → ¬p.FallsBack) ∧
        ∀ step first p, (∀ v ∈ step.args, v.WellFormed) → s.Begins step first → Reaches first p →
          ¬p.FallsBack := by
  obtain ⟨r, hprogram⟩ := exists_of_parseTokens h
  refine ⟨Parser.wellFormed_of_program hprogram, fun console limit row hrow => ?_⟩
  have hs : ((Session.start console limit).after row).Like .naming :=
    Session.like_after Likeness.computes_naming (.start console limit) fun step hstep =>
      Session.Step.fits_naming (hrow step hstep)
  have hpoints : ∀ {first p : Point}, first.Like .naming → Reaches first p → ¬p.FallsBack :=
    fun hfirst hreaches => (hreaches.like Likeness.computes_naming hfirst).not_fallsBack
  exact ⟨fun root steps p _ => hpoints ⟨⟨.null, like_of_parseTokens h⟩, hs.quiet.working⟩,
    fun step first p hargs hbegins => hpoints (hbegins.like hs (Session.Step.fits_naming hargs))⟩

/-- A conditional with both kinds of alternate, on members of both kinds. -/
theorem wellFormed_of_parseTokens_alternates :
    let place : Span := ⟨0, 0, 1, 1⟩
    let tokens : List Token := [⟨.ifWord, place, "if"⟩, ⟨.identifier, place, "o"⟩, ⟨.dot, place, "."⟩,
      ⟨.identifier, place, "n"⟩, ⟨.openBrace, place, "\x7b"⟩, ⟨.closeBrace, place, "\x7d"⟩,
      ⟨.elseWord, place, "else"⟩, ⟨.ifWord, place, "if"⟩, ⟨.identifier, place, "o"⟩,
      ⟨.openBracket, place, "["⟩, ⟨.identifier, place, "n"⟩, ⟨.closeBracket, place, "]"⟩,
      ⟨.openBrace, place, "\x7b"⟩, ⟨.closeBrace, place, "\x7d"⟩, ⟨.elseWord, place, "else"⟩,
      ⟨.openBrace, place, "\x7b"⟩, ⟨.constWord, place, "const"⟩, ⟨.declareWord, place, "declare"⟩,
      ⟨.identifier, place, "c"⟩, ⟨.equals, place, "="⟩, ⟨.null, place, "null"⟩,
      ⟨.closeBrace, place, "\x7d"⟩, ⟨.endOfInput, place, ""⟩]
    let last : Stmt := .declaration [⟨"c", some (.null place), place⟩] .declare true place
    let program : Program := [.conditional
      (.member (.identifier "o" place) (.identifier "n" place) false place) ⟨[], place⟩
      (some (.conditional (.member (.identifier "o" place) (.identifier "n" place) true place) ⟨[], place⟩
        (some (.block ⟨[last], place⟩)) place)) place]
    let s := (Session.start (Console.ofLines []) defaultDepthLimit).after
      [.evaluate "declare o = \x7bn: 1\x7d declare n = \"n\""]
    parseTokens tokens = .ok program ∧ s.root = some 0 ∧ (∀ stmt ∈ program, stmt.WellFormed) ∧
      ∀ p, Reaches ⟨ampleSteps, 0, .sequence .null program, s.quiet.working⟩ p → ¬p.FallsBack := by
  intro place tokens last program s
  have hparse : parseTokens tokens = .ok program := by rfl
  have hroot : s.root = some 0 := by decide +kernel
  obtain ⟨hprogram, hsessions⟩ := wellFormed_of_parseTokens hparse
  obtain ⟨hruns, -⟩ := hsessions (Console.ofLines []) defaultDepthLimit
    [.evaluate "declare o = \x7bn: 1\x7d declare n = \"n\""] (by simp [Session.Step.args])
  exact ⟨hparse, hroot, hprogram, fun p => hruns 0 ampleSteps p hroot⟩

end Scriptlet
