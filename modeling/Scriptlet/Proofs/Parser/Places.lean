import Scriptlet.Parser.Statement
import Scriptlet.Proofs.Code
import Scriptlet.Proofs.Parser.Reading

/-!
# Parsers keep to the places of their tokens

The spans in a program are spans of tokens or joined from them, and a parser that fails points at a
token. So if places can be joined, and all tokens stand at places, everything that is read stands at
places and every failure points at one (`Parser.program_places`).

The judgement `Parser.Places` has a rule for each way to put parsers together, and each reader has a
lemma that follows its text.
-/

namespace Scriptlet

/-- A stream of tokens at places of some code, the end of input included. -/
structure Stream.Placed (code : Code) (s : Stream) : Prop where
  ahead : ∀ t ∈ s.ahead, code.place t.span
  last : code.place s.last.span

theorem Stream.Placed.peek {code : Code} {s : Stream} (h : s.Placed code) :
    code.place s.peek.span := by
  unfold Stream.peek
  cases hahead : s.ahead with
  | nil => exact h.last
  | cons t ts => exact h.ahead t (by simp [hahead])

theorem Stream.Placed.advance {code : Code} {s : Stream} (h : s.Placed code) :
    s.advance.Placed code :=
  ⟨fun t ht => h.ahead t (List.mem_of_mem_tail ht), h.last⟩

namespace Parser

variable {α β : Type} {code : Code} {p : Parser α} {f : α → Parser β} {Q Q' : α → Prop}
  {R : β → Prop} {a : α} {kind : TokenKind} {what : Expectation}

/-- What a parser comes to on tokens at places: a result that satisfies `Q`, or a failure that points
at a place. -/
def Places (code : Code) (p : Parser α) (Q : α → Prop) : Prop :=
  ∀ s : Stream, s.Placed code →
    match p s with
    | .ok (a, s') => Q a ∧ s'.Placed code
    | .error failure => ∃ span, failure.span = some span ∧ code.place span

namespace Places

/-! ## Rules -/

theorem pure (h : Q a) : Places code (Pure.pure a) Q := fun _ hs => ⟨h, hs⟩

theorem throw {span : Span} {fault : Fault} (h : code.place span) :
    Places code (MonadExcept.throw (Failure.located span fault)) Q := fun _ _ => ⟨span, rfl, h⟩

theorem unexpected : Places code Parser.unexpected Q := fun _ hs => ⟨_, rfl, hs.peek⟩

theorem expected : Places code (Parser.expected what) Q := fun _ hs => ⟨_, rfl, hs.peek⟩

theorem bind (hp : Places code p Q) (hf : ∀ a, Q a → Places code (f a) R) :
    Places code (p >>= f) R := by
  intro s hs
  have hresult := hp s hs
  cases hps : p s with
  | error failure =>
    rw [hps] at hresult
    rw [bind_of_error hps]
    exact hresult
  | ok found =>
    rw [hps] at hresult
    rw [bind_of_ok hps]
    exact hf found.1 hresult.1 found.2 hresult.2

theorem map {g : α → β} (hp : Places code p Q) (hg : ∀ a, Q a → R (g a)) :
    Places code (g <$> p) R := by
  rw [map_eq_pure_bind]
  exact hp.bind fun a ha => pure (hg a ha)

theorem peek : Places code Parser.peek fun t => code.place t.span := fun _ hs => ⟨hs.peek, hs⟩

theorem advance : Places code Parser.advance fun t => code.place t.span :=
  fun _ hs => ⟨hs.peek, hs.advance⟩

theorem accept (kind : TokenKind) : Places code (Parser.accept kind) fun _ => True := by
  refine peek.bind fun t _ => ?_
  split
  · exact advance.bind fun _ _ => pure trivial
  · exact pure trivial

theorem expect (kind : TokenKind) (what : Expectation) :
    Places code (Parser.expect kind what) fun t => code.place t.span := by
  refine peek.bind fun t _ => ?_
  split
  · exact advance
  · exact expected

/-- A choice by whether a token follows. -/
theorem accepting {p' : Parser β} {q' : Parser β} (hyes : Places code p' R)
    (hno : Places code q' R) :
    Places code (do if ← Parser.accept kind then p' else q') R := by
  refine (accept kind).bind fun found _ => ?_
  split
  · exact hyes
  · exact hno

/-! ### Repetition -/

theorem collect {step : Parser (Option α)} (hstep : Places code step fun o => ∀ a ∈ o, Q a)
    (rounds : Nat) : Places code (Parser.collect step rounds) fun as => ∀ a ∈ as, Q a := by
  induction rounds with
  | zero => exact pure (List.forall_mem_nil _)
  | succ rounds ih =>
    refine hstep.bind fun o ho => ?_
    cases o with
    | none => exact pure (List.forall_mem_nil _)
    | some a =>
      exact ih.bind fun as has => pure (List.forall_mem_cons.mpr ⟨ho a rfl, has⟩)

theorem many {step : Parser (Option α)} (hstep : Places code step fun o => ∀ a ∈ o, Q a) :
    Places code (Parser.many step) fun as => ∀ a ∈ as, Q a :=
  fun s hs => collect hstep s.bound s hs

theorem growBy {step : α → Parser (Option α)}
    (hstep : ∀ a, Q a → Places code (step a) fun o => ∀ a' ∈ o, Q a') (rounds : Nat) (ha : Q a) :
    Places code (Parser.growBy step rounds a) Q := by
  induction rounds generalizing a with
  | zero => exact pure ha
  | succ rounds ih =>
    refine (hstep a ha).bind fun o ho => ?_
    cases o with
    | none => exact pure ha
    | some a' => exact ih (ho a' rfl)

theorem grow {step : α → Parser (Option α)}
    (hstep : ∀ a, Q a → Places code (step a) fun o => ∀ a' ∈ o, Q a') (ha : Q a) :
    Places code (Parser.grow step a) Q :=
  fun s hs => growBy hstep s.bound ha s hs

theorem separated (hp : Places code p Q) :
    Places code (Parser.separated p) fun as => ∀ a ∈ as, Q a := by
  refine hp.bind fun first hfirst => ?_
  have hmore : Places code (do
      if ← Parser.accept .comma then return some (← p) else return none) fun o => ∀ a ∈ o, Q a :=
    accepting (hp.bind fun a ha => pure (by simpa using ha)) (pure (by simp))
  exact (many hmore).bind fun others hothers =>
    pure (List.forall_mem_cons.mpr ⟨hfirst, hothers⟩)

theorem upTo (close : TokenKind) (hp : Places code p Q) :
    Places code (Parser.upTo close p) fun as => ∀ a ∈ as, Q a := by
  refine many (peek.bind fun t _ => ?_)
  dsimp only
  split
  · exact pure (by simp)
  · exact hp.bind fun a ha => pure (by simpa using ha)

end Places

/-! ## Expressions -/

variable {inner expr : Parser Expr} {nested : Parser Stmt}

/-- Readers of expressions of some code. -/
abbrev ReadsExpr (code : Code) (p : Parser Expr) : Prop := Places code p (Expr.Within code)

/-- Readers of statements of some code. -/
abbrev ReadsStmt (code : Code) (p : Parser Stmt) : Prop := Places code p (Stmt.Within code)

theorem numberLiteral_places {t : Token} (ht : code.place t.span) :
    ReadsExpr code (numberLiteral t) := by
  unfold numberLiteral
  split
  · exact .pure (.number ht)
  · exact .throw ht

theorem primary_places (hinner : ReadsExpr code inner) : ReadsExpr code (primary inner) := by
  refine Places.peek.bind fun t ht => ?_
  have hnumber : ReadsExpr code (do
      let literal ← numberLiteral t
      let _ ← advance
      return literal) :=
    (numberLiteral_places ht).bind fun literal hliteral =>
      Places.advance.bind fun _ _ => .pure hliteral
  split
  · exact Places.advance.bind fun _ _ => .pure (.identifier ht)
  · exact Places.advance.bind fun _ _ => .pure (.text ht)
  · exact Places.advance.bind fun _ _ => .pure (.null ht)
  · exact hnumber
  · exact hnumber
  · refine Places.advance.bind fun _ _ => hinner.bind fun e he => ?_
    exact (Places.expect _ _).bind fun _ _ => .pure he
  · exact .unexpected

theorem arguments_places (hinner : ReadsExpr code inner) :
    Places code (arguments inner) fun args => ∀ arg ∈ args, arg.Within code := by
  refine Places.peek.bind fun t _ => ?_
  split
  · exact .pure (List.forall_mem_nil _)
  · exact .separated hinner

section Joined

/-! Larger expressions stand at joined places. -/

variable (hjoin : ∀ first last, code.place first → code.place last → code.place (first.join last))

include hjoin

theorem suffix_places (hinner : ReadsExpr code inner) {e : Expr} (he : e.Within code) :
    Places code (suffix inner e) fun o => ∀ e' ∈ o, e'.Within code := by
  refine .accepting ?_ (.accepting ?_ (.accepting ?_ ?_))
  · refine (arguments_places hinner).bind fun args hargs => (Places.expect _ _).bind fun t ht => ?_
    exact .pure (by simpa using .call (hjoin _ _ he.place ht) he hargs)
  · refine (Places.expect _ _).bind fun t ht => .pure ?_
    simpa using .member (hjoin _ _ he.place ht) he (.identifier ht)
  · refine hinner.bind fun property hproperty => (Places.expect _ _).bind fun t ht => .pure ?_
    simpa using .member (hjoin _ _ he.place ht) he hproperty
  · exact .pure (by simp)

theorem callOrMember_places (hinner : ReadsExpr code inner) : ReadsExpr code (callOrMember inner) :=
  (primary_places hinner).bind fun _ he => .grow (fun _ he => suffix_places hjoin hinner he) he

theorem binaryStep_places {accepts : Token → Bool} {operand : Parser Expr}
    (hoperand : ReadsExpr code operand) {left : Expr} (hleft : left.Within code) :
    Places code (binaryStep accepts operand left) fun o => ∀ e ∈ o, e.Within code := by
  refine Places.peek.bind fun t ht => ?_
  split
  · refine Places.advance.bind fun _ _ => ?_
    split
    · exact .throw ht
    · refine hoperand.bind fun right hright => .pure ?_
      simpa using .binary (hjoin _ _ hleft.place hright.place) hleft hright
  · exact .pure (by simp)

theorem binaryLevel_places (accepts : Token → Bool) {operand : Parser Expr}
    (hoperand : ReadsExpr code operand) : ReadsExpr code (binaryLevel accepts operand) :=
  hoperand.bind fun _ he => .grow (fun _ hleft => binaryStep_places hjoin hoperand hleft) he

theorem comparison_places (hinner : ReadsExpr code inner) : ReadsExpr code (comparison inner) := by
  unfold comparison additive multiplicative power
  refine binaryLevel_places hjoin _ (binaryLevel_places hjoin _ ?_)
  exact binaryLevel_places hjoin _ (binaryLevel_places hjoin _ (callOrMember_places hjoin hinner))

theorem unary_places (hinner : ReadsExpr code inner) : ReadsExpr code (unary inner) := by
  have hoperand := comparison_places hjoin hinner
  refine Places.peek.bind fun t _ => ?_
  split
  · exact hoperand
  · refine Places.advance.bind fun sign hsign => hoperand.bind fun operand he => ?_
    exact .pure (.unary (hjoin _ _ hsign he.place) he)

theorem logicalStep_places (hinner : ReadsExpr code inner) {left : Expr} (hleft : left.Within code) :
    Places code (logicalStep inner left) fun o => ∀ e ∈ o, e.Within code := by
  refine Places.peek.bind fun t _ => ?_
  split
  · exact .pure (by simp)
  · refine Places.advance.bind fun _ _ => (unary_places hjoin hinner).bind fun right hright => ?_
    exact .pure (by simpa using .logical (hjoin _ _ hleft.place hright.place) hleft hright)

theorem logical_places (hinner : ReadsExpr code inner) : ReadsExpr code (logical inner) :=
  (unary_places hjoin hinner).bind fun _ he =>
    .grow (fun _ hleft => logicalStep_places hjoin hinner hleft) he

omit hjoin in
theorem property_places (hinner : ReadsExpr code inner) :
    Places code (property inner) fun field => ∀ e, field.2 = some e → e.Within code := by
  refine (Places.expect _ _).bind fun key _ => ?_
  have hend : ∀ value : Option Expr, (∀ e, value = some e → e.Within code) →
      Places code (do
        if (← peek).kind ≠ .closeBrace then
          let _ ← expect .comma .propertySeparator
        return (key.lexeme, value)) fun field => ∀ e, field.2 = some e → e.Within code := by
    refine fun value hvalue => Places.peek.bind fun t _ => ?_
    dsimp only
    split
    · exact (Places.expect _ _).bind fun _ _ => .pure hvalue
    · exact .pure hvalue
  refine .accepting ?_ (hend none (by simp))
  have hvalue : Places code (some <$> inner) fun value => ∀ e, value = some e → e.Within code :=
    hinner.map fun e he => by simpa using he
  exact hvalue.bind hend

theorem objectOrLogical_places (hinner : ReadsExpr code inner) :
    ReadsExpr code (objectOrLogical inner) := by
  refine Places.peek.bind fun t _ => ?_
  split
  · refine Places.advance.bind fun first hfirst => ?_
    refine (Places.upTo _ (property_places hinner)).bind fun properties hproperties => ?_
    refine (Places.expect _ _).bind fun close hclose => .pure ?_
    exact .object (hjoin _ _ hfirst hclose) fun key e hmem => hproperties _ hmem e rfl
  · exact logical_places hjoin hinner

theorem assignment_places (hinner : ReadsExpr code inner) : ReadsExpr code (assignment inner) := by
  refine (objectOrLogical_places hjoin hinner).bind fun target htarget => .accepting ?_ ?_
  · refine hinner.bind fun value hvalue => .pure ?_
    exact .assignment (hjoin _ _ htarget.place hvalue.place) htarget hvalue
  · exact .pure htarget

theorem expression_places (depth : Nat) : ReadsExpr code (expression depth) := by
  induction depth with
  | zero => exact .unexpected
  | succ depth ih => exact assignment_places hjoin ih

end Joined

/-! ## Statements -/

theorem skipSemicolons_places : Places code skipSemicolons fun _ => True := by
  have hstep : Places code (do
      if ← accept .semicolon then return some () else return none) fun o => ∀ a ∈ o, True :=
    .accepting (.pure (by simp)) (.pure (by simp))
  exact (Places.many hstep).bind fun _ _ => .pure trivial

theorem statements_places (close : TokenKind) (hnested : ReadsStmt code nested) :
    Places code (statements close nested) fun stmts => ∀ stmt ∈ stmts, stmt.Within code := by
  refine skipSemicolons_places.bind fun _ _ => .upTo close ?_
  exact hnested.bind fun stmt hstmt => skipSemicolons_places.bind fun _ _ => .pure hstmt

theorem block_places (opening closing : Expectation) (hnested : ReadsStmt code nested) :
    Places code (block opening closing nested) (Block.Within code) := by
  refine (Places.expect _ _).bind fun brace _ => ?_
  refine (statements_places .closeBrace hnested).bind fun body hbody => ?_
  exact (Places.expect _ _).bind fun _ _ => .pure hbody

theorem declarator_places (constant : Bool) (hexpr : ReadsExpr code expr) :
    Places code (declarator constant expr) (Declarator.Within code) := by
  refine (Places.expect _ _).bind fun name hname => .accepting ?_ ?_
  · exact hexpr.bind fun e he => .pure ⟨hname, by simpa using he⟩
  · split
    · exact .throw hname
    · exact .pure ⟨hname, by simp⟩

theorem declarationWord_places : Places code declarationWord fun _ => True :=
  .accepting (.pure trivial) (.accepting (.pure trivial) .expected)

theorem declaration_places (hexpr : ReadsExpr code expr) : ReadsStmt code (declaration expr) := by
  refine Places.peek.bind fun first _ => (Places.accept _).bind fun constant _ => ?_
  refine declarationWord_places.bind fun word _ => ?_
  refine (Places.separated (declarator_places constant hexpr)).bind fun declarators hdeclarators => ?_
  exact .pure (.declaration hdeclarators)

theorem parameter_places {arg : Expr} (harg : arg.Within code) :
    Places code (parameter arg) fun _ => True := by
  unfold parameter
  split
  · exact .pure trivial
  · exact .throw harg.place

theorem parameters_places {args : List Expr} (hargs : ∀ arg ∈ args, arg.Within code) :
    Places code (args.mapM parameter) fun _ => True := by
  induction args with
  | nil => exact .pure trivial
  | cons arg args ih =>
    obtain ⟨harg, hrest⟩ := List.forall_mem_cons.mp hargs
    rw [List.mapM_cons]
    exact (parameter_places harg).bind fun _ _ => (ih hrest).bind fun _ _ => .pure trivial

theorem function_places (hexpr : ReadsExpr code expr) (hnested : ReadsStmt code nested) :
    ReadsStmt code (function expr nested) := by
  refine Places.advance.bind fun first hfirst => (Places.expect _ _).bind fun name _ => ?_
  refine (Places.expect _ _).bind fun _ _ => (arguments_places hexpr).bind fun args hargs => ?_
  refine (Places.expect _ _).bind fun _ _ => (parameters_places hargs).bind fun params _ => ?_
  exact (block_places _ _ hnested).bind fun body hbody => .pure (.function hfirst hbody)

theorem alternate_places (hnested : ReadsStmt code nested) :
    Places code (alternate nested) fun o => ∀ stmt, o = some stmt → stmt.Within code := by
  refine .accepting (Places.peek.bind fun t _ => ?_) (.pure (by simp))
  split
  · exact hnested.map fun stmt hstmt => by simpa using hstmt
  · refine (block_places _ _ hnested).bind fun body hbody => .pure ?_
    simpa using .block hbody

theorem conditional_places (hexpr : ReadsExpr code expr) (hnested : ReadsStmt code nested) :
    ReadsStmt code (conditional expr nested) := by
  refine Places.advance.bind fun first _ => hexpr.bind fun condition hcondition => ?_
  refine (block_places _ _ hnested).bind fun consequent hconsequent => ?_
  refine (alternate_places hnested).bind fun alternate halternate => .pure ?_
  exact .conditional hcondition hconsequent halternate

theorem loop_places (hloops : code.loops) (hexpr : ReadsExpr code expr)
    (hnested : ReadsStmt code nested) : ReadsStmt code (loop expr nested) := by
  refine Places.advance.bind fun first _ => hexpr.bind fun condition hcondition => ?_
  exact (block_places _ _ hnested).bind fun body hbody => .pure (.loop hloops hcondition hbody)

theorem statement_places (hloops : code.loops) (hexpr : ReadsExpr code expr) (depth : Nat) :
    ReadsStmt code (statement expr depth) := by
  induction depth with
  | zero => exact .unexpected
  | succ depth ih =>
    refine Places.peek.bind fun t _ => ?_
    split
    · exact conditional_places hexpr ih
    · exact loop_places hloops hexpr ih
    · exact declaration_places hexpr
    · exact declaration_places hexpr
    · exact declaration_places hexpr
    · exact function_places hexpr ih
    · exact hexpr.map fun _ => .expression

/-- **Programs stand at the places of their tokens, and so do failures to read them.** -/
theorem program_places (hloops : code.loops)
    (hjoin : ∀ first last, code.place first → code.place last → code.place (first.join last)) :
    Places code program fun stmts => ∀ stmt ∈ stmts, stmt.Within code :=
  fun s hs => statements_places .endOfInput
    (statement_places hloops (expression_places hjoin (s.bound + 1)) (s.bound + 1)) s hs

end Parser

end Scriptlet
