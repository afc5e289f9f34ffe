import Scriptlet.Parser.Statement
import Scriptlet.Proofs.Parser.Level

/-!
# Everything read is written

Whatever the parser reads, the tokens it took for it write it: all of them, each once and in its
place. Every reader has a lemma of its own that says so (`Sound`), given the same of the readers of
what nests in it.
-/

namespace Scriptlet

open Grammar

namespace Parser

/-- Whatever a parser gives, the tokens it takes write a certain part of a program. -/
def Sound {α : Type} (p : Parser α) (phrase : α → Phrase) : Prop :=
  ∀ next, Reads next p fun ts a _ => Derives 0 ts (phrase a)

/-- Whatever a step makes of an expression of a level, the tokens it takes write it behind the ones
that write the expression. -/
def Continues (l : Level) (step : Expr → Parser (Option Expr)) : Prop :=
  ∀ e next, Reads next (step e) fun ts o _ => o.elim (ts = []) fun e' =>
    ∀ before, Derives 0 before (.expr l e) → Derives 0 (before ++ ts) (.expr l e')

/-- A level at which expressions grow to the right. -/
theorem Continues.sound {l : Level} {operand : Parser Expr} {step : Expr → Parser (Option Expr)}
    (hstep : Continues l step) (hoperand : Sound operand (.expr l.next)) :
    Sound (operand >>= grow step) (.expr l) := by
  intro next
  refine (hoperand next).bind fun ts e t he => ?_
  have hgrow : Reads t (grow step e) fun rest e' _ =>
      ∀ before, Derives 0 before (.expr l e) → Derives 0 (before ++ rest) (.expr l e') :=
    .grow (I := fun ts e => Derives 0 ts (.expr l e)) hstep
  exact hgrow.mono fun rest e' _ h => h ts (.tighter he)

variable {inner expr : Parser Expr}

/-! ## Expressions -/

theorem numberLiteral_reads (next t : Token) : Reads next (numberLiteral t) fun ts e _ =>
    ts = [] ∧ ∃ value, Double.ofLexeme? t.lexeme.toList = some value ∧
      e = .number ⟨value, t.kind = .float⟩ t.span := by
  unfold numberLiteral
  split
  · rename_i value hvalue
    exact .pure ⟨rfl, value, hvalue, rfl⟩
  · exact .throw

theorem primary_sound (hinner : Sound inner (.expr .assignment)) :
    Sound (primary inner) (.expr .primary) := by
  intro next
  have hnumber (hkind : next.kind = .integer ∨ next.kind = .float) : Reads next (do
      let literal ← numberLiteral next
      let _ ← advance
      return literal) fun ts e _ => Derives 0 ts (.expr .primary e) := by
    refine (numberLiteral_reads next next).first.bind ?_
    rintro ts e t ⟨hfirst, rfl, value, hvalue, rfl⟩
    obtain rfl : t = next := hfirst
    exact .advance (by rcases hkind with h | h <;> simp [h]) fun _ => .pure (.number hkind hvalue)
  refine .peek ?_
  split
  · rename_i hkind
    exact .advance (by simp [hkind]) fun _ => .pure (.identifier hkind)
  · rename_i hkind
    exact .advance (by simp [hkind]) fun _ => .pure (.text hkind)
  · rename_i hkind
    exact .advance (by simp [hkind]) fun _ => .pure (.null hkind)
  · rename_i hkind
    exact hnumber (.inl hkind)
  · rename_i hkind
    exact hnumber (.inr hkind)
  · rename_i hkind
    refine .advance (by simp [hkind]) fun t => (hinner t).bind fun ts e closing he => ?_
    exact .expect (by decide) fun hclosing _ => .pure (.group hkind he hclosing)
  · exact .unexpected

theorem arguments_sound (hinner : Sound inner (.expr .assignment)) :
    Sound (arguments inner) .arguments := by
  intro next
  refine .peek ?_
  split
  · exact .pure .no_arguments
  · exact .separated hinner (fun _ _ => .one_argument) fun _ _ _ _ _ _ => .more_arguments

theorem suffix_continues (hinner : Sound inner (.expr .assignment)) :
    Continues .call (suffix inner) := by
  intro e next
  refine .accept (by decide) (fun ho t => ?_) fun _ => ?_
  · refine (arguments_sound hinner t).bind fun ts args closing hargs => ?_
    refine .expect (by decide) fun hc _ => .pure fun before hbefore => ?_
    simpa using Derives.call hbefore ho hargs hc
  refine .accept (by decide) (fun hdot t => ?_) fun _ => ?_
  · exact .expect (by decide) fun hname _ => .pure fun before hbefore =>
      .member hbefore hdot hname
  refine .accept (by decide) (fun ho t => ?_) fun _ => .pure rfl
  refine (hinner t).bind fun ts property closing hproperty => ?_
  refine .expect (by decide) fun hc _ => .pure fun before hbefore => ?_
  simpa using Derives.computed hbefore ho hproperty hc

theorem callOrMember_sound (hinner : Sound inner (.expr .assignment)) :
    Sound (callOrMember inner) (.expr .call) :=
  (suffix_continues hinner).sound (primary_sound hinner)

theorem binaryStep_continues {l : Level} {operand : Parser Expr}
    (hoperand : Sound operand (.expr l.next)) : Continues l (binaryStep l.accepts operand) := by
  intro left next
  refine .peek ?_
  split
  · rename_i haccepts
    refine .advance (Level.ne_endOfInput_of_accepts haccepts) fun t => ?_
    split
    · exact .throw
    · rename_i op hop
      refine (hoperand t).bind fun ts e _ he => .pure fun before hbefore => ?_
      simpa using Derives.binary hbefore (infix_of_accepts haccepts hop) he
  · exact .pure rfl

/-- A level of binary operators, given the next tighter one. -/
theorem binaryLevel_sound {l : Level} {operand : Parser Expr}
    (hoperand : Sound operand (.expr l.next)) : Sound (binaryLevel l.accepts operand) (.expr l) :=
  (binaryStep_continues hoperand).sound hoperand

theorem comparison_sound (hinner : Sound inner (.expr .assignment)) :
    Sound (comparison inner) (.expr .comparison) :=
  have hpower : Sound (power inner) (.expr .power) :=
    binaryLevel_sound (l := .power) (callOrMember_sound hinner)
  have hproduct : Sound (multiplicative inner) (.expr .multiplicative) :=
    binaryLevel_sound (l := .multiplicative) hpower
  have hsum : Sound (additive inner) (.expr .additive) :=
    binaryLevel_sound (l := .additive) hproduct
  binaryLevel_sound (l := .comparison) hsum

theorem unary_sound (hinner : Sound inner (.expr .assignment)) :
    Sound (unary inner) (.expr .unary) := by
  intro next
  refine .peek ?_
  split
  · exact (comparison_sound hinner next).mono fun _ _ _ he => .tighter (l := .unary) he
  · rename_i op hop
    have hkind := unaryOp?_eq_some.mp hop
    refine .advance (by cases op <;> simp [hkind, UnaryOp.kind]) fun t => ?_
    exact (comparison_sound hinner t).bind fun ts e _ he => .pure (by simpa using .unary hkind he)

theorem logicalStep_continues (hinner : Sound inner (.expr .assignment)) :
    Continues .logical (logicalStep inner) := by
  intro left next
  refine .peek ?_
  split
  · exact .pure rfl
  · rename_i op hop
    have hkind := logicalOp?_eq_some.mp hop
    refine .advance (by cases op <;> simp [hkind, LogicalOp.kind]) fun t => ?_
    refine (unary_sound hinner t).bind fun ts e _ he => .pure fun before hbefore => ?_
    simpa using .logical hbefore hkind he

theorem logical_sound (hinner : Sound inner (.expr .assignment)) :
    Sound (logical inner) (.expr .logical) :=
  (logicalStep_continues hinner).sound (unary_sound hinner)

theorem end_of_property_reads (field : String × Option Expr) (next : Token) : Reads next (do
      if (← peek).kind ≠ .closeBrace then
        let _ ← expect .comma .propertySeparator
      return field) fun ts field' t => field' = field ∧ EndsProperty ts t := by
  refine .peek ?_
  split
  · exact .expect (by decide) fun hcomma _ => .pure ⟨rfl, .inr ⟨next, rfl, hcomma⟩⟩
  · rename_i hclose
    exact .pure ⟨rfl, .inl ⟨rfl, not_not.mp hclose⟩⟩

/-- One property and what ends it. -/
theorem property_reads (hinner : Sound inner (.expr .assignment)) (next : Token) :
    Reads next (property inner) fun ts field t => ∃ ts' rest, ts = ts' ++ rest ∧
      Derives 0 ts' (.property field.1 field.2) ∧ EndsProperty rest t := by
  have hend {ts : List Token} {key : String} {value : Option Expr} (t : Token)
      (h : Derives 0 ts (.property key value)) : Reads t (do
        if (← peek).kind ≠ .closeBrace then
          let _ ← expect .comma .propertySeparator
        return (key, value)) fun rest field t' => ∃ ts' rest', ts ++ rest = ts' ++ rest' ∧
          Derives 0 ts' (.property field.1 field.2) ∧ EndsProperty rest' t' := by
    refine (end_of_property_reads (key, value) t).mono ?_
    rintro rest field t' ⟨rfl, hrest⟩
    exact ⟨ts, rest, rfl, h, hrest⟩
  refine .expect (by decide) fun hkey t => .accept (by decide) (fun hcolon t' => ?_) fun _ => ?_
  · have hvalue : Reads t' (some <$> inner) fun ts value _ =>
        Derives 0 (next :: t :: ts) (.property next.lexeme value) :=
      .map ((hinner t').mono fun ts e _ he => .entry hkey hcolon he)
    exact hvalue.bind fun ts value t'' hproperty => hend t'' hproperty
  · exact hend t (.key hkey)

theorem objectOrLogical_sound (hinner : Sound inner (.expr .assignment)) :
    Sound (objectOrLogical inner) (.expr .object) := by
  intro next
  refine .peek ?_
  split
  · rename_i ho
    refine .advance (by simp [ho]) fun t => ?_
    -- In front of a closing brace there are no more properties.
    refine (Reads.upTo (L := fun t ts fields => (t.kind = .closeBrace → ts = [] ∧ fields = []) ∧
      Derives 0 ts (.properties fields)) ?_ fun _ _ => ⟨fun _ => ⟨rfl, rfl⟩, .no_properties⟩).bind ?_
    · intro t ht
      refine (property_reads hinner t).mono ?_
      rintro _ ⟨key, value⟩ t' ⟨ts, rest, rfl, hproperty, hrest⟩
      refine ⟨(hproperty.starts rfl).append.ne_nil, fun rest' fields hfields =>
        ⟨fun h => absurd h ht, ?_⟩⟩
      rcases hrest with ⟨rfl, ht'⟩ | ⟨comma, rfl, hcomma⟩
      · obtain ⟨rfl, rfl⟩ := hfields.1 ht'
        simpa using Derives.last_property hproperty
      · simpa using Derives.more_properties hproperty hcomma hfields.2
    · intro ts fields closing h
      exact .expect (by decide) fun hc _ => .pure (.object ho h.1.2 hc)
  · exact (logical_sound hinner next).mono fun _ _ _ he => .tighter (l := .object) he

theorem assignment_sound (hinner : Sound inner (.expr .assignment)) :
    Sound (assignment inner) (.expr .assignment) := by
  intro next
  refine (objectOrLogical_sound hinner next).bind fun ts target t htarget => ?_
  refine .accept (by decide) (fun hequals t' => ?_) fun _ => ?_
  · exact (hinner t').bind fun ts' value _ hvalue => .pure (by
      simpa using Derives.assignment htarget hequals hvalue)
  · exact .pure (by simpa using Derives.tighter (l := .assignment) htarget)

theorem expression_sound (depth : Nat) : Sound (expression depth) (.expr .assignment) := by
  induction depth with
  | zero => exact fun _ => .unexpected
  | succ depth ih => exact assignment_sound ih

/-! ## Bodies -/

variable {nested : Parser Stmt}

theorem skipSemicolons_reads (next : Token) :
    Reads next skipSemicolons fun ts _ _ => ∀ t ∈ ts, t.kind = .semicolon := by
  refine .bind (.many (L := fun _ ts _ => ∀ t ∈ ts, t.kind = .semicolon) (E := fun _ => True)
    (fun t => .accept (by decide) (fun ht _ => ?_) fun _ => ?_) fun _ _ => ⟨trivial, by simp⟩)
    fun ts _ _ h => .pure (by simpa using h.1)
  · exact .pure ⟨by simp, fun rest _ hrest => by simpa [ht] using hrest⟩
  · exact .pure ⟨rfl, trivial, by simp⟩

theorem statements_reads (hnested : Sound nested .stmt) (close : TokenKind) (next : Token) :
    Reads next (statements close nested) fun ts stmts t =>
      Derives 0 ts (.body stmts) ∧ (t.kind = close ∨ t.kind = .endOfInput) := by
  refine (skipSemicolons_reads next).bind fun before _ t hbefore => ?_
  refine (Reads.upTo (L := fun _ ts stmts => Derives 0 ts (.run stmts)) (fun t _ => ?_)
    fun _ _ => .no_stmts).mono fun ts stmts _ h => ⟨.body hbefore h.1, h.2⟩
  refine (hnested t).bind fun ts s t' hs => ?_
  refine (skipSemicolons_reads t').bind fun semicolons _ _ hsemicolons => .pure ?_
  refine ⟨by simp [(hs.starts rfl).ne_nil], fun rest stmts hstmts => ?_⟩
  simpa using Derives.more_stmts hs hsemicolons hstmts (by simp)

theorem block_sound (opening closing : Expectation) (hnested : Sound nested .stmt) :
    Sound (block opening closing nested) .block := by
  intro next
  refine .expect (by decide) fun ho t => ?_
  refine (statements_reads hnested .closeBrace t).bind fun ts stmts t' h => ?_
  exact .expect (by decide) fun hc _ => .pure (.block ho h.1 hc)

/-! ## Statements -/

theorem declarator_sound (constant : Bool) (hexpr : Sound expr (.expr .assignment)) :
    Sound (declarator constant expr) (.declarator constant) := by
  intro next
  refine .expect (by decide) fun hname t => .accept (by decide) (fun hequals t' => ?_) fun _ => ?_
  · exact (hexpr t').bind fun ts e _ he => .pure (by
      simpa using Derives.initialized hname hequals he)
  · cases constant with
    | true => exact .throw
    | false => exact .pure (.bare hname)

theorem declarationWord_reads (next : Token) : Reads next declarationWord fun ts word _ =>
    ts = [next] ∧ next.kind = word.kind := by
  refine .accept (by decide) (fun h _ => .pure ⟨rfl, h⟩) fun _ => ?_
  exact .accept (by decide) (fun h _ => .pure ⟨rfl, h⟩) fun _ => .expected

theorem declaration_sound (hexpr : Sound expr (.expr .assignment)) :
    Sound (declaration expr) .stmt := by
  intro next
  have hrest (constant : Bool) (t : Token) : Reads t (do
      let word ← declarationWord
      let declarators ← separated (declarator constant expr)
      return Stmt.declaration declarators word constant next.span) fun ts s _ =>
      ∃ word ts' ds, t.kind = word.kind ∧ ts = t :: ts' ∧ Derives 0 ts' (.declarators constant ds) ∧
        s = .declaration ds word constant next.span := by
    refine (declarationWord_reads t).bind ?_
    rintro ts word t' ⟨rfl, hword⟩
    refine (Reads.separated (L := fun ts ds => Derives 0 ts (.declarators constant ds))
      (declarator_sound constant hexpr) (fun _ _ => .one_declarator)
      fun _ _ _ _ _ _ => .more_declarators).bind fun ts ds _ hds => .pure ?_
    exact ⟨word, ts, ds, hword, by simp, hds, rfl⟩
  refine .peek (.accept (by decide) (fun hconst t => (hrest true t).mono ?_) fun _ =>
    (hrest false next).mono ?_)
  · rintro ts s - ⟨word, ts', ds, hword, rfl, hds, rfl⟩
    exact .constants hconst hword hds
  · rintro ts s - ⟨word, ts', ds, hword, rfl, hds, rfl⟩
    exact .declaration hword hds

theorem parameter_reads (arg : Expr) (next : Token) : Reads next (parameter arg) fun ts param _ =>
    ts = [] ∧ ∃ span, arg = .identifier param span := by
  unfold parameter
  split
  · exact .pure ⟨rfl, _, rfl⟩
  · exact .throw

theorem parameters_read (args : List Expr) (next : Token) :
    Reads next (args.mapM parameter) fun ts params _ => ts = [] ∧
      List.Forall₂ (fun arg param => ∃ span, arg = .identifier param span) args params := by
  induction args generalizing next with
  | nil => exact .pure ⟨rfl, .nil⟩
  | cons arg args ih =>
    rw [List.mapM_cons]
    refine (parameter_reads arg next).bind ?_
    rintro ts param t ⟨rfl, harg⟩
    refine (ih t).bind ?_
    rintro ts params t' ⟨rfl, hargs⟩
    exact .pure ⟨rfl, .cons harg hargs⟩

theorem function_sound {next : Token} (hword : next.kind = .defWord)
    (hexpr : Sound expr (.expr .assignment)) (hnested : Sound nested .stmt) :
    Reads next (function expr nested) fun ts s _ => Derives 0 ts (.stmt s) := by
  refine .advance (by simp [hword]) fun t => .expect (by decide) fun hname t₁ =>
    .expect (by decide) fun ho t₂ => ?_
  refine (arguments_sound hexpr t₂).bind fun ts args closing hargs => ?_
  refine .expect (by decide) fun hc t₃ => (parameters_read args t₃).bind ?_
  rintro _ params t₄ ⟨rfl, hparams⟩
  refine (block_sound .functionBodyOpen .functionBodyClose hnested t₄).bind
    fun ts' body _ hbody => .pure ?_
  simpa using Derives.function hword hname ho hargs hparams hc hbody

theorem alternate_sound (hnested : Sound nested .stmt) : Sound (alternate nested) .alternate := by
  intro next
  refine .accept (by decide) (fun helse t => .peek ?_) fun _ => .pure .no_alternate
  split
  · rename_i hif
    refine .map ((hnested t).first.mono fun ts s t' h => ?_)
    obtain ⟨first, rest, rfl, -⟩ := h.2.starts rfl
    obtain rfl : first = t := h.1
    exact .next_alternate helse hif h.2
  · exact (block_sound .alternateOpen .alternateClose hnested t).bind fun ts b _ hb =>
      .pure (by simpa using Derives.last_alternate helse hb)

theorem conditional_sound {next : Token} (hword : next.kind = .ifWord)
    (hexpr : Sound expr (.expr .assignment)) (hnested : Sound nested .stmt) :
    Reads next (conditional expr nested) fun ts s _ => Derives 0 ts (.stmt s) := by
  refine .advance (by simp [hword]) fun t => (hexpr t).bind fun ts condition t₁ hcondition => ?_
  refine (block_sound .consequentOpen .consequentClose hnested t₁).bind
    fun ts' consequent t₂ hconsequent => ?_
  refine (alternate_sound hnested t₂).bind fun ts'' alternate _ halternate => .pure ?_
  simpa using Derives.conditional hword hcondition hconsequent halternate

theorem loop_sound {next : Token} (hword : next.kind = .whileWord)
    (hexpr : Sound expr (.expr .assignment)) (hnested : Sound nested .stmt) :
    Reads next (loop expr nested) fun ts s _ => Derives 0 ts (.stmt s) := by
  refine .advance (by simp [hword]) fun t => (hexpr t).bind fun ts condition t₁ hcondition => ?_
  refine (block_sound .loopBodyOpen .loopBodyClose hnested t₁).bind fun ts' body _ hbody => .pure ?_
  simpa using Derives.loop hword hcondition hbody

theorem statement_sound (hexpr : Sound expr (.expr .assignment)) (depth : Nat) :
    Sound (statement expr depth) .stmt := by
  induction depth with
  | zero => exact fun _ => .unexpected
  | succ depth ih =>
    intro next
    refine .peek ?_
    split
    · exact conditional_sound ‹_› hexpr ih
    · exact loop_sound ‹_› hexpr ih
    · exact declaration_sound hexpr next
    · exact declaration_sound hexpr next
    · exact declaration_sound hexpr next
    · exact function_sound ‹_› hexpr ih
    · exact .map ((hexpr next).mono fun _ _ _ => .expression)

theorem program_reads (next : Token) : Reads next program fun ts stmts t =>
    Derives 0 ts (.body stmts) ∧ t.kind = .endOfInput := by
  intro s stmts s' hended hpeek h
  have hstatement : Sound (statement (expression (s.bound + 1)) (s.bound + 1)) .stmt :=
    statement_sound (expression_sound (s.bound + 1)) (s.bound + 1)
  obtain ⟨ts, htakes, hbody, hend⟩ :=
    statements_reads hstatement .endOfInput next s stmts s' hended hpeek h
  exact ⟨ts, htakes, hbody, hend.elim id id⟩

end Parser

theorem exists_of_parse {source : String} {program : Program} (h : parse source = .ok program) :
    ∃ tokens, tokenize source = .ok tokens ∧ parseTokens tokens = .ok program := by
  rw [parse] at h
  cases htokens : tokenize source with
  | error failure => rw [htokens] at h; cases h
  | ok tokens => rw [htokens] at h; exact ⟨tokens, rfl, h⟩

theorem exists_of_parseTokens {tokens : List Token} {program : Program}
    (h : parseTokens tokens = .ok program) :
    ∃ r, Parser.program (Stream.ofTokens tokens) = .ok (program, r) := by
  rw [parseTokens] at h
  cases hprogram : Parser.program (Stream.ofTokens tokens) with
  | error failure =>
    rw [hprogram] at h
    cases h
  | ok found =>
    rw [hprogram] at h
    cases h
    exact ⟨found.2, rfl⟩

/-- The tokens before the first end of input write the program that is read from their stream. -/
theorem Parser.derives_of_program {tokens : List Token} {program : Program} {s : Stream}
    (h : Parser.program (Stream.ofTokens tokens) = .ok (program, s)) :
    Derives 0 (tokens.takeWhile (·.kind ≠ .endOfInput)) (.body program) := by
  have hended := Stream.Ended.ofTokens tokens
  obtain ⟨ts, htakes, hbody, hend⟩ := Parser.program_reads _ _ program s hended rfl h
  have hahead : (Stream.ofTokens tokens).ahead = ts := by
    rw [htakes.ahead, (hended.of_takes htakes).ahead_eq_nil hend, List.append_nil]
  have htokens : tokens.takeWhile (·.kind ≠ .endOfInput) = ts := by
    rw [← hahead]
    simp [Stream.ofTokens]
  exact htokens ▸ hbody

/-- Whatever program is read, the tokens before the first end of input write it: all of them, in
their order. -/
theorem derives_of_parseTokens {tokens : List Token} {program : Program}
    (h : parseTokens tokens = .ok program) :
    Derives 0 (tokens.takeWhile (·.kind ≠ .endOfInput)) (.body program) := by
  obtain ⟨s, hprogram⟩ := exists_of_parseTokens h
  exact Parser.derives_of_program hprogram

/-- `-a + b;` is the negation of a sum. -/
theorem derives_negated_sum :
    let minus : Token := ⟨.unaryMinus, ⟨0, 1, 1, 1⟩, "-"⟩
    let a : Token := ⟨.identifier, ⟨1, 2, 1, 2⟩, "a"⟩
    let plus : Token := ⟨.unaryPlus, ⟨3, 4, 1, 4⟩, "+"⟩
    let b : Token := ⟨.identifier, ⟨5, 6, 1, 6⟩, "b"⟩
    let semicolon : Token := ⟨.semicolon, ⟨6, 7, 1, 7⟩, ";"⟩
    let program : Program := [.expression (.unary .minus
      (.binary (.identifier "a" a.span) .add (.identifier "b" b.span) (a.span.join b.span))
      (minus.span.join (a.span.join b.span)))]
    parseTokens [minus, a, plus, b, semicolon, ⟨.endOfInput, ⟨7, 7, 1, 8⟩, ""⟩] = .ok program ∧
      Derives 0 [minus, a, plus, b, semicolon] (.body program) := by
  intro minus a plus b semicolon program
  have hparse : parseTokens [minus, a, plus, b, semicolon, ⟨.endOfInput, ⟨7, 7, 1, 8⟩, ""⟩] =
      .ok program := by rfl
  exact ⟨hparse, derives_of_parseTokens hparse⟩

end Scriptlet
