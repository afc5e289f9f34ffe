import Scriptlet.Proofs.Parser.Alike
import Scriptlet.Proofs.Parser.Halting
import Scriptlet.Proofs.Parser.Sound

/-!
# Every list of tokens is read to an end

**Theorem (`parse_halts`).** The tokens up to the first end of input have a run. It comes to a program, with
the cursor at the end of input, or to a failure, and it looks at nothing behind. What is parsed is what the
run comes to, whatever stands behind the end of input.

Every reader halts if those nested in it do, with one lemma for each. A nested reader comes behind a token,
so there are fewer tokens ahead of it: where fewer than `n` are, a depth of `n` is never used up, and
neither is a larger one (`expression_halts`, `statement_halts`).
-/

namespace Scriptlet

namespace Parser

variable {input : Input} {t : Token} {n : Nat} {inner expr : Nat → Parser Expr}
  {nested : Nat → Parser Stmt}

/-- Readers of expressions or statements, which take a token at least. -/
abbrev HaltsTaking {α : Type} (input : Input) (n : Nat) (p : Nat → Parser α) : Prop :=
  Halts input n (fun _ => 1) p

/-! ## Expressions -/

theorem primary_halts (hinner : HaltsTaking input n inner) :
    HaltsTaking input (n + 1) fun i => primary (inner i) := by
  refine .peek fun t => ?_
  have hnumber : t.kind ≠ .endOfInput → HaltsAt input t (n + 1) (fun _ => 1) fun _ => (do
      let literal ← numberLiteral t
      let _ ← advance
      return literal) := by
    intro hkind
    rw [numberLiteral]
    split
    · rw [pure_bind]
      exact .advance hkind .pure
    · exact Halts.throw t
  cases hkind : t.kind
  case identifier => exact .advance (by simp [hkind]) .pure
  case text => exact .advance (by simp [hkind]) .pure
  case null => exact .advance (by simp [hkind]) .pure
  case integer => exact hnumber (by simp [hkind])
  case float => exact hnumber (by simp [hkind])
  case openParen =>
    refine .advance (by simp [hkind]) (hinner.free.bind fun e => ?_)
    exact (Halts.expect (by decide)).free.bind fun _ => .pure
  all_goals exact Halts.unexpected t

theorem arguments_halts (hinner : HaltsTaking input n inner) :
    Halts input n (fun _ => 0) fun i => arguments (inner i) := by
  refine .peek fun t => ?_
  split
  · exact Halts.pure t
  · exact (Halts.separated hinner).free t

theorem suffix_halts (hinner : HaltsTaking input n inner) (e : Expr) :
    Halts input (n + 1) progress fun i => suffix (inner i) e := by
  refine .accepting_taking (by decide) ?_ progress_le
    (.accepting_taking (by decide) ?_ progress_le
      (.accepting_taking (by decide) ?_ progress_le .nothing))
  · refine (arguments_halts hinner).bind fun args => ?_
    exact (Halts.expect (by decide)).free.bind fun close => .pure
  · exact (Halts.expect (by decide)).free.bind fun name => .pure
  · refine hinner.free.bind fun property => ?_
    exact (Halts.expect (by decide)).free.bind fun close => .pure

theorem callOrMember_halts (hinner : HaltsTaking input n inner) :
    HaltsTaking input (n + 1) fun i => callOrMember (inner i) := by
  refine (primary_halts hinner).bind_taking fun e => ?_
  exact (Halts.grow (suffix_halts hinner) (fun i => suffix_idle (inner i)) e).of_le (Nat.le_succ n)

section Levels

variable {accepts : Token → Bool} (haccepts : IsLevel accepts)

include haccepts

theorem binaryStep_halts (hoperand : HaltsTaking input n inner) (e : Expr) :
    Halts input (n + 1) progress fun i => binaryStep accepts (inner i) e := by
  refine .peek fun t => ?_
  split
  · rename_i haccept
    have hkind : t.kind ≠ .endOfInput := fun h => haccepts.rejects (.inl h) haccept
    refine (HaltsAt.advance hkind ?_).mono progress_le
    split
    · exact .throw
    · exact hoperand.free.bind fun right => .pure
  · exact Halts.nothing t

theorem binaryLevel_halts (hoperand : HaltsTaking input (n + 1) inner) :
    HaltsTaking input (n + 1) fun i => binaryLevel accepts (inner i) := by
  have hstep := binaryStep_halts haccepts (hoperand.of_le (Nat.le_succ n))
  refine hoperand.bind_taking fun e => ?_
  exact (Halts.grow hstep (fun i => binaryStep_idle haccepts (inner i)) e).of_le (Nat.le_succ n)

end Levels

theorem comparison_halts (hinner : HaltsTaking input n inner) :
    HaltsTaking input (n + 1) fun i => comparison (inner i) := by
  refine binaryLevel_halts isLevel_comparison (binaryLevel_halts isLevel_additive ?_)
  refine binaryLevel_halts isLevel_multiplicative (binaryLevel_halts isLevel_power ?_)
  exact callOrMember_halts hinner

theorem unary_halts (hinner : HaltsTaking input n inner) :
    HaltsTaking input (n + 1) fun i => unary (inner i) := by
  have hoperand := comparison_halts hinner
  refine .peek fun t => ?_
  split
  · exact hoperand t
  · rename_i op hop
    have hkind : t.kind ≠ .endOfInput := by
      intro hend
      rw [hend] at hop
      cases hop
    exact .advance hkind ((hoperand.of_le (Nat.le_succ n)).free.bind fun operand => .pure)

theorem logicalStep_halts (hinner : HaltsTaking input n inner) (e : Expr) :
    Halts input (n + 1) progress fun i => logicalStep (inner i) e := by
  have hoperand := (unary_halts hinner).of_le (Nat.le_succ n)
  refine .peek fun t => ?_
  cases hop : logicalOp? t.kind with
  | none => exact Halts.nothing t
  | some op =>
    have hkind : t.kind ≠ .endOfInput := by
      intro hend
      rw [hend] at hop
      cases hop
    exact (HaltsAt.advance hkind (hoperand.free.bind fun right => .pure)).mono progress_le

theorem logical_halts (hinner : HaltsTaking input n inner) :
    HaltsTaking input (n + 1) fun i => logical (inner i) := by
  refine (unary_halts hinner).bind_taking fun e => ?_
  exact (Halts.grow (logicalStep_halts hinner) (fun i => logicalStep_idle (inner i)) e).of_le
    (Nat.le_succ n)

theorem property_halts (hinner : HaltsTaking input n inner) :
    HaltsTaking input (n + 1) fun i => property (inner i) := by
  refine (Halts.expect (by decide)).bind_taking fun key => ?_
  have hend : ∀ value : Option Expr, Halts input n (fun _ => 0) fun _ => (do
      if (← peek).kind ≠ .closeBrace then
        let _ ← expect .comma .propertySeparator
      return (key.lexeme, value)) := by
    intro value
    refine .peek fun t => ?_
    split
    · exact (Halts.expect (by decide)).free.bind (fun _ => .pure) t
    · exact Halts.pure t
  refine .accepting (by decide) ?_ (hend none)
  exact (hinner.free.map (g := some)).bind hend

theorem objectOrLogical_halts (hinner : HaltsTaking input n inner) :
    HaltsTaking input (n + 1) fun i => objectOrLogical (inner i) := by
  refine .peek fun t => ?_
  split
  · rename_i hopen
    refine .advance (by rw [hopen]; decide) ?_
    refine (Halts.upTo ((property_halts hinner).of_le (Nat.le_succ n))).bind fun properties => ?_
    exact (Halts.expect (by decide)).free.bind fun close => .pure
  · exact logical_halts hinner t

theorem assignment_halts (hinner : HaltsTaking input n inner) :
    HaltsTaking input (n + 1) fun i => assignment (inner i) := by
  refine (objectOrLogical_halts hinner).bind_taking fun target => ?_
  exact .accepting (by decide) (hinner.free.bind fun value => .pure) .pure

/-- **Expressions are read to an end**, and no deeper nesting is tried than there are tokens. -/
theorem expression_halts {depth : Nat} (hdepth : n ≤ depth) :
    HaltsTaking input n fun i => expression (depth + i) := by
  induction n generalizing depth with
  | zero => exact .zero
  | succ n ih =>
    obtain ⟨depth, rfl⟩ : ∃ k, depth = k + 1 := ⟨depth - 1, by omega⟩
    simp only [Nat.add_right_comm depth 1]
    exact assignment_halts (ih (show n ≤ depth by omega))

/-! ## Statements -/

theorem skipSemicolons_halts : Halts input n (fun _ => 0) fun _ => skipSemicolons := by
  have hstep : Halts input n progress fun _ => semicolonStep := by
    cases n with
    | zero => exact .zero
    | succ n => exact .accepting_taking (by decide) .pure progress_le .nothing
  exact (Halts.many hstep fun _ => .accepting (by decide) _ .nothing).bind fun _ => .pure

theorem statements_halts (close : TokenKind) (hnested : HaltsTaking input n nested) :
    Halts input n (fun _ => 0) fun i => statements close (nested i) := by
  refine skipSemicolons_halts.bind fun _ => .upTo ?_
  cases n with
  | zero => exact .zero
  | succ n => exact hnested.bind_taking fun stmt => skipSemicolons_halts.bind fun _ => .pure

theorem block_halts (opening closing : Expectation) (hnested : HaltsTaking input n nested) :
    Halts input n (fun _ => 0) fun i => block opening closing (nested i) := by
  refine (Halts.expect (by decide)).free.bind fun brace => ?_
  refine (statements_halts .closeBrace hnested).bind fun body => ?_
  exact (Halts.expect (by decide)).free.bind fun _ => .pure

theorem declarator_halts (constant : Bool) (hexpr : HaltsTaking input n expr) :
    HaltsTaking input (n + 1) fun i => declarator constant (expr i) := by
  refine (Halts.expect (by decide)).bind_taking fun name => ?_
  refine .accepting (by decide) (hexpr.free.bind fun e => .pure) ?_
  split
  · exact .throw
  · exact .pure

theorem declarationWord_halts : Halts input n (fun _ => 0) fun _ => declarationWord :=
  .accepting (by decide) .pure (.accepting (by decide) .pure .expected)

theorem Halts.accept_taking {α : Type} {taken : α → Nat} {kind : TokenKind}
    {f : Nat → Bool → Parser α} (hend : kind ≠ .endOfInput)
    (hyes : Halts input n (fun _ => 0) fun i => f i true) (htaken : ∀ a, taken a ≤ 1)
    (hno : Halts input (n + 1) taken fun i => f i false) :
    Halts input (n + 1) taken fun i => accept kind >>= f i := by
  rw [funext fun i => accept_bind kind (f i)]
  exact accepting_taking hend hyes htaken hno

theorem declaration_halts (hexpr : HaltsTaking input n expr) :
    HaltsTaking input (n + 1) fun i => declaration (expr i) := by
  refine .peek fun t => ?_
  have hrest : ∀ constant : Bool, HaltsTaking input (n + 1) fun i => (do
      let word ← declarationWord
      let declarators ← separated (declarator constant (expr i))
      return Stmt.declaration declarators word constant t.span) := by
    intro constant
    refine declarationWord_halts.bind fun word => ?_
    exact (Halts.separated (declarator_halts constant hexpr)).bind_taking fun ds => .pure
  exact Halts.accept_taking (by decide) ((hrest true).of_le (Nat.le_succ n)).free
    (fun _ => Nat.le_refl 1) (hrest false) t

theorem parameters_halts (args : List Expr) :
    Halts input n (fun _ => 0) fun _ => args.mapM parameter := by
  induction args with
  | nil => exact .pure
  | cons arg args ih =>
    simp only [List.mapM_cons]
    have hparameter : Halts input n (fun _ => 0) fun _ => parameter arg := by
      cases arg with
      | identifier => exact .pure
      | _ => exact .throw
    exact hparameter.bind fun name => ih.bind fun names => .pure

theorem function_halts (ht : t.kind ≠ .endOfInput) (hexpr : HaltsTaking input n expr)
    (hnested : HaltsTaking input n nested) :
    HaltsAt input t (n + 1) (fun _ => 1) fun i => function (expr i) (nested i) := by
  refine .advance ht ?_
  refine (Halts.expect (by decide)).free.bind fun name => ?_
  refine (Halts.expect (by decide)).free.bind fun _ => ?_
  refine (arguments_halts hexpr).bind fun args => ?_
  refine (Halts.expect (by decide)).free.bind fun _ => ?_
  refine (parameters_halts args).bind fun params => ?_
  exact (block_halts _ _ hnested).bind fun body => .pure

theorem alternate_halts (hnested : HaltsTaking input n nested) :
    Halts input n (fun _ => 0) fun i => alternate (nested i) := by
  refine .accepting (by decide) (.peek fun t => ?_) .pure
  split
  · exact (hnested.free.map (g := some)) t
  · exact (block_halts _ _ hnested).bind (fun body => .pure) t

theorem conditional_halts (ht : t.kind ≠ .endOfInput) (hexpr : HaltsTaking input n expr)
    (hnested : HaltsTaking input n nested) :
    HaltsAt input t (n + 1) (fun _ => 1) fun i => conditional (expr i) (nested i) := by
  refine .advance ht (hexpr.free.bind fun condition => ?_)
  refine (block_halts _ _ hnested).bind fun consequent => ?_
  exact (alternate_halts hnested).bind fun alternate => .pure

theorem loop_halts (ht : t.kind ≠ .endOfInput) (hexpr : HaltsTaking input n expr)
    (hnested : HaltsTaking input n nested) :
    HaltsAt input t (n + 1) (fun _ => 1) fun i => loop (expr i) (nested i) := by
  refine .advance ht (hexpr.free.bind fun condition => ?_)
  exact (block_halts _ _ hnested).bind fun body => .pure

/-- **Statements are read to an end**, and no deeper nesting is tried than there are tokens. -/
theorem statement_halts {depth : Nat} (hexpr : HaltsTaking input n expr) (hdepth : n ≤ depth) :
    HaltsTaking input n fun i => statement (expr i) (depth + i) := by
  induction n generalizing depth with
  | zero => exact .zero
  | succ n ih =>
    obtain ⟨depth, rfl⟩ : ∃ k, depth = k + 1 := ⟨depth - 1, by omega⟩
    have hexpr' := hexpr.of_le (Nat.le_succ n)
    have hnested := ih hexpr' (show n ≤ depth by omega)
    simp only [Nat.add_right_comm depth 1]
    refine .peek fun t => ?_
    cases hkind : t.kind
    case ifWord => exact conditional_halts (by simp [hkind]) hexpr' hnested
    case whileWord => exact loop_halts (by simp [hkind]) hexpr' hnested
    case varWord => exact declaration_halts hexpr' t
    case declareWord => exact declaration_halts hexpr' t
    case constWord => exact declaration_halts hexpr' t
    case defWord => exact function_halts (by simp [hkind]) hexpr' hnested
    all_goals exact (hexpr.map (g := Stmt.expression)) t

/-- The statements up to the end of input, in which others nest less deep than `depth`. -/
def programWithin (depth : Nat) : Parser Program :=
  statements .endOfInput (statement (expression depth) depth)

/-- A program has one run, however deep nesting is tried and whatever stands behind the end of input. -/
theorem program_runs (input : Input) : ∃ reads result, (∀ i ∈ reads, i ≤ input.stop) ∧
    ∀ rest depth, input.stop < depth →
      Runs (input.tokens ++ input.last :: rest) (.once (programWithin depth)) 0 reads result := by
  have hdepth : input.stop + 1 ≤ input.stop + 1 := Nat.le_refl _
  have hhalts := @statements_halts input _ _ .endOfInput
    (statement_halts (expression_halts hdepth) hdepth)
  obtain ⟨t, ht⟩ := input.exists_token (Nat.zero_le _)
  obtain ⟨reads, result, hruns, -⟩ := hhalts t 0 (Nat.zero_le _) (by omega) ht
  have hreads := ((hruns 0).within input.all_stop input.ends (Nat.zero_le _)).1
  refine ⟨reads, result, hreads, fun rest depth hdepth => ?_⟩
  obtain ⟨i, rfl⟩ := Nat.exists_eq_add_of_le (Nat.succ_le_of_lt hdepth)
  refine (hruns i).agree fun i hi => ?_
  have hlt : i < input.all.length := by
    rw [Input.all, List.length_append]
    exact Nat.lt_succ_of_le (hreads i hi)
  rw [List.append_cons]
  exact List.getElem?_append_left hlt

/-- What is parsed is what a run comes to. -/
theorem program_shows {ts rest : List Token} {last : Token} {reads : List Nat}
    {result : Except Failure (Program × Nat)} (hts : ∀ t ∈ ts, t.kind ≠ .endOfInput)
    (hlast : last.kind = .endOfInput)
    (h : Runs (ts ++ last :: rest) (.once (programWithin (ts.length + 1))) 0 reads result) :
    Shows ts last result (program (Stream.ofTokens (ts ++ last :: rest))) := by
  have hahead : (Stream.ofTokens (ts ++ last :: rest)).ahead = ts := Stream.ahead_ofTokens hts hlast
  have hbound : (Stream.ofTokens (ts ++ last :: rest)).bound = ts.length := congrArg List.length hahead
  have hshows := h.shows hlast ⟨hahead, Stream.last_ofTokens hts hlast, Nat.zero_le _⟩ (Nat.le_refl _)
  rw [← hbound] at hshows
  exact hshows

end Parser

open Scriptlet.Parser

/-- **Every list of tokens is read to an end**: a list with an end of input has a run, which comes to a
program or a failure and looks at nothing behind the first end of input. However deep nesting is
tried, and whatever stands behind, the run is the same, and its result is what is parsed. -/
theorem parse_halts {ts : List Token} {last : Token} (hts : ∀ t ∈ ts, t.kind ≠ .endOfInput)
    (hlast : last.kind = .endOfInput) :
    ∃ reads result, (∀ i ∈ reads, i ≤ ts.length) ∧
      (∀ program c, result = .ok (program, c) → c = ts.length) ∧
      ∀ rest, parseTokens (ts ++ last :: rest) = result.map Prod.fst ∧
        ∀ depth, ts.length < depth →
          Runs (ts ++ last :: rest) (.once (programWithin depth)) 0 reads result := by
  obtain ⟨reads, result, hreads, hruns⟩ := program_runs ⟨ts, last, hts, hlast⟩
  have hshows := fun rest => program_shows hts hlast (hruns rest (ts.length + 1) (Nat.lt_succ_self _))
  refine ⟨reads, result, hreads, ?_, fun rest => ⟨?_, hruns rest⟩⟩
  · rintro program c rfl
    obtain ⟨s, hprogram, hs⟩ := (hshows []).of_ok
    have hended := Stream.Ended.ofTokens (ts ++ [last])
    obtain ⟨_, htakes, -, hend⟩ := program_reads _ _ program s hended rfl hprogram
    have hempty := (hended.of_takes htakes).ahead_eq_nil hend
    have hwithin := hs.within
    have hlength := hs.length
    rw [hempty, List.length_nil] at hlength
    omega
  · rw [parseTokens]
    rcases result with failure | ⟨program, c⟩
    · rw [(hshows rest).of_error]
      rfl
    · obtain ⟨s, hprogram, -⟩ := (hshows rest).of_ok
      rw [hprogram]
      rfl

/-- The arguments of a call break off at the end of input, with tokens behind it that would close them. -/
theorem parse_halts_in_arguments :
    let ts : List Token := [⟨.identifier, ⟨0, 1, 1, 1⟩, "f"⟩, ⟨.openParen, ⟨1, 2, 1, 2⟩, "("⟩]
    let last : Token := ⟨.endOfInput, ⟨2, 2, 1, 3⟩, ""⟩
    let rest : List Token := [⟨.closeParen, ⟨2, 3, 1, 3⟩, ")"⟩, ⟨.endOfInput, ⟨3, 3, 1, 4⟩, ""⟩]
    let failure := Failure.located last.span (.unexpectedToken last.describe)
    (∀ t ∈ ts, t.kind ≠ .endOfInput) ∧ last.kind = .endOfInput ∧
      parseTokens (ts ++ last :: rest) = .error failure ∧
      ∃ reads, (∀ i ∈ reads, i ≤ 2) ∧
        Runs (ts ++ last :: rest) (.once (programWithin 3)) 0 reads (.error failure) := by
  intro ts last rest failure
  have hts : ∀ t ∈ ts, t.kind ≠ .endOfInput := by decide
  have hlast : last.kind = .endOfInput := rfl
  have hparse : parseTokens (ts ++ last :: rest) = .error failure := by rfl
  obtain ⟨reads, result, hreads, -, hruns⟩ := parse_halts hts hlast
  obtain ⟨hresult, hdepth⟩ := hruns rest
  refine ⟨hts, hlast, hparse, reads, hreads, ?_⟩
  rw [hparse] at hresult
  cases result with
  | error found =>
    cases hresult
    exact hdepth 3 (by decide)
  | ok found => cases hresult

end Scriptlet
