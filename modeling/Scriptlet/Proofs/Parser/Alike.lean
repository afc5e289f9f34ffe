import Scriptlet.Proofs.Parser.Pairs

/-!
# Like tokens are read as like programs

Every reader of the parser does the same on parallel streams, with one lemma for each, given the same
of the readers nested in it. A nested reader always has a token less ahead, so the depth to which
readers may nest never shows (`expression_pairs`, `statement_pairs`).
-/

namespace Scriptlet

open Scriptlet.Stream (Parallel Cut Past Beyond)

namespace Parser

variable {ℓ : Likeness} {beyond : Beyond} {s s' : Stream} {t t' : Token} {n : Nat}
  {inner inner' expr expr' : Parser Expr} {nested nested' : Parser Stmt} {e e' : Expr}

/-- Readers that take a token at least and read like expressions. -/
abbrev PairsExpr (ℓ : Likeness) (beyond : Beyond) (n : Nat) (p p' : Parser Expr) : Prop :=
  Pairs ℓ beyond n (fun _ => 1) p p' (Expr.Like ℓ)

/-- Readers that take a token at least and read like statements. -/
abbrev PairsStmt (ℓ : Likeness) (beyond : Beyond) (n : Nat) (p p' : Parser Stmt) : Prop :=
  Pairs ℓ beyond n (fun _ => 1) p p' (Stmt.Like ℓ)

/-! ## Expressions -/

/-- A legible token of a number reads one. -/
theorem numberLiteral_eq (ht : t.Like ℓ t') (hkind : t.kind = .integer ∨ t.kind = .float) :
    ∃ value, Double.ofLexeme? t.lexeme.toList = some value ∧
      numberLiteral t = pure (.number ⟨value, t.kind = .float⟩ t.span) ∧
      numberLiteral t' = pure (.number ⟨value, t.kind = .float⟩ t'.span) := by
  obtain ⟨value, hvalue⟩ := Option.isSome_iff_exists.mp (ht.legible.number hkind)
  have hvalue' : Double.ofLexeme? t'.lexeme.toList = some value := ht.lexeme ▸ hvalue
  refine ⟨value, hvalue, ?_, ?_⟩
  · rw [numberLiteral, hvalue]
  · rw [numberLiteral, hvalue', ht.kind]

section Expressions

variable (hℓ : ℓ.Carries)

include hℓ

theorem number_pairs (ht : t.Like ℓ t') (hkind : t.kind = .integer ∨ t.kind = .float) :
    PairsAt ℓ beyond t t' (n + 1) (fun _ => 1)
      (do let literal ← numberLiteral t; let _ ← advance; return literal)
      (do let literal ← numberLiteral t'; let _ ← advance; return literal) (Expr.Like ℓ) := by
  obtain ⟨value, hvalue, hleft, hright⟩ := numberLiteral_eq ht hkind
  rw [hleft, hright, pure_bind, pure_bind]
  have hend : t.kind ≠ .endOfInput := by
    rcases hkind with h | h <;> simp [h]
  exact .advance hend (.pure (.number (hℓ.number ht.legible hkind hvalue) ht.span))

theorem primary_pairs (hinner : PairsExpr ℓ beyond n inner inner') :
    PairsExpr ℓ beyond (n + 1) (primary inner) (primary inner') := by
  refine .peek (fun t t' ht => ?_) fun s s' hcut _ => ?_
  · have hnumber : _ → PairsAt ℓ beyond t t' (n + 1) _ _ _ _ := number_pairs hℓ ht
    rw [ht.kind]
    cases hkind : t.kind
    case identifier => exact .advance (by simp [hkind]) (.pure (ht.lexeme ▸ .identifier ht.span))
    case text => exact .advance (by simp [hkind]) (.pure (ht.lexeme ▸ .text ht.span))
    case null => exact .advance (by simp [hkind]) (.pure (.null ht.span))
    case integer => exact hnumber (.inl hkind)
    case float => exact hnumber (.inr hkind)
    case openParen =>
      refine .advance (by simp [hkind]) (hinner.free.bind fun e e' he => ?_)
      exact (Pairs.expect (by decide)).free.bind fun _ _ _ => .pure he
    all_goals exact Pairs.unexpected.next t t'
  · rw [hcut.kind]
    exact .of_cut hcut rfl

omit hℓ in
theorem arguments_pairs (hinner : PairsExpr ℓ beyond n inner inner') :
    Pairs ℓ beyond n (fun _ => 0) (arguments inner) (arguments inner')
      (List.Forall₂ (Expr.Like ℓ)) := by
  have hsome := (Pairs.separated hinner).free
  refine .peek (fun t t' ht => ?_) fun s s' hcut hn => ?_
  · rw [ht.kind]
    split
    · exact (Pairs.pure .nil).next t t'
    · exact hsome.next t t'
  · rw [if_neg (by rw [hcut.kind]; decide), if_neg (by rw [hcut.kind']; decide)]
    exact hsome s s' hcut.parallel hn

theorem suffix_pairs (hinner : PairsExpr ℓ beyond n inner inner') (he : e.Like ℓ e') :
    Pairs ℓ beyond (n + 1) progress (suffix inner e) (suffix inner' e')
      (Option.Rel (Expr.Like ℓ)) := by
  have hjoin : ∀ {close close' : Token}, close.Like ℓ close' →
      ℓ.span (e.span.join close.span) (e'.span.join close'.span) := fun h => hℓ.join he.span h.span
  refine .accepting_taking (by decide) (by decide) ?_ progress_le
    (.accepting_taking (by decide) (by decide) ?_ progress_le
      (.accepting_taking (by decide) (by decide) ?_ progress_le .nothing))
  · refine (arguments_pairs hinner).bind fun args args' hargs => ?_
    exact (Pairs.expect (by decide)).free.bind fun close close' hclose =>
      .pure (.some (.call he hargs (hjoin hclose)))
  · refine (Pairs.expect (by decide)).free.bind fun name name' hname => ?_
    exact .pure (.some (.member he (hname.lexeme ▸ .identifier hname.span) (hjoin hname)
      fun _ _ => ⟨_, _, rfl⟩))
  · refine hinner.free.bind fun property property' hproperty => ?_
    exact (Pairs.expect (by decide)).free.bind fun close close' hclose =>
      .pure (.some (.member he hproperty (hjoin hclose) nofun))

omit hℓ in
theorem suffix_idle (inner : Parser Expr) (e : Expr) : Idle (suffix inner e) :=
  .accepting (by decide) _ (.accepting (by decide) _ (.accepting (by decide) _ .nothing))

theorem callOrMember_pairs (hinner : PairsExpr ℓ beyond n inner inner') :
    PairsExpr ℓ beyond (n + 1) (callOrMember inner) (callOrMember inner') := by
  refine (primary_pairs hℓ hinner).bind_taking fun e e' he => ?_
  exact (Pairs.grow (fun _ _ he => suffix_pairs hℓ hinner he) (suffix_idle inner) he).of_le
    (Nat.le_succ n)

/-! ### Operators -/

/-- A level of binary operators: it looks at kind and text only, and accepts nothing else. -/
structure IsLevel (accepts : Token → Bool) : Prop where
  congr : ∀ t t' : Token, t'.kind = t.kind → t'.lexeme = t.lexeme → accepts t' = accepts t
  binary : ∀ t, accepts t = true → t.isBinary = true

omit hℓ in
theorem isLevel_power : IsLevel isPower :=
  ⟨fun t t' hkind htext => by simp [isPower, hkind, htext], fun t h => by simp [Token.isBinary, h]⟩

omit hℓ in
theorem isLevel_multiplicative : IsLevel isMultiplicative :=
  ⟨fun t t' hkind htext => by simp [isMultiplicative, hkind, htext],
    fun t h => by simp [Token.isBinary, h]⟩

omit hℓ in
theorem isLevel_additive : IsLevel isAdditive :=
  ⟨fun t t' hkind htext => by simp [isAdditive, hkind, htext],
    fun t h => by simp [Token.isBinary, h]⟩

omit hℓ in
theorem isLevel_comparison : IsLevel (·.kind.isComparison) :=
  ⟨fun t t' hkind _ => by simp [hkind], fun t h => by simp [Token.isBinary, h]⟩

omit hℓ in
/-- Neither a semicolon nor the end of input is an operator. -/
theorem IsLevel.rejects {accepts : Token → Bool} (h : IsLevel accepts)
    (ht : t.kind = .endOfInput ∨ t.kind = .semicolon) : ¬accepts t = true := by
  intro haccepts
  have hbinary := h.binary t haccepts
  rcases ht with ht | ht <;>
    simp [Token.isBinary, isPower, isMultiplicative, isAdditive, ht, TokenKind.isComparison] at hbinary

section Levels

variable {accepts : Token → Bool} (haccepts : IsLevel accepts)

include haccepts

omit hℓ in
theorem binaryStep_idle (operand : Parser Expr) (e : Expr) : Idle (binaryStep accepts operand e) :=
  .peek fun t ht => if_neg (haccepts.rejects (t := t) (.inl ht))

theorem binaryStep_pairs (hoperand : PairsExpr ℓ beyond n inner inner') (he : e.Like ℓ e') :
    Pairs ℓ beyond (n + 1) progress (binaryStep accepts inner e) (binaryStep accepts inner' e')
      (Option.Rel (Expr.Like ℓ)) := by
  refine .peek (fun t t' ht => ?_) fun s s' hcut hn => ?_
  · rw [haccepts.congr t t' ht.kind ht.lexeme]
    split
    · rename_i haccept
      obtain ⟨op, hop⟩ := Option.isSome_iff_exists.mp (ht.legible.operator (haccepts.binary t haccept))
      have hend : t.kind ≠ .endOfInput := fun h => haccepts.rejects (.inl h) haccept
      rw [ht.lexeme, hop]
      refine (PairsAt.advance hend (hoperand.free.bind fun right right' hright => ?_)).step
      exact .pure (.some (.binary he hright (hℓ.join he.span hright.span)))
    · exact Pairs.nothing.next t t'
  · rw [if_neg (haccepts.rejects (.inl hcut.kind)), if_neg (haccepts.rejects (.inr hcut.kind'))]
    exact Pairs.nothing s s' hcut.parallel hn

theorem binaryLevel_pairs (hoperand : PairsExpr ℓ beyond (n + 1) inner inner') :
    PairsExpr ℓ beyond (n + 1) (binaryLevel accepts inner) (binaryLevel accepts inner') := by
  have hstep : ∀ e e', e.Like ℓ e' → Pairs ℓ beyond (n + 1) progress (binaryStep accepts inner e)
      (binaryStep accepts inner' e') (Option.Rel (Expr.Like ℓ)) := fun e e' he =>
    binaryStep_pairs hℓ haccepts (hoperand.of_le (Nat.le_succ n)) he
  refine hoperand.bind_taking fun e e' he => ?_
  exact (Pairs.grow hstep (binaryStep_idle haccepts inner) he).of_le (Nat.le_succ n)

end Levels

theorem comparison_pairs (hinner : PairsExpr ℓ beyond n inner inner') :
    PairsExpr ℓ beyond (n + 1) (comparison inner) (comparison inner') := by
  refine binaryLevel_pairs hℓ isLevel_comparison (binaryLevel_pairs hℓ isLevel_additive ?_)
  refine binaryLevel_pairs hℓ isLevel_multiplicative (binaryLevel_pairs hℓ isLevel_power ?_)
  exact callOrMember_pairs hℓ hinner

theorem unary_pairs (hinner : PairsExpr ℓ beyond n inner inner') :
    PairsExpr ℓ beyond (n + 1) (unary inner) (unary inner') := by
  have hoperand := comparison_pairs hℓ hinner
  refine .peek (fun t t' ht => ?_) fun s s' hcut hn => ?_
  · have hadvance : ∀ op, t.kind ≠ .endOfInput → PairsAt ℓ beyond t t' (n + 1) (fun _ => 1)
        (do let sign ← advance; let operand ← comparison inner
            return .unary op operand (sign.span.join operand.span))
        (do let sign ← advance; let operand ← comparison inner'
            return .unary op operand (sign.span.join operand.span)) (Expr.Like ℓ) := fun op hend =>
      .advance hend ((hoperand.of_le (Nat.le_succ n)).free.bind fun operand operand' he =>
        .pure (.unary he (hℓ.join ht.span he.span)))
    rw [ht.kind]
    split
    · exact hoperand.next t t'
    · rename_i op hop
      refine hadvance op fun hend => ?_
      rw [hend] at hop
      cases hop
  · rw [hcut.kind, hcut.kind']
    exact hoperand s s' hcut.parallel hn

theorem logicalStep_pairs (hinner : PairsExpr ℓ beyond n inner inner') (he : e.Like ℓ e') :
    Pairs ℓ beyond (n + 1) progress (logicalStep inner e) (logicalStep inner' e')
      (Option.Rel (Expr.Like ℓ)) := by
  have hoperand := unary_pairs hℓ hinner
  refine .peek (fun t t' ht => ?_) fun s s' hcut hn => ?_
  · rw [ht.kind]
    cases hop : logicalOp? t.kind with
    | none => exact Pairs.nothing.next t t'
    | some op =>
      have hend : t.kind ≠ .endOfInput := fun hend => by
        rw [hend] at hop
        cases hop
      refine (PairsAt.advance hend ?_).step
      refine (hoperand.of_le (Nat.le_succ n)).free.bind fun right right' hright => ?_
      exact .pure (.some (.logical he hright (hℓ.join he.span hright.span)))
  · rw [hcut.kind, hcut.kind']
    exact Pairs.nothing s s' hcut.parallel hn

omit hℓ in
theorem logicalStep_idle (inner : Parser Expr) (e : Expr) : Idle (logicalStep inner e) :=
  .peek fun t ht => by rw [ht]; rfl

theorem logical_pairs (hinner : PairsExpr ℓ beyond n inner inner') :
    PairsExpr ℓ beyond (n + 1) (logical inner) (logical inner') := by
  refine (unary_pairs hℓ hinner).bind_taking fun e e' he => ?_
  exact (Pairs.grow (fun _ _ he => logicalStep_pairs hℓ hinner he) (logicalStep_idle inner) he).of_le
    (Nat.le_succ n)

/-! ### Object literals and assignments -/

omit hℓ in
theorem property_pairs (hinner : PairsExpr ℓ beyond n inner inner') :
    Pairs ℓ beyond (n + 1) (fun _ => 1) (property inner) (property inner')
      (Record.Like (Option.Rel (Expr.Like ℓ))) := by
  refine (Pairs.expect (by decide)).bind_taking fun key key' hkey => ?_
  have hend : ∀ value value', Option.Rel (Expr.Like ℓ) value value' → Pairs ℓ beyond n (fun _ => 0)
      (do
        if (← peek).kind ≠ .closeBrace then
          let _ ← expect .comma .propertySeparator
        return (key.lexeme, value))
      (do
        if (← peek).kind ≠ .closeBrace then
          let _ ← expect .comma .propertySeparator
        return (key'.lexeme, value')) (Record.Like (Option.Rel (Expr.Like ℓ))) := by
    intro value value' hvalue
    have hentry : Record.Like (Option.Rel (Expr.Like ℓ)) (key.lexeme, value) (key'.lexeme, value') :=
      hkey.lexeme ▸ .entry hvalue
    refine .peek (fun t t' ht => ?_) fun s s' hcut _ => ?_
    · dsimp only
      rw [ht.kind]
      split
      · exact ((Pairs.expect (by decide)).free.bind fun _ _ _ => .pure hentry).next t t'
      · exact (Pairs.pure hentry).next t t'
    · dsimp only
      rw [if_pos (by rw [hcut.kind]; decide)]
      refine .of_cut hcut (bind_of_error (expect_apply _ _ s ▸ if_neg ?_))
      rw [hcut.kind]
      decide
  refine .accepting (by decide) (by decide) ?_ (hend none none .none)
  exact (hinner.free.map fun _ _ he => Option.Rel.some he).bind hend

theorem objectOrLogical_pairs (hinner : PairsExpr ℓ beyond n inner inner') :
    PairsExpr ℓ beyond (n + 1) (objectOrLogical inner) (objectOrLogical inner') := by
  have hlogical := logical_pairs hℓ hinner
  refine .peek (fun t t' ht => ?_) fun s s' hcut hn => ?_
  · rw [ht.kind]
    split
    · rename_i hopen
      have hitem : ∀ s s', Parallel ℓ beyond s s' → s.ahead.length < n →
          Outcome ℓ beyond (Past ℓ beyond beyond.tokens) s (fun _ => 1)
            (Record.Like (Option.Rel (Expr.Like ℓ))) (property inner s) (property inner' s') :=
        fun s s' hs hn => (((property_pairs hinner).of_le (Nat.le_succ n)) s s' hs hn).mono
          (fun _ => Nat.le_refl _) (fun _ _ => id) fun _ _ => Parallel.past
      refine .advance (by rw [hopen]; decide) fun s s' hs hn => ?_
      refine (Outcome.closed (Nat.le_refl _) hitem (by decide) (fun _ _ close close' hproperties
        hclose => ?_) hs.past hn).mono (fun _ => Nat.zero_le _) (fun _ _ => id) fun _ _ => id
      exact .pure (.object hproperties (hℓ.join ht.span hclose.span))
    · exact hlogical.next t t'
  · rw [if_neg (by rw [hcut.kind]; decide), if_neg (by rw [hcut.kind']; decide)]
    exact hlogical s s' hcut.parallel hn

theorem assignment_pairs (hinner : PairsExpr ℓ beyond n inner inner') :
    PairsExpr ℓ beyond (n + 1) (assignment inner) (assignment inner') := by
  refine (objectOrLogical_pairs hℓ hinner).bind_taking fun target target' htarget => ?_
  refine .accepting (by decide) (by decide) ?_ (.pure htarget)
  exact hinner.free.bind fun value value' hvalue =>
    .pure (.assignment htarget hvalue (hℓ.join htarget.span hvalue.span))

/-- **Expressions are read alike**, however deep they may nest on either side. -/
theorem expression_pairs {depth depth' : Nat} (hdepth : n ≤ depth) (hdepth' : n ≤ depth') :
    PairsExpr ℓ beyond n (expression depth) (expression depth') := by
  induction n generalizing depth depth' with
  | zero => exact .zero
  | succ n ih =>
    obtain ⟨depth, rfl⟩ : ∃ k, depth = k + 1 := ⟨depth - 1, by omega⟩
    obtain ⟨depth', rfl⟩ : ∃ k, depth' = k + 1 := ⟨depth' - 1, by omega⟩
    exact assignment_pairs hℓ (ih (by omega) (by omega))

end Expressions

/-! ## Statements -/

/-- A semicolon ahead is taken. -/
def semicolonStep : Parser (Option Unit) := do
  if ← accept .semicolon then return some () else return none

/-- Semicolons are skipped as long as there are any. -/
theorem collect_semicolonStep (hlast : s.last.kind ≠ .semicolon) {rounds : Nat}
    (hrounds : s.ahead.length ≤ rounds) :
    ∃ units, collect semicolonStep rounds s = .ok (units, s.skip) := by
  induction rounds generalizing s with
  | zero =>
    have hempty : s.ahead = [] := List.length_eq_zero_iff.mp (Nat.le_zero.mp hrounds)
    exact ⟨[], by rw [Stream.skip_of_nil hempty]; rfl⟩
  | succ rounds ih =>
    by_cases hkind : s.peek.kind = .semicolon
    · have hstep : semicolonStep s = .ok (some (), s.advance) :=
        bind_of_ok (accept_apply .semicolon s ▸ if_pos hkind)
      have hfewer : s.advance.ahead.length ≤ rounds := by
        simp only [Stream.advance, List.length_tail]
        omega
      obtain ⟨units, hrest⟩ := ih (s := s.advance) hlast hfewer
      refine ⟨() :: units, ?_⟩
      rw [collect_of_some hstep, hrest, Stream.skip_of_semicolon hlast hkind]
      rfl
    · have hstep : semicolonStep s = .ok (none, s) :=
        bind_of_ok (accept_apply .semicolon s ▸ if_neg hkind)
      exact ⟨[], by rw [collect_of_none hstep, Stream.skip_of_ne hkind]⟩

/-- Skipping semicolons, whatever the bound. -/
theorem skipSemicolons_apply (hlast : s.last.kind ≠ .semicolon) :
    skipSemicolons s = .ok ((), s.skip) := by
  obtain ⟨units, hunits⟩ := collect_semicolonStep hlast s.fits
  have hmany : many semicolonStep s = .ok (units, s.skip) := hunits
  exact bind_of_ok hmany

theorem statements_bind {γ : Type} (close : TokenKind) (p : Parser Stmt) (f : List Stmt → Parser γ) :
    (statements close p >>= f) = skipSemicolons >>= fun _ =>
      upTo close (do let stmt ← p; skipSemicolons; return stmt) >>= f :=
  bind_assoc _ _ _

theorem statement_item (hnested : PairsStmt ℓ beyond n nested nested')
    (hs : Parallel ℓ beyond s s') (hn : s.ahead.length < n) :
    Outcome ℓ beyond (Past ℓ beyond beyond.resume) s (fun _ => 1) (Stmt.Like ℓ)
      ((do let stmt ← nested; skipSemicolons; return stmt : Parser Stmt) s)
      ((do let stmt ← nested'; skipSemicolons; return stmt : Parser Stmt) s') := by
  refine (hnested s s' hs hn).bind (j := fun _ => 0) fun stmt stmt' r r' hstmt hr _ => ?_
  have hleft := skipSemicolons_apply (s := r) (by rw [hr.ended.last]; decide)
  have hright := skipSemicolons_apply (s := r') (by rw [hr.last', beyond.ends]; decide)
  rw [bind_of_ok hleft, bind_of_ok hright]
  exact ⟨List.length_dropWhile_le _ _, stmt', r'.skip, rfl, hstmt, hr.skip⟩

theorem block_pairs (opening closing : Expectation) (hnested : PairsStmt ℓ beyond n nested nested') :
    Pairs ℓ beyond (n + 1) (fun _ => 1) (block opening closing nested)
      (block opening closing nested') (Block.Like (Stmt.Like ℓ) ℓ.span) := by
  refine (Pairs.expect (by decide)).bind_taking fun brace brace' hbrace s s' hs hn => ?_
  have hleft := skipSemicolons_apply (s := s) (by rw [hs.ended.last]; decide)
  have hright := skipSemicolons_apply (s := s') (by rw [hs.last', beyond.ends]; decide)
  rw [statements_bind, statements_bind, bind_of_ok hleft, bind_of_ok hright]
  have hle : s.skip.ahead.length + 0 ≤ s.ahead.length := List.length_dropWhile_le _ _
  refine (Outcome.earlier (Outcome.closed (List.length_dropWhile_le _ _)
    (fun s s' => statement_item hnested) (by decide) (fun body body' _ _ hbody _ => ?_) hs.skip ?_)
    hle).mono (fun _ => Nat.zero_le _) (fun _ _ => id) fun _ _ => id
  · exact .pure (.block hbody hbrace.span)
  · omega

theorem declarator_pairs (constant : Bool) (hexpr : PairsExpr ℓ beyond n expr expr') :
    Pairs ℓ beyond (n + 1) (fun _ => 1) (declarator constant expr) (declarator constant expr')
      (Declarator.Like ℓ) := by
  refine (Pairs.expect (by decide)).bind_taking fun name name' hname => ?_
  refine .accepting (by decide) (by decide) ?_ ?_
  · exact hexpr.free.bind fun e e' he => .pure ⟨hname.lexeme, .some he, hname.span⟩
  · split
    · rw [hname.lexeme]
      exact .throw hname.span rfl
    · exact .pure ⟨hname.lexeme, .none, hname.span⟩

theorem declarationWord_pairs :
    Pairs ℓ beyond n (fun _ => 0) declarationWord declarationWord (· = ·) :=
  .accepting (by decide) (by decide) (.pure rfl)
    (.accepting (by decide) (by decide) (.pure rfl) .expected)

theorem accept_bind {γ : Type} (kind : TokenKind) (f : Bool → Parser γ) :
    (accept kind >>= f) = (do if ← accept kind then f true else f false) :=
  bind_congr fun accepted => by cases accepted <;> rfl

theorem Pairs.accept_taking {α β : Type} {taken : α → Nat} {Q : α → β → Prop} {kind : TokenKind}
    {f : Bool → Parser α} {f' : Bool → Parser β} (hend : kind ≠ .endOfInput)
    (hsemicolon : kind ≠ .semicolon) (hyes : Pairs ℓ beyond n (fun _ => 0) (f true) (f' true) Q)
    (htaken : ∀ a, taken a ≤ 1) (hno : Pairs ℓ beyond (n + 1) taken (f false) (f' false) Q) :
    Pairs ℓ beyond (n + 1) taken (accept kind >>= f) (accept kind >>= f') Q := by
  rw [accept_bind kind f, accept_bind kind f']
  exact accepting_taking hend hsemicolon hyes htaken hno

theorem declaration_pairs (hexpr : PairsExpr ℓ beyond n expr expr') :
    PairsStmt ℓ beyond (n + 1) (declaration expr) (declaration expr') := by
  refine .peek (fun t t' ht => Pairs.next ?_ t t') fun s s' hcut _ => ?_
  · have hrest : ∀ constant : Bool, Pairs ℓ beyond (n + 1) (fun _ => 1)
        (do let word ← declarationWord
            let declarators ← separated (declarator constant expr)
            return .declaration declarators word constant t.span)
        (do let word ← declarationWord
            let declarators ← separated (declarator constant expr')
            return .declaration declarators word constant t'.span) (Stmt.Like ℓ) := by
      intro constant
      refine declarationWord_pairs.bind fun word _ hword => ?_
      refine (Pairs.separated (declarator_pairs constant hexpr)).bind_taking fun ds ds' hds => ?_
      exact .pure (hword ▸ .declaration hds ht.span)
    exact .accept_taking (by decide) (by decide) ((hrest true).of_le (Nat.le_succ n)).free
      (fun _ => Nat.le_refl 1) (hrest false)
  · have hkind : ∀ kind : TokenKind, kind ≠ .endOfInput → accept kind s = .ok (false, s) :=
      fun kind hne => accept_apply kind s ▸ if_neg (hcut.kind ▸ hne.symm)
    have hword : declarationWord s = expected .declarationKeyword s :=
      (bind_of_ok (hkind .varWord (by decide))).trans (bind_of_ok (hkind .declareWord (by decide)))
    exact .of_cut hcut ((bind_of_ok (hkind .constWord (by decide))).trans (bind_of_error hword))

theorem parameter_pairs (he : e.Like ℓ e') :
    Pairs ℓ beyond n (fun _ => 0) (parameter e) (parameter e') (· = ·) := by
  have hspan := he.span
  cases he with
  | identifier => exact .pure rfl
  | _ => exact .throw hspan rfl

theorem parameters_pairs {args args' : List Expr} (hargs : List.Forall₂ (Expr.Like ℓ) args args') :
    Pairs ℓ beyond n (fun _ => 0) (args.mapM parameter) (args'.mapM parameter) (· = ·) := by
  induction hargs with
  | nil => exact .pure rfl
  | cons harg _ ih =>
    rw [List.mapM_cons, List.mapM_cons]
    refine (parameter_pairs harg).bind fun name _ hname => ih.bind fun names _ hnames => ?_
    exact .pure (hname ▸ hnames ▸ rfl)

theorem function_pairs (ht : t.kind ≠ .endOfInput) (htt' : t.Like ℓ t')
    (hexpr : PairsExpr ℓ beyond n expr expr') (hnested : PairsStmt ℓ beyond n nested nested') :
    PairsAt ℓ beyond t t' (n + 1) (fun _ => 1) (function expr nested) (function expr' nested')
      (Stmt.Like ℓ) := by
  refine .advance ht ?_
  refine (Pairs.expect (by decide)).free.bind fun name name' hname => ?_
  refine (Pairs.expect (by decide)).free.bind fun _ _ _ => ?_
  refine (arguments_pairs hexpr).bind fun args args' hargs => ?_
  refine (Pairs.expect (by decide)).free.bind fun _ _ _ => ?_
  refine (parameters_pairs hargs).bind fun params params' hparams => ?_
  refine ((block_pairs _ _ hnested).of_le (Nat.le_succ n)).free.bind fun body body' hbody => ?_
  exact .pure (hname.lexeme ▸ hparams ▸ .function hbody htt'.span)

theorem alternate_pairs (hnested : PairsStmt ℓ beyond n nested nested') :
    Pairs ℓ beyond n (fun _ => 0) (alternate nested) (alternate nested')
      (Option.Rel (Stmt.Like ℓ)) := by
  refine .accepting (by decide) (by decide) (.peek (fun t t' ht => ?_) fun s s' hcut _ => ?_) (.pure .none)
  · have hblock := ((block_pairs .alternateOpen .alternateClose hnested).of_le (Nat.le_succ n)).free
    rw [ht.kind]
    split
    · exact (hnested.free.map fun _ _ h => .some h).next t t'
    · exact (hblock.bind fun _ _ h => .pure (.some (.block h))).next t t'
  · rw [if_neg (by rw [hcut.kind]; decide)]
    refine .of_cut hcut (bind_of_error (bind_of_error (expect_apply _ _ s ▸ if_neg ?_)))
    rw [hcut.kind]
    decide

theorem conditional_pairs (ht : t.kind ≠ .endOfInput) (htt' : t.Like ℓ t')
    (hexpr : PairsExpr ℓ beyond n expr expr') (hnested : PairsStmt ℓ beyond n nested nested') :
    PairsAt ℓ beyond t t' (n + 1) (fun _ => 1) (conditional expr nested) (conditional expr' nested')
      (Stmt.Like ℓ) := by
  refine .advance ht (hexpr.free.bind fun condition condition' hcondition => ?_)
  refine ((block_pairs _ _ hnested).of_le (Nat.le_succ n)).free.bind fun body body' hbody => ?_
  refine (alternate_pairs hnested).bind fun alternate alternate' halternate => ?_
  exact .pure (.conditional hcondition hbody halternate htt'.span)

theorem loop_pairs (ht : t.kind ≠ .endOfInput) (htt' : t.Like ℓ t')
    (hexpr : PairsExpr ℓ beyond n expr expr') (hnested : PairsStmt ℓ beyond n nested nested') :
    PairsAt ℓ beyond t t' (n + 1) (fun _ => 1) (loop expr nested) (loop expr' nested')
      (Stmt.Like ℓ) := by
  refine .advance ht (hexpr.free.bind fun condition condition' hcondition => ?_)
  refine ((block_pairs _ _ hnested).of_le (Nat.le_succ n)).free.bind fun body body' hbody => ?_
  exact .pure (.loop hcondition hbody htt'.span)

/-- **Statements are read alike**, however deep they may nest on either side. -/
theorem statement_pairs {depth depth' : Nat} (hexpr : PairsExpr ℓ beyond n expr expr')
    (hdepth : n ≤ depth) (hdepth' : n ≤ depth') :
    PairsStmt ℓ beyond n (statement expr depth) (statement expr' depth') := by
  induction n generalizing depth depth' with
  | zero => exact .zero
  | succ n ih =>
    obtain ⟨depth, rfl⟩ : ∃ k, depth = k + 1 := ⟨depth - 1, by omega⟩
    obtain ⟨depth', rfl⟩ : ∃ k, depth' = k + 1 := ⟨depth' - 1, by omega⟩
    have hexpr' := hexpr.of_le (Nat.le_succ n)
    have hnested := ih hexpr' (show n ≤ depth by omega) (show n ≤ depth' by omega)
    have hplain : PairsStmt ℓ beyond (n + 1) (.expression <$> expr) (.expression <$> expr') :=
      hexpr.map fun _ _ => .expression
    refine .peek (fun t t' ht => ?_) fun s s' hcut hn => ?_
    · rw [ht.kind]
      cases hkind : t.kind
      case ifWord => exact conditional_pairs (by simp [hkind]) ht hexpr' hnested
      case whileWord => exact loop_pairs (by simp [hkind]) ht hexpr' hnested
      case varWord => exact (declaration_pairs hexpr').next t t'
      case declareWord => exact (declaration_pairs hexpr').next t t'
      case constWord => exact (declaration_pairs hexpr').next t t'
      case defWord => exact function_pairs (by simp [hkind]) ht hexpr' hnested
      all_goals exact hplain.next t t'
    · rw [hcut.kind, hcut.kind']
      exact hplain s s' hcut.parallel hn

end Parser
end Scriptlet
