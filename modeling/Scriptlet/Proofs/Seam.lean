import Scriptlet.Proofs.Semicolon

/-!
# Texts joined at a line feed

A text that can be scanned by itself has the same tokens if a line feed and another text follow it,
and the scanner then goes on behind the line feed (`Token.tokensFrom_append`). No piece goes on across a
line feed, and what is left open at the end of the first text can only be a line comment, which the
line feed closes.

With a semicolon on a line of its own between them, two sources have the tokens of both
(`tokenize_joined`). What the first one ends with makes no difference to the second, which would begin
with a sign only if it were no program.
-/

namespace Scriptlet

open List (Forall₂)

variable {p q : Position} {c : Char} {text tail rest : List Char} {piece : Piece} {ts : List Token}

/-! ## Gaps -/

/-- What becomes of a gap if a line feed and more text follow the text that it is read from. At the end
of the first text the reader goes on behind the line feed, and a piece that stops it does so still. -/
def Resumes (tail : List Char) (joined : Except Failure (Position × List Char)) :
    Except Failure (Position × List Char) → Prop
  | .ok (q, []) => joined = skipGap .plain (q.next '\n') tail
  | .ok (q, c :: rest) => joined = .ok (q, c :: rest ++ '\n' :: tail)
  | .error _ => True

theorem skipGap_line_feed (p : Position) (tail : List Char) :
    skipGap .plain p ('\n' :: tail) = skipGap .plain (p.next '\n') tail :=
  skipGap_spacing rfl p tail

/-- What the next character does not begin with the line feed in sight, it does not begin without. -/
theorem append_line_feed_ne {d : Char} (hd : d ≠ '\n') (h : ∀ rest', rest = d :: rest' → False) :
    ∀ rest', rest ++ '\n' :: tail = d :: rest' → False := by
  intro rest' heq
  cases rest with
  | nil =>
    obtain ⟨hd', -⟩ := List.cons.inj heq
    exact hd hd'.symm
  | cons e rest =>
    obtain ⟨rfl, -⟩ := List.cons.inj heq
    exact h rest rfl

/-- **No gap but a line comment goes on up to a line feed**, and none beyond it. -/
theorem skipGap_append (mode : Gap) (p : Position) (text tail : List Char) :
    Resumes tail (skipGap mode p (text ++ '\n' :: tail)) (skipGap mode p text) := by
  fun_induction skipGap mode p text with
  | case1 p rest ih =>
    rw [List.cons_append, List.cons_append, skipGap]
    exact ih
  | case2 p rest inside ih =>
    rw [List.cons_append, List.cons_append, skipGap]
    exact ih
  | case3 p c rest hline hblock hc ih =>
    rw [List.cons_append, skipGap, if_pos hc]
    · exact ih
    · exact fun rest' h => append_line_feed_ne (by decide) (hline · h) rest'
    · exact fun rest' h => append_line_feed_ne (by decide) (hblock · h) rest'
  | case4 p c rest hline hblock hc =>
    change skipGap _ _ _ = _
    rw [List.cons_append, skipGap, if_neg hc]
    · exact fun rest' h => append_line_feed_ne (by decide) (hline · h) rest'
    · exact fun rest' h => append_line_feed_ne (by decide) (hblock · h) rest'
  | case5 p c rest ih =>
    rw [List.cons_append, skipGap]
    exact ih
  | case6 opening p rest ih =>
    rw [List.cons_append, List.cons_append, skipGap]
    exact ih
  | case7 opening p c rest hne ih =>
    rw [List.cons_append, skipGap]
    · exact ih
    · exact fun rest' h => append_line_feed_ne (by decide) (hne · h) rest'
  | case8 opening p => trivial
  | case9 mode p hne =>
    cases mode with
    | plain => exact skipGap_line_feed p tail
    | lineComment =>
      change skipGap _ _ _ = _
      rw [List.nil_append, skipGap, if_pos rfl]
    | blockComment opening => exact absurd rfl (hne opening)

/-- A text that is nothing but a gap is passed as a whole. -/
theorem advance_of_skipGap (h : skipGap .plain p text = .ok (q, [])) : q = p.advance text := by
  have hskips := skipGap_spec .plain p text
  rw [h] at hskips
  obtain ⟨gap, rfl, rfl, -, -⟩ := hskips
  rw [List.append_nil]

/-! ## Pieces -/

theorem takeWhile_append_stop {P : Char → Bool} (hstop : P c = false) (text tail : List Char) :
    (text ++ c :: tail).takeWhile P = text.takeWhile P := by
  induction text with
  | nil => exact List.takeWhile_cons_of_neg (by simp [hstop])
  | cons d text ih =>
    rw [List.cons_append, List.takeWhile_cons, List.takeWhile_cons, ih]

theorem dropWhile_append_stop {P : Char → Bool} (hstop : P c = false) (text tail : List Char) :
    (text ++ c :: tail).dropWhile P = text.dropWhile P ++ c :: tail := by
  induction text with
  | nil => exact List.dropWhile_cons_of_neg (by simp [hstop])
  | cons d text ih =>
    rw [List.cons_append, List.dropWhile_cons, List.dropWhile_cons, ih]
    split <;> rfl

namespace Piece

/-- A piece with a line feed and more text behind it. -/
def before (tail : List Char) (piece : Piece) : Piece :=
  ⟨piece.kind, piece.text, piece.lexeme, piece.rest ++ '\n' :: tail⟩

theorem ofRun_append (hc : isRunner c = true) (h : ofRun p c rest = .ok piece) :
    ofRun p c (rest ++ '\n' :: tail) = .ok (piece.before tail) := by
  have hstop : decide ('\n' = c) = false := by
    refine decide_eq_false ?_
    rintro rfl
    cases hc
  unfold ofRun at h ⊢
  dsimp only at h ⊢
  rw [takeWhile_append_stop hstop, dropWhile_append_stop hstop]
  split at h
  · cases h
    rfl
  · cases h

theorem ofComparison_append (kinds : TokenKind × TokenKind) (c : Char) (rest tail : List Char) :
    ofComparison kinds c (rest ++ '\n' :: tail) = (ofComparison kinds c rest).before tail := by
  rcases rest with _ | ⟨d, rest⟩
  · rfl
  · by_cases hd : d = '='
    · subst hd
      rfl
    · rw [List.cons_append, ofComparison, ofComparison]
      · rfl
      · exact fun _ h => hd (List.cons.inj h).1
      · exact fun _ h => hd (List.cons.inj h).1

/-- A string that is closed may hold line feeds; those behind it do not matter. -/
theorem ofQuote_append (h : ofQuote p c rest = .ok piece) :
    ofQuote p c (rest ++ '\n' :: tail) = .ok (piece.before tail) := by
  unfold ofQuote at h ⊢
  dsimp only at h ⊢
  split at h
  · cases h
  · rename_i d after hafter
    cases h
    have hlength : (rest.takeWhile (· ≠ c)).length ≠ rest.length := by
      intro hlength
      have hall := List.takeWhile_append_dropWhile (p := (· ≠ c)) (l := rest)
      rw [hafter] at hall
      have hlengths := congrArg List.length hall
      simp only [List.length_append, List.length_cons, hlength] at hlengths
      omega
    have hnil : (rest.dropWhile (· ≠ c)).isEmpty = false := by rw [hafter]; rfl
    rw [List.takeWhile_append, if_neg hlength, List.dropWhile_append, hnil, hafter]
    rfl

theorem splitDigits_append_stop (hstop : c.isDigit = false) (text tail : List Char) :
    splitDigits (text ++ c :: tail) = ((splitDigits text).1, (splitDigits text).2 ++ c :: tail) := by
  rw [splitDigits, takeWhile_append_stop hstop, dropWhile_append_stop hstop]
  rfl

theorem number_append (text tail : List Char) :
    number (text ++ '\n' :: tail) = (number text).before tail := by
  have hsplit := splitDigits_append_stop (show Char.isDigit '\n' = false from rfl) text tail
  by_cases hpoint : ∃ rest, (splitDigits text).2 = '.' :: rest
  · obtain ⟨rest, hrest⟩ := hpoint
    have hrest' : (splitDigits (text ++ '\n' :: tail)).2 = '.' :: (rest ++ '\n' :: tail) := by
      rw [hsplit, hrest]
      rfl
    rw [number_pointed hrest, number_pointed hrest', hsplit, splitDigits_append_stop rfl]
    rfl
  · have hrest : ∀ rest, (splitDigits text).2 = '.' :: rest → False :=
      fun rest h => hpoint ⟨rest, h⟩
    have hrest' : ∀ rest, (splitDigits (text ++ '\n' :: tail)).2 = '.' :: rest → False := by
      rw [hsplit]
      exact append_line_feed_ne (by decide) hrest
    rw [number_whole hrest, number_whole hrest', hsplit]
    rfl

theorem ofDigits_append (h : ofDigits p text = .ok piece) :
    ofDigits p (text ++ '\n' :: tail) = .ok (piece.before tail) := by
  rw [ofDigits_eq] at h ⊢
  rw [number_append]
  change (if (Double.ofLexeme? (number text).text).isSome then _ else _) = _
  split at h
  · rename_i hnumber
    cases h
    exact if_pos hnumber
  · cases h

theorem ofWord_append (c : Char) (rest tail : List Char) :
    ofWord c (rest ++ '\n' :: tail) = (ofWord c rest).before tail := by
  have hstop : isLetterOrNumeral '\n' = false := by decide +kernel
  rw [ofWord, takeWhile_append_stop hstop, dropWhile_append_stop hstop]
  rfl

/-- **No piece goes on across a line feed**, unless it is a string that ends behind it. -/
theorem scan_append {previous : Option TokenKind} (h : scan previous p c rest = .ok piece) :
    scan previous p c (rest ++ '\n' :: tail) = .ok (piece.before tail) := by
  revert h
  unfold scan
  split
  · intro h
    cases h
    rfl
  split
  · intro h
    cases h
    rfl
  split
  · rename_i hrunner
    exact ofRun_append hrunner
  split
  · intro h
    cases h
    exact congrArg Except.ok (ofComparison_append _ c rest tail)
  split
  · exact ofQuote_append
  split
  · exact ofDigits_append
  split
  · intro h
    cases h
    exact congrArg Except.ok (ofWord_append c rest tail)
  · exact fun h => by cases h

end Piece

/-! ## Tokens -/

namespace Token

theorem tokensFrom_ne_nil {steps : Nat} {previous : Option TokenKind}
    (h : tokensFrom steps previous p text = .ok ts) : ts ≠ [] := by
  cases steps with
  | zero =>
    cases h
    exact List.cons_ne_nil _ _
  | succ steps =>
    obtain ⟨q, -, rfl⟩ | ⟨q, c, rest, piece, others, -, -, -, rfl⟩ := tokensFrom_cases h
    · exact List.cons_ne_nil _ _
    · exact List.cons_ne_nil _ _

/-- **What can be scanned by itself can be scanned in front of a line feed**, with the same tokens but
for the end of input, and the scanner goes on behind the line feed. -/
theorem tokensFrom_append {steps steps' : Nat} {previous : Option TokenKind}
    (hsteps : text.length < steps) (hsteps' : (text ++ '\n' :: tail).length < steps')
    (h : tokensFrom steps previous p text = .ok ts) :
    ∃ left previous', tail.length < left ∧
      tokensFrom steps' previous p (text ++ '\n' :: tail) =
        (tokensFrom left previous' ((p.advance text).next '\n') tail).map (ts.dropLast ++ ·) := by
  induction steps generalizing previous p text ts steps' with
  | zero => exact absurd hsteps (Nat.not_lt_zero _)
  | succ steps ih =>
    obtain ⟨steps', rfl⟩ := Nat.exists_eq_succ_of_ne_zero (Nat.ne_zero_of_lt hsteps')
    have hresumes := skipGap_append .plain p text tail
    obtain ⟨q, hgap, rfl⟩ | ⟨q, c, rest, piece, others, hgap, hpiece, hothers, rfl⟩ :=
      tokensFrom_cases h
    · -- The first text is a gap, which the line feed makes longer.
      obtain rfl := advance_of_skipGap hgap
      rw [hgap] at hresumes
      have hjoined : tokensFrom (steps' + 1) previous p (text ++ '\n' :: tail) =
          tokensFrom (steps' + 1) previous ((p.advance text).next '\n') tail := by
        rw [tokensFrom_succ, hresumes, ← tokensFrom_succ]
      have htail : tail.length < steps' + 1 := by
        rw [List.length_append, List.length_cons] at hsteps'
        omega
      refine ⟨steps' + 1, previous, htail, ?_⟩
      rw [hjoined]
      cases tokensFrom (steps' + 1) previous ((p.advance text).next '\n') tail <;> rfl
    · -- Behind the piece comes the rest of the first text, as before.
      rw [hgap] at hresumes
      have hlength := length_rest_lt hgap hpiece
      obtain ⟨gap, rfl, rfl, -⟩ := exists_gap hgap hpiece
      have hlength' : (piece.rest ++ '\n' :: tail).length < steps' := by
        simp only [List.length_append] at hlength hsteps' ⊢
        omega
      obtain ⟨left, previous', hleft, hrest⟩ := ih (by omega) hlength' hothers
      refine ⟨left, previous', hleft, ?_⟩
      rw [tokensFrom_succ, hresumes]
      dsimp only [List.cons_append]
      rw [Piece.scan_append hpiece]
      change Except.map _ (tokensFrom steps' (some piece.kind)
        ((p.advance gap).advance piece.text) (piece.rest ++ '\n' :: tail)) = _
      rw [hrest, Position.advance_append, Position.advance_append]
      obtain ⟨other, others, rfl⟩ := List.exists_cons_of_ne_nil (tokensFrom_ne_nil hothers)
      cases tokensFrom left previous'
        ((((p.advance gap).advance piece.text).advance piece.rest).next '\n') tail <;> rfl

end Token

/-! ## Sources -/

/-- How far a source is moved by another one and a line with a semicolon in front of it. -/
def Shift.behind (source : String) : Shift :=
  ⟨source.utf8ByteSize + 3, source.toList.count '\n' + 2, 0⟩

theorem Position.advance_behind (source : String) :
    ((((start.advance source.toList).next '\n').next ';').next '\n') =
      start.moved (.behind source) := by
  have hnext : ∀ p : Position, ((p.next '\n').next ';').next '\n' =
      ⟨p.offset + 3, p.line + 2, 1⟩ := fun _ => rfl
  rw [hnext, advance_start, after, moved, start, Shift.behind, String.ofList_toList]
  simp only [Position.mk.injEq, if_true, and_true]
  omega

variable {source₁ source₂ : String} {ts₁ ts₂ : List Token} {last : Token}

/-- **Two sources with a semicolon between them have the tokens of both**, if the second does not begin
with a sign. -/
theorem tokenize_joined (h₁ : tokenize source₁ = .ok (ts₁ ++ [last])) (h₂ : tokenize source₂ = .ok ts₂)
    (hsign : ∀ c ∈ firstVisible? source₂, isSign c = false) :
    ∃ semicolon : Token, semicolon.kind = .semicolon ∧
      tokenize (source₁ ++ "\n;\n" ++ source₂) =
        .ok (ts₁ ++ semicolon :: ts₂.map (Token.moved (.behind source₁))) := by
  have htext : (source₁ ++ "\n;\n" ++ source₂).toList =
      source₁.toList ++ '\n' :: ';' :: '\n' :: source₂.toList := by
    simp [String.toList_append]
  have hprevious : ∀ q c rest, skipGap .plain .start source₂.toList = .ok (q, c :: rest) →
      isSign c = false := fun q c rest h => hsign c (by rw [firstVisible?, h]; rfl)
  obtain ⟨left, previous, hleft, hjoined⟩ : ∃ left previous,
      (';' :: '\n' :: source₂.toList).length < left ∧ _ :=
    Token.tokensFrom_append (Nat.lt_succ_self _) (Nat.lt_succ_self _) h₁
  simp only [List.length_cons] at hleft
  obtain ⟨left, rfl⟩ : ∃ n, left = n + 1 := ⟨left - 1, by omega⟩
  have hmoved := Token.tokensFrom_moved (.behind source₁) left (some .semicolon) (p := .start)
    Nat.one_pos source₂.toList
  have hsecond : Token.tokensFrom left (some .semicolon) .start source₂.toList = .ok ts₂ := by
    rw [Token.tokensFrom_previous _ _ none hprevious, ← h₂]
    exact Token.tokensFrom_steps none .start source₂.toList (by omega) (Nat.lt_succ_self _)
  rw [hsecond, ← Position.advance_behind] at hmoved
  have hline : ∀ p, Token.tokensFrom left (some .semicolon) p ('\n' :: source₂.toList) =
      Token.tokensFrom left (some .semicolon) (p.next '\n') source₂.toList := fun p => by
    obtain ⟨left, rfl⟩ : ∃ n, left = n + 1 := ⟨left - 1, by omega⟩
    rw [tokensFrom_succ, tokensFrom_succ, skipGap_line_feed]
  refine ⟨⟨.semicolon, .between ((Position.start.advance source₁.toList).next '\n')
    (((Position.start.advance source₁.toList).next '\n').next ';'), ";"⟩, rfl, ?_⟩
  rw [tokenize, htext, hjoined, Token.tokensFrom_semicolon, hline, hmoved, List.dropLast_concat]
  rfl

/-! ## Programs -/

/-- The same spans, and any numbers. -/
def Likeness.same : Likeness := ⟨fun span span' => span' = span, fun _ => True, False⟩

theorem Likeness.carries_same : same.Carries where
  join hfirst hlast := by
    change Span.join _ _ = _
    rw [hfirst, hlast]
  number _ _ _ := trivial

/-- Two sources with a semicolon between them are read as the statements of the first, and such as are
like those of the second wherever moved spans are alike. -/
theorem exists_like_of_joined {program₁ program₂ : Program} (h₁ : parse source₁ = .ok program₁)
    (h₂ : parse source₂ = .ok program₂) {ℓ : Likeness} (hℓ : ℓ.Carries)
    (hspan : ∀ span, ℓ.span span (span.moved (.behind source₁))) :
    ∃ program, Forall₂ (Stmt.Like ℓ) program₂ program ∧
      parse (source₁ ++ "\n;\n" ++ source₂) = .ok (program₁ ++ program) := by
  obtain ⟨tokens₁, htokens₁, hparse₁⟩ := exists_of_parse h₁
  obtain ⟨tokens₂, htokens₂, hparse₂⟩ := exists_of_parse h₂
  have hsign : ∀ c ∈ firstVisible? source₂, isSign c = false := by
    intro c hc
    by_contra hsign
    obtain ⟨failure, hfailure⟩ := exists_failure_of_sign hc (by simpa using hsign)
    rw [h₂] at hfailure
    cases hfailure
  obtain ⟨ts₁, last₁, rfl, hlast₁, hlegible₁, hne₁, hlegibles₁⟩ := exists_of_tokenize htokens₁
  obtain ⟨ts₂, last₂, rfl, hlast₂, hlegible₂, hne₂, hlegibles₂⟩ := exists_of_tokenize htokens₂
  obtain ⟨semicolon, hsemicolon, hjoined⟩ := tokenize_joined htokens₁ htokens₂ hsign
  have hlike₁ : Forall₂ (Token.Like .same) ts₁ ts₁ :=
    List.forall₂_same.mpr fun t ht => ⟨rfl, rfl, rfl, hlegibles₁ t ht⟩
  have hlike₂ : Forall₂ (Token.Like ℓ) ts₂ (ts₂.map (Token.moved (.behind source₁))) :=
    Token.forall₂_like_moved hspan hlegibles₂
  have hend₂ : last₂.Like ℓ (last₂.moved (.behind source₁)) := ⟨rfl, rfl, hspan _, hlegible₂⟩
  obtain ⟨program₁', program₂', hprogram₁, hprogram₂, hparse⟩ :=
    parseTokens_joined Likeness.carries_same hℓ hne₁ hlast₁ hne₂ hlast₂ hlike₁ hlike₂ hend₂
      hsemicolon hparse₁ hparse₂
  -- The first program is like itself too, so it is the one with all spans left as they are.
  have hsame : Forall₂ (Stmt.Like .same) program₁ program₁ := by
    have hparses := parseTokens_like Likeness.carries_same hne₁ hlast₁ hlike₁
      ⟨rfl, rfl, rfl, hlegible₁⟩ (.inl rfl)
    rw [hparse₁] at hparses
    obtain hlike | _ := hparses
    exact hlike
  have hkeep : ∀ span span', Likeness.same.span span span' → span' = id span := fun _ _ => id
  obtain rfl : program₁' = program₁ :=
    (Stmt.eq_map_mapSpans hkeep hprogram₁).trans (Stmt.eq_map_mapSpans hkeep hsame).symm
  refine ⟨program₂', hprogram₂, ?_⟩
  rw [parse, hjoined, ← hparse, List.map_append, List.append_assoc, List.cons_append]
  rfl

/-- **Two sources with a semicolon between them are one program**, with the statements of the first, and
those of the second at the places where they are now. -/
theorem parse_joined {program₁ program₂ : Program} (h₁ : parse source₁ = .ok program₁)
    (h₂ : parse source₂ = .ok program₂) :
    parse (source₁ ++ "\n;\n" ++ source₂) =
      .ok (program₁ ++ program₂.moved (.behind source₁)) := by
  have hcarries : (Likeness.moved (.behind source₁)).Carries := Likeness.carries_moved
  obtain ⟨program, hlike, hparse⟩ := exists_like_of_joined h₁ h₂ hcarries fun _ => rfl
  obtain rfl : program = program₂.moved (.behind source₁) :=
    Stmt.eq_map_mapSpans (fun _ _ => id) hlike
  exact hparse

end Scriptlet
