import Scriptlet.Proofs.Token.Layout
import Scriptlet.Proofs.Token.Scan

/-!
# Tokens lose nothing

A source that can be tokenized is layout, token, layout, token, and so on up to the end of input, and
each token knows where it stands and what it reads (`Spells`). The scanner keeps its position in step
with the text that it has taken; that is the invariant behind both the tokens and the places that
failures point at (`tokensFrom_spec`). Order, slices and places of all tokens can be read off
(`tokenize_lossless`).
-/

namespace Scriptlet

variable {before text rest : List Char} {ts : List Token} {t : Token} {source : String}

/-! ## Places -/

/-- A span that begins behind one part of a source, at a character that is no spacing or at the end,
and ends within the other part. -/
structure Span.Begins (span : Span) (before rest : List Char) : Prop where
  start : span.start = (Position.after before).offset
  line : span.line = (Position.after before).line
  column : span.column = (Position.after before).column
  ordered : span.start ≤ span.stop
  within : span.stop ≤ (Position.after (before ++ rest)).offset
  visible : ∀ c ∈ rest.head?, isSpacing c = false

/-- A span that begins somewhere in a source. -/
def Span.PlacedIn (source : List Char) (span : Span) : Prop :=
  ∃ before rest, source = before ++ rest ∧ span.Begins before rest

theorem Span.begins_between (before text rest : List Char)
    (hvisible : ∀ c ∈ (text ++ rest).head?, isSpacing c = false) :
    (Span.between (.after before) (.after (before ++ text))).Begins before (text ++ rest) where
  start := rfl
  line := rfl
  column := rfl
  ordered := Position.offset_after_le before text
  within := by
    rw [← List.append_assoc]
    exact Position.offset_after_le (before ++ text) rest
  visible := hvisible

theorem Span.PlacedIn.ordered {text : List Char} {span : Span} (h : span.PlacedIn text) :
    span.start ≤ span.stop := by
  obtain ⟨before, rest, -, hbegins⟩ := h
  exact hbegins.ordered

theorem Span.PlacedIn.join {text : List Char} {first last : Span} (hfirst : first.PlacedIn text)
    (hlast : last.PlacedIn text) : (first.join last).PlacedIn text := by
  obtain ⟨before, rest, rfl, hbegins⟩ := hfirst
  obtain ⟨before', rest', htext, hbegins'⟩ := hlast
  have hwithin : last.stop ≤ (Position.after (before ++ rest)).offset := htext ▸ hbegins'.within
  exact ⟨before, rest, rfl, hbegins.start, hbegins.line, hbegins.column,
    Nat.le_trans hbegins.ordered (Nat.le_max_right _ _), Nat.max_le.mpr ⟨hwithin, hbegins.within⟩,
    hbegins.visible⟩

/-! ## How tokens spell a text -/

/-- Tokens that spell the rest of a source, behind the part that was taken before. -/
inductive Spells : List Char → List Token → List Char → Prop where
  | finish {before gap : List Char} (hgap : Layout True gap) :
    Spells before [.endAt (.after (before ++ gap))] gap
  | token {before gap text rest lexeme : List Char} {kind : TokenKind} {ts : List Token}
    (hgap : Layout False gap) (hreads : kind.Reads text lexeme)
    (hrest : Spells (before ++ gap ++ text) ts rest) :
    Spells before
      (⟨kind, .between (.after (before ++ gap)) (.after (before ++ gap ++ text)),
        String.ofList lexeme⟩ :: ts)
      (gap ++ text ++ rest)

/-- A token that stands in a source: it covers a text there that it reads, or marks the end. -/
def Token.StandsIn (source : List Char) (t : Token) : Prop :=
  ∃ before text rest, source = before ++ text ++ rest ∧
    t.span = .between (.after before) (.after (before ++ text)) ∧
      (t.kind.Reads text t.lexeme.toList ∨
        t.kind = .endOfInput ∧ t.lexeme = "" ∧ text = [] ∧ rest = [])

theorem Token.StandsIn.placed {source : List Char} (h : t.StandsIn source) :
    t.span.PlacedIn source := by
  obtain ⟨before, text, rest, rfl, hspan, hreads⟩ := h
  refine ⟨before, text ++ rest, by simp, hspan ▸ Span.begins_between before text rest ?_⟩
  rcases hreads with hreads | ⟨-, -, rfl, rfl⟩
  · obtain ⟨c, tail, rfl, hc⟩ := hreads.begins
    simpa using hc
  · simp

theorem Token.StandsIn.lt {source : List Char} (h : t.StandsIn source)
    (hkind : t.kind ≠ .endOfInput) : t.span.start < t.span.stop := by
  obtain ⟨before, text, rest, -, hspan, hreads | ⟨hend, -⟩⟩ := h
  · rw [hspan]
    exact Position.offset_after_lt hreads.text_ne
  · exact absurd hend hkind

namespace Spells

theorem standsIn (h : Spells before ts rest) : ∀ t ∈ ts, t.StandsIn (before ++ rest) := by
  induction h with
  | @finish before gap _ =>
    simp only [List.mem_singleton, forall_eq]
    exact ⟨before ++ gap, [], [], by simp, by simp [Token.endAt], .inr ⟨rfl, rfl, rfl, rfl⟩⟩
  | @token before gap text rest lexeme kind ts _ hreads _ ih =>
    intro t ht
    rcases List.mem_cons.mp ht with rfl | ht
    · exact ⟨before ++ gap, text, rest, by simp, rfl, .inl (by simpa using hreads)⟩
    · simpa using ih t ht

/-- What comes later stands further behind. -/
theorem start_le (h : Spells before ts rest) :
    ∀ t ∈ ts, (Position.after before).offset ≤ t.span.start := by
  induction h with
  | finish =>
    simp only [List.mem_singleton, forall_eq]
    exact Position.offset_after_le _ _
  | token _ _ _ ih =>
    intro t ht
    rcases List.mem_cons.mp ht with rfl | ht
    · exact Position.offset_after_le _ _
    · refine Nat.le_trans ?_ (ih t ht)
      rw [List.append_assoc]
      exact Position.offset_after_le _ _

theorem pairwise (h : Spells before ts rest) :
    ts.Pairwise fun first second => first.span.stop ≤ second.span.start := by
  induction h with
  | finish => exact List.pairwise_singleton _ _
  | token _ _ hrest ih => exact List.pairwise_cons.mpr ⟨hrest.start_le, ih⟩

/-- The end of input is marked once, behind everything. -/
theorem ends (h : Spells before ts rest) :
    ∃ others, ts = others ++ [.endAt (.after (before ++ rest))] ∧
      ∀ t ∈ others, t.kind ≠ .endOfInput := by
  induction h with
  | finish => exact ⟨[], rfl, by simp⟩
  | @token before gap text rest lexeme kind ts _ hreads _ ih =>
    obtain ⟨others, rfl, hothers⟩ := ih
    refine ⟨⟨kind, .between (.after (before ++ gap)) (.after (before ++ gap ++ text)),
      String.ofList lexeme⟩ :: others, by simp, ?_⟩
    simpa [hreads.kind_ne] using hothers

end Spells

/-! ## The scanner -/

/-- What scanning a text comes to, behind the part that was taken before: tokens that spell it, or a
failure at some place in it. -/
def Tokenizes (before text : List Char) : Except Failure (List Token) → Prop
  | .ok ts => Spells before ts text
  | .error failure => ∃ span, failure.span = some span ∧ span.PlacedIn (before ++ text)

namespace Tokenizes

variable {gap lexeme : List Char} {fault : Fault} {kind : TokenKind}
  {result : Except Failure (List Token)}

/-- A failure points at the text behind a gap. -/
theorem failure (gap : List Char)
    (hvisible : ∀ c ∈ (text ++ rest).head?, isSpacing c = false) :
    Tokenizes before (gap ++ (text ++ rest))
      (.error (.located (.between (.after (before ++ gap)) (.after (before ++ gap ++ text))) fault)) :=
  ⟨_, rfl, before ++ gap, text ++ rest, by simp, Span.begins_between _ _ _ hvisible⟩

theorem token (hgap : Layout False gap) (hreads : kind.Reads text lexeme)
    (hrest : Tokenizes (before ++ gap ++ text) rest result) :
    Tokenizes before (gap ++ (text ++ rest)) (result.map
      (⟨kind, .between (.after (before ++ gap)) (.after (before ++ gap ++ text)),
        String.ofList lexeme⟩ :: ·)) := by
  rw [← List.append_assoc]
  cases result with
  | ok ts => exact Spells.token hgap hreads hrest
  | error failure =>
    obtain ⟨span, hspan, hplaced⟩ := hrest
    refine ⟨span, hspan, ?_⟩
    simpa only [List.append_assoc] using hplaced

end Tokenizes

/-- One round of the scanner: a gap, and a piece if there is one. -/
theorem tokensFrom_succ (steps : Nat) (previous : Option TokenKind) (p : Position)
    (text : List Char) :
    Token.tokensFrom (steps + 1) previous p text =
      match skipGap .plain p text with
      | .error failure => .error failure
      | .ok (q, []) => .ok [.endAt q]
      | .ok (q, c :: rest) =>
        match Piece.scan previous q c rest with
        | .error failure => .error failure
        | .ok piece =>
          (Token.tokensFrom steps (some piece.kind) (q.advance piece.text) piece.rest).map
            (⟨piece.kind, .between q (q.advance piece.text), String.ofList piece.lexeme⟩ :: ·) := by
  rw [Token.tokensFrom]
  cases skipGap .plain p text with
  | error failure => rfl
  | ok skipped =>
    obtain ⟨q, _ | ⟨c, rest⟩⟩ := skipped
    · rfl
    · dsimp only [bind, Except.bind]
      cases Piece.scan previous q c rest with
      | error failure => rfl
      | ok piece =>
        dsimp only
        cases Token.tokensFrom steps (some piece.kind) (q.advance piece.text) piece.rest <;> rfl

/-- What a text with tokens begins with: nothing to be seen, or a piece, and tokens behind it. -/
theorem Token.tokensFrom_cases {steps : Nat} {previous : Option TokenKind}
    (h : Token.tokensFrom (steps + 1) previous p text = .ok ts) :
    (∃ q, skipGap .plain p text = .ok (q, []) ∧ ts = [.endAt q]) ∨
      ∃ q c rest piece others, skipGap .plain p text = .ok (q, c :: rest) ∧
        Piece.scan previous q c rest = .ok piece ∧
        Token.tokensFrom steps (some piece.kind) (q.advance piece.text) piece.rest = .ok others ∧
        ts = ⟨piece.kind, .between q (q.advance piece.text), String.ofList piece.lexeme⟩ :: others := by
  rw [tokensFrom_succ] at h
  split at h
  · cases h
  · rename_i q hgap
    cases h
    exact .inl ⟨q, hgap, rfl⟩
  · rename_i q c rest hgap
    split at h
    · cases h
    · rename_i piece hpiece
      cases hothers : Token.tokensFrom steps (some piece.kind) (q.advance piece.text) piece.rest with
      | error failure =>
        rw [hothers] at h
        cases h
      | ok others =>
        rw [hothers] at h
        cases h
        exact .inr ⟨q, c, rest, piece, others, hgap, hpiece, hothers, rfl⟩

/-- **The tokens of a text spell it, and where there are none, something in it is to blame.** -/
theorem tokensFrom_spec {steps : Nat} (previous : Option TokenKind) (before text : List Char)
    (hsteps : text.length < steps) :
    Tokenizes before text (Token.tokensFrom steps previous (.after before) text) := by
  induction steps generalizing previous before text with
  | zero => exact absurd hsteps (Nat.not_lt_zero _)
  | succ steps ih =>
    have hskips := skipGap_spec .plain (.after before) text
    rw [tokensFrom_succ]
    split
    · rename_i failure hgap
      rw [hgap] at hskips
      obtain ⟨opening, rfl, hmode | ⟨gap, rest, rfl, rfl⟩⟩ := hskips
      · cases hmode
      · rw [Position.advance_after, Position.advance_after, ← List.append_assoc before]
        have hopening : ∀ c ∈ (['/', '*'] ++ rest).head?, isSpacing c = false := by
          simp [isSpacing]
        exact .failure gap hopening
    · rename_i q hgap
      rw [hgap] at hskips
      obtain ⟨gap, rfl, rfl, hlayout, -⟩ := hskips
      rw [Position.advance_after, List.append_nil]
      exact Spells.finish (by simpa [Gap.Completes] using hlayout)
    · rename_i q c rest hgap
      rw [hgap] at hskips
      obtain ⟨gap, rfl, rfl, hlayout, hvisible⟩ := hskips
      rw [Position.advance_after]
      have hscans := Piece.scan_spec previous (.after (before ++ gap)) rest (hvisible c rfl)
      split
      · rename_i failure hpiece
        rw [hpiece] at hscans
        cases hscans with
        | @failure taken after fault hcut =>
          rw [Position.advance_after, hcut]
          exact .failure gap (hcut ▸ hvisible)
      · rename_i piece hpiece
        rw [hpiece] at hscans
        cases hscans with
        | piece hcut hreads =>
          rw [Position.advance_after, hcut]
          refine .token (by simpa [Gap.Completes] using hlayout) hreads (ih _ _ _ ?_)
          have hlengths := congrArg List.length hcut
          have hpos := List.length_pos_iff.mpr hreads.text_ne
          simp only [List.length_append, List.length_cons] at hlengths hsteps
          omega

/-- The tokens of a source spell it, or the failure is in it. -/
theorem tokenize_spec (source : String) : Tokenizes [] source.toList (tokenize source) := by
  have hspec := tokensFrom_spec none [] source.toList (Nat.lt_succ_self _)
  rwa [Position.after_nil] at hspec

/-- **Tokenizing loses nothing.** A source is spelled by its tokens with layout around them. They
stand in order and apart, each at its place and with its text, and the last one alone marks the end of
the source. -/
theorem tokenize_lossless (h : tokenize source = .ok ts) :
    Spells [] ts source.toList ∧
    (ts.Pairwise fun first second => first.span.stop ≤ second.span.start) ∧
    (∀ t ∈ ts, t.StandsIn source.toList) ∧
    ∃ others last, ts = others ++ [last] ∧ last.kind = .endOfInput ∧
      last.span.start = source.utf8ByteSize ∧ last.span.stop = source.utf8ByteSize ∧
      ∀ t ∈ others, t.kind ≠ .endOfInput ∧ t.span.start < t.span.stop := by
  have hspells : Spells [] ts source.toList := by
    have hspec := tokenize_spec source
    rwa [h] at hspec
  obtain ⟨others, rfl, hothers⟩ := hspells.ends
  have hstands := hspells.standsIn
  have hsize : (Position.after source.toList).offset = source.utf8ByteSize := by
    simp [Position.after]
  refine ⟨hspells, hspells.pairwise, hstands, others, _, rfl, rfl, hsize, hsize, fun t ht => ?_⟩
  exact ⟨hothers t ht, (hstands t (List.mem_append_left _ ht)).lt (hothers t ht)⟩

/-- A letter of two bytes, a string and comments over several lines. -/
theorem tokenize_lossless_over_lines :
    let source := "é = 'a\n\"b' // c\n/* d */ -x"
    let tokens : List Token :=
      [⟨.identifier, ⟨0, 2, 1, 1⟩, "é"⟩, ⟨.equals, ⟨3, 4, 1, 3⟩, "="⟩,
        ⟨.text, ⟨5, 11, 1, 5⟩, "a\n\"b"⟩, ⟨.unaryMinus, ⟨25, 26, 3, 9⟩, "-"⟩,
        ⟨.identifier, ⟨26, 27, 3, 10⟩, "x"⟩, ⟨.endOfInput, ⟨27, 27, 3, 11⟩, ""⟩]
    tokenize source = .ok tokens ∧ Spells [] tokens source.toList ∧
      ∀ t ∈ tokens, t.StandsIn source.toList := by
  intro source tokens
  have htokens : tokenize source = .ok tokens := by decide +kernel
  obtain ⟨hspells, -, hstands, -⟩ := tokenize_lossless htokens
  exact ⟨htokens, hspells, hstands⟩

end Scriptlet
