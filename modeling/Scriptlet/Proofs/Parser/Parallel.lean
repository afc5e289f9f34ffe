import Scriptlet.Parser.Statement
import Scriptlet.Proofs.Likeness
import Scriptlet.Proofs.Parser.Reading
import Scriptlet.Proofs.Token.Legible

/-!
# Parallel streams

Tokens are alike if they have the same kind and text and stand at related places. Two streams are
parallel if they have like tokens ahead, except that the second one may go on beyond the end of the
first one (`Stream.Beyond`). What comes there begins with a semicolon, so no expression and no statement
that ends at the end of the first stream goes on in the second.

Only semicolons do: where the first stream has been read up to its end, the semicolons at the seam are
gone from the second (`Parallel.skip`).
-/

namespace Scriptlet

/-- Whether a token is a semicolon. -/
def Token.isSemicolon (t : Token) : Bool := t.kind = .semicolon

/-- Tokens that read the same, at related places. -/
structure Token.Like (ℓ : Likeness) (t t' : Token) : Prop where
  kind : t'.kind = t.kind
  lexeme : t'.lexeme = t.lexeme
  span : ℓ.span t.span t'.span
  legible : t.Legible

theorem Token.Like.describe {ℓ : Likeness} {t t' : Token} (h : t.Like ℓ t') :
    t'.describe = t.describe := by
  rw [Token.describe, Token.describe, h.lexeme, h.kind]

/-- What lets a likeness of tokens carry over to programs: spans can be joined, and the number that a
token reads is as required. -/
structure Likeness.Carries (ℓ : Likeness) : Prop where
  join : ∀ {first first' last last' : Span}, ℓ.span first first' → ℓ.span last last' →
    ℓ.span (first.join last) (first'.join last')
  number : ∀ {t : Token} {value : Double}, t.Legible → t.kind = .integer ∨ t.kind = .float →
    Double.ofLexeme? t.lexeme.toList = some value → ℓ.number ⟨value, t.kind = .float⟩

namespace Stream

/-- What a stream has beyond the end of a shorter one: nothing, or a semicolon and more tokens, and the
end of input. -/
structure Beyond where
  tokens : List Token
  last : Token
  begins : ∀ t ∈ tokens.head?, t.kind = .semicolon
  ends : last.kind = .endOfInput

/-- The tokens beyond without the semicolons at their beginning. -/
def Beyond.resume (beyond : Beyond) : List Token :=
  beyond.tokens.dropWhile Token.isSemicolon

/-- The stream without the semicolons at its beginning. -/
def skip (s : Stream) : Stream :=
  { s with
    ahead := s.ahead.dropWhile Token.isSemicolon
    fits := Nat.le_trans (List.length_dropWhile_le _ _) s.fits }

@[simp] theorem skip_ahead (s : Stream) : s.skip.ahead = s.ahead.dropWhile Token.isSemicolon := rfl

@[simp] theorem skip_last (s : Stream) : s.skip.last = s.last := rfl

variable {ℓ : Likeness} {beyond : Beyond} {s s' : Stream} {t t' : Token} {resume : List Token}

theorem skip_of_nil (h : s.ahead = []) : s.skip = s := by
  cases s
  subst h
  rfl

theorem skip_of_ne (h : s.peek.kind ≠ .semicolon) : s.skip = s := by
  obtain ⟨ahead, last, bound, fits⟩ := s
  cases ahead with
  | nil => rfl
  | cons t rest =>
    have hsemicolon : ¬Token.isSemicolon t = true := by
      rw [Token.isSemicolon, decide_eq_true_eq]
      exact h
    simp only [skip, List.dropWhile_cons_of_neg hsemicolon]

theorem skip_of_semicolon (hlast : s.last.kind ≠ .semicolon) (h : s.peek.kind = .semicolon) :
    s.skip = s.advance.skip := by
  obtain ⟨ahead, last, bound, fits⟩ := s
  cases ahead with
  | nil => exact absurd h hlast
  | cons t rest =>
    have hsemicolon : Token.isSemicolon t = true := decide_eq_true h
    simp only [skip, Stream.advance, List.dropWhile_cons_of_pos hsemicolon, List.tail_cons]

/-- Streams with like tokens ahead, up to where the first one ends. The second one goes on there. -/
structure Parallel (ℓ : Likeness) (beyond : Beyond) (s s' : Stream) : Prop where
  ended : s.Ended
  ahead : ∃ ts, s'.ahead = ts ++ beyond.tokens ∧ List.Forall₂ (Token.Like ℓ) s.ahead ts
  last' : s'.last = beyond.last
  last : beyond.tokens = [] → s.last.Like ℓ beyond.last

/-- Parallel streams of which only the first one is at its end. -/
structure Cut (ℓ : Likeness) (beyond : Beyond) (s s' : Stream) : Prop where
  parallel : Parallel ℓ beyond s s'
  beyond : beyond.tokens ≠ []
  kind : s.peek.kind = .endOfInput
  kind' : s'.peek.kind = .semicolon

/-- Parallel streams, or a first one that is at its end while certain tokens are ahead in the second. -/
inductive Past (ℓ : Likeness) (beyond : Beyond) (resume : List Token) (s s' : Stream) : Prop where
  | inside (h : Parallel ℓ beyond s s') (hinside : s.ahead ≠ [] ∨ beyond.tokens = [])
  | outside (hbeyond : beyond.tokens ≠ []) (hended : s.Ended) (hs : s.ahead = [])
    (hs' : s'.ahead = resume) (hlast' : s'.last = beyond.last)

/-- At the end of a stream, the end of input comes next. -/
theorem Ended.peek_kind (h : s.Ended) (hs : s.ahead = []) : s.peek.kind = .endOfInput := by
  rw [Stream.peek, hs]
  exact h.last

namespace Parallel

/-- The next tokens are alike, unless one of the streams has been cut. -/
theorem peek (h : Parallel ℓ beyond s s') : s.peek.Like ℓ s'.peek ∨ Cut ℓ beyond s s' := by
  obtain ⟨ts, hahead, hlike⟩ := h.ahead
  cases hs : s.ahead with
  | nil =>
    rw [hs] at hlike
    cases hlike
    have hpeek : s.peek = s.last := by rw [Stream.peek, hs]; rfl
    have hpeek' : s'.peek = beyond.tokens.headD beyond.last := by
      rw [Stream.peek, hahead, h.last']
      rfl
    cases hbeyond : beyond.tokens with
    | nil =>
      rw [hpeek, hpeek', hbeyond]
      exact .inl (h.last hbeyond)
    | cons t rest =>
      refine .inr ⟨h, by simp [hbeyond], h.ended.peek_kind hs, ?_⟩
      rw [hpeek', hbeyond]
      exact beyond.begins t (by simp [hbeyond])
  | cons t rest =>
    rw [hs] at hlike
    obtain ⟨t', ts, hfirst, hrest, rfl⟩ := List.forall₂_cons_left_iff.mp hlike
    have hpeek : s.peek = t := by rw [Stream.peek, hs]; rfl
    have hpeek' : s'.peek = t' := by rw [Stream.peek, hahead]; rfl
    rw [hpeek, hpeek']
    exact .inl hfirst

theorem length (h : Parallel ℓ beyond s s') :
    s'.ahead.length = s.ahead.length + beyond.tokens.length := by
  obtain ⟨ts, hahead, hlike⟩ := h.ahead
  rw [hahead, List.length_append, hlike.length_eq]

theorem advance (h : Parallel ℓ beyond s s') (hkind : s.peek.kind ≠ .endOfInput) :
    Parallel ℓ beyond s.advance s'.advance := by
  obtain ⟨ts, hahead, hlike⟩ := h.ahead
  have hne := h.ended.ahead_ne_nil hkind
  have hended := h.ended.of_takes (Takes.advance hne)
  obtain ⟨t, rest, hs⟩ := List.exists_cons_of_ne_nil hne
  rw [hs] at hlike
  obtain ⟨t', ts, hfirst, hrest, rfl⟩ := List.forall₂_cons_left_iff.mp hlike
  refine ⟨hended, ⟨ts, ?_, ?_⟩, h.last', h.last⟩
  · simp [Stream.advance, hahead]
  · simpa [Stream.advance, hs] using hrest

theorem length_advance (h : Parallel ℓ beyond s s') (hkind : s.peek.kind ≠ .endOfInput) :
    s.advance.ahead.length + 1 = s.ahead.length := by
  have hne := List.length_pos_iff.mpr (h.ended.ahead_ne_nil hkind)
  simp only [Stream.advance, List.length_tail]
  omega

theorem past (h : Parallel ℓ beyond s s') : Past ℓ beyond beyond.tokens s s' := by
  by_cases hinside : s.ahead ≠ [] ∨ beyond.tokens = []
  · exact .inside h hinside
  · obtain ⟨hs, hbeyond⟩ := not_or.mp hinside
    obtain ⟨ts, hahead, hlike⟩ := h.ahead
    rw [not_not.mp hs] at hlike
    cases hlike
    exact .outside hbeyond h.ended (not_not.mp hs) hahead h.last'

/-- Without semicolons, streams are parallel or only the first one is at its end. -/
theorem skip (h : Parallel ℓ beyond s s') : Past ℓ beyond beyond.resume s.skip s'.skip := by
  obtain ⟨ts, hahead, hlike⟩ := h.ahead
  have hrest : List.Forall₂ (Token.Like ℓ) s.skip.ahead (ts.dropWhile Token.isSemicolon) :=
    forall₂_dropWhile (fun t t' ht => by rw [Token.isSemicolon, Token.isSemicolon, ht.kind]) hlike
  have hended : s.skip.Ended :=
    ⟨h.ended.last, fun t ht => h.ended.ahead t ((List.dropWhile_suffix _).subset ht)⟩
  have hahead' : s'.skip.ahead = if (ts.dropWhile Token.isSemicolon).isEmpty then beyond.resume
      else ts.dropWhile Token.isSemicolon ++ beyond.tokens := by
    change s'.ahead.dropWhile Token.isSemicolon = _
    rw [hahead]
    exact List.dropWhile_append
  have hempty : s.skip.ahead = [] ↔ ts.dropWhile Token.isSemicolon = [] := by
    rw [← List.length_eq_zero_iff, ← List.length_eq_zero_iff, hrest.length_eq]
  by_cases hs : s.skip.ahead = []
  · rw [hempty.mp hs] at hahead' hrest
    have hresume : s'.skip.ahead = beyond.resume := hahead'
    by_cases hbeyond : beyond.tokens = []
    · refine .inside ⟨hended, ⟨[], ?_, hrest⟩, h.last', h.last⟩ (.inr hbeyond)
      rw [hresume, Beyond.resume, hbeyond]
      rfl
    · exact .outside hbeyond hended hs hresume h.last'
  · refine .inside ⟨hended, ⟨_, ?_, hrest⟩, h.last', h.last⟩ (.inl hs)
    rw [hahead', if_neg (by simpa using fun h => hs (hempty.mpr h))]

end Parallel

namespace Past

theorem ended (h : Past ℓ beyond resume s s') : s.Ended := by
  cases h with
  | inside h => exact h.ended
  | outside _ hended => exact hended

/-- Only the tokens and the last one matter. -/
theorem of_ahead {r : Stream} (h : Past ℓ beyond resume s s') (hahead : r.ahead = s'.ahead)
    (hlast : r.last = s'.last) : Past ℓ beyond resume s r := by
  cases h with
  | inside h hinside =>
    exact .inside ⟨h.ended, hahead ▸ h.ahead, hlast.trans h.last', h.last⟩ hinside
  | outside hbeyond hended hs hs' hlast' =>
    exact .outside hbeyond hended hs (hahead.trans hs') (hlast.trans hlast')

theorem length_le (h : Past ℓ beyond resume s s') (hresume : resume.length ≤ beyond.tokens.length) :
    s'.ahead.length ≤ s.ahead.length + beyond.tokens.length := by
  cases h with
  | inside h => exact Nat.le_of_eq h.length
  | outside _ _ _ hs' =>
    rw [hs']
    omega

theorem length_eq (h : Past ℓ beyond resume s s') (hbeyond : beyond.tokens = []) :
    s'.ahead.length = s.ahead.length := by
  cases h with
  | outside hne => exact absurd hbeyond hne
  | inside h => rw [h.length, hbeyond, List.length_nil, Nat.add_zero]

end Past

end Stream

end Scriptlet
