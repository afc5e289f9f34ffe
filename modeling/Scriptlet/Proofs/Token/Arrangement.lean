import Scriptlet.Proofs.Token.Legible
import Scriptlet.Proofs.Token.Shift

/-!
# Words set apart

A source is a row of words, the texts of its tokens, with gaps around them. Where a word ends the scanner
finds out by looking ahead, so two words without a gap between them are a matter of what the scanner makes
of both. With a spacing character behind it, a word ends where it is seen to end.

**Theorem (`tokenize_arrangement`).** Take the words of a source that can be tokenized, and put them in
the same order into any layout that begins with a spacing character wherever it stands between two of
them. The text has tokens of the same kinds that read the same. In particular blanks between the words
are enough.

The proof goes through the words. Each of them is scanned by itself, with any text behind it that begins
with spacing (`Piece.scan_apart`), after a token of the same kind as before. So a source gives a row of
words that `Stand` apart (`exists_arrangement`), and any arrangement of such a row is tokenized alike
(`Stand.tokensFrom`). The word before matters to a sign, and it stays the same; places matter to nobody.
-/

namespace Scriptlet

/-! ## Words that end -/

section

variable {p q : Position} {c : Char} {rest tail : List Char} {piece : Piece}
  {previous : Option TokenKind}

theorem Scans.text_eq_cons (h : Scans p (c :: rest) (.ok piece)) :
    ∃ taken, piece.text = c :: taken := by
  obtain ⟨hcut, hreads⟩ := h
  obtain ⟨d, taken, htext⟩ := List.exists_cons_of_ne_nil hreads.text_ne
  rw [htext] at hcut
  obtain ⟨rfl, -⟩ := List.cons.inj hcut
  exact ⟨taken, htext⟩

namespace Piece

theorem ofQuote_apart (h : ofQuote p c rest = .ok piece) :
    ofQuote q c (piece.text.tail ++ tail) = .ok { piece with rest := tail } := by
  unfold ofQuote at h
  dsimp only at h
  split at h
  · cases h
  · cases h
    -- Of what follows the string, only the quote that closes it counts.
    have hends : ∀ d ∈ (c :: tail).head?, decide (d ≠ c) = false := by simp
    have hcontent : ∀ d ∈ rest.takeWhile (· ≠ c), decide (d ≠ c) = true := fun _ hd =>
      List.mem_takeWhile_imp (p := fun d => decide (d ≠ c)) hd
    have hcut := takeWhile_append_exact hcontent hends
    have hinside : (c :: rest.takeWhile (· ≠ c) ++ [c]).tail ++ tail =
        rest.takeWhile (· ≠ c) ++ c :: tail := by simp
    dsimp only
    rw [hinside, ofQuote, hcut.1, hcut.2]

section

variable (htail : ∀ d ∈ tail.head?, isSpacing d = true)

include htail

/-- Where a word is cut, it is cut in front of spacing. -/
theorem cut_apart {P : Char → Bool} (hP : ∀ d, isSpacing d = true → P d = false)
    (rest : List Char) : (rest.takeWhile P ++ tail).takeWhile P = rest.takeWhile P ∧
      (rest.takeWhile P ++ tail).dropWhile P = tail :=
  takeWhile_append_exact (fun _ hd => List.mem_takeWhile_imp hd) fun d hd => hP d (htail d hd)

theorem ofRun_apart (hc : isSpacing c = false) (h : ofRun p c rest = .ok piece) :
    ofRun q c (piece.text.tail ++ tail) = .ok { piece with rest := tail } := by
  have hstop : ∀ d, isSpacing d = true → decide (d = c) = false := by
    intro d hd
    refine decide_eq_false ?_
    rintro rfl
    simp [hd] at hc
  unfold ofRun at h
  dsimp only at h
  split at h
  · rename_i kind hkind
    cases h
    obtain ⟨htake, hdrop⟩ := cut_apart htail hstop rest
    simp only [plain, List.tail_cons, ofRun, htake, hdrop, hkind]
  · cases h

theorem ofComparison_apart (kinds : TokenKind × TokenKind) (c : Char) (rest : List Char) :
    ofComparison kinds c ((ofComparison kinds c rest).text.tail ++ tail) =
      { ofComparison kinds c rest with rest := tail } := by
  have hnext : ofComparison kinds c tail = plain kinds.1 [c] tail := by
    unfold ofComparison
    split
    · cases htail '=' rfl
    · rfl
  rcases rest with _ | ⟨d, rest⟩
  · exact hnext
  · by_cases hd : d = '='
    · subst hd
      rfl
    · have hplain : ofComparison kinds c (d :: rest) = plain kinds.1 [c] (d :: rest) := by
        rw [ofComparison]
        exact fun _ heq => hd (List.cons.inj heq).1
      rw [hplain]
      exact hnext

theorem number_apart (text : List Char) :
    number ((number text).text ++ tail) = { number text with rest := tail } := by
  have hdigits : ∀ text : List Char, ∀ d ∈ (splitDigits text).1, d.isDigit = true :=
    fun _ _ hd => List.mem_takeWhile_imp hd
  have htail' : ∀ d ∈ tail.head?, d.isDigit = false := by
    intro d hd
    have hspacing := htail d hd
    simp [isSpacing] at hspacing
    rcases hspacing with ((rfl | rfl) | rfl) | rfl <;> rfl
  by_cases hpoint : ∃ after, (splitDigits text).2 = '.' :: after
  · obtain ⟨after, hafter⟩ := hpoint
    have hsplit : splitDigits ((splitDigits text).1 ++ '.' :: ((splitDigits after).1 ++ tail)) =
        ((splitDigits text).1, '.' :: ((splitDigits after).1 ++ tail)) :=
      splitDigits_append (hdigits text) (by rintro d ⟨⟩; rfl)
    have hsplit' := splitDigits_append (hdigits after) htail'
    rw [number_pointed hafter]
    simp only [plain, List.append_assoc, List.cons_append]
    rw [number_pointed (by rw [hsplit]), hsplit, hsplit']
    rfl
  · have hwhole : ∀ after, (splitDigits text).2 = '.' :: after → False := fun after h =>
      hpoint ⟨after, h⟩
    have hsplit := splitDigits_append (hdigits text) htail'
    rw [number_whole hwhole]
    simp only [plain]
    rw [number_whole, hsplit]
    · rfl
    · rw [hsplit]
      rintro after rfl
      cases htail '.' rfl

theorem ofDigits_apart (hdigit : c.isDigit = true) (hc : isSpacing c = false)
    (h : ofDigits p (c :: rest) = .ok piece) :
    ofDigits q (c :: (piece.text.tail ++ tail)) = .ok { piece with rest := tail } := by
  have hscans : Scans p (c :: rest) (ofDigits p (c :: rest)) := scans_digits hdigit hc
  rw [h] at hscans
  obtain ⟨taken, htaken⟩ := hscans.text_eq_cons
  rw [ofDigits_eq] at h ⊢
  split at h
  · rename_i hnumber
    cases h
    have hword : c :: ((number (c :: rest)).text.tail ++ tail) = (number (c :: rest)).text ++ tail := by
      rw [htaken]
      rfl
    rw [hword, number_apart htail]
    exact if_pos hnumber
  · cases h

theorem ofWord_apart (c : Char) (rest : List Char) :
    ofWord c ((ofWord c rest).text.tail ++ tail) = { ofWord c rest with rest := tail } := by
  have hstop : ∀ d, isSpacing d = true → isLetterOrNumeral d = false := by
    intro d hd
    simp [isSpacing] at hd
    rcases hd with ((rfl | rfl) | rfl) | rfl <;> decide +kernel
  obtain ⟨htake, hdrop⟩ := cut_apart htail hstop rest
  simp only [ofWord, plain, List.tail_cons, htake, hdrop]

/-- **A word is the same wherever spacing, or nothing, follows it.** -/
theorem scan_apart (hc : isSpacing c = false) (h : scan previous p c rest = .ok piece) :
    scan previous q c (piece.text.tail ++ tail) = .ok { piece with rest := tail } := by
  revert h
  unfold scan
  split
  · intro h
    cases h
    rfl
  split
  · intro h
    cases h
    rfl
  split
  · exact ofRun_apart htail hc
  split
  · intro h
    cases h
    exact congrArg Except.ok (ofComparison_apart htail _ c rest)
  split
  · exact ofQuote_apart
  split
  · rename_i hdigit
    exact ofDigits_apart htail hdigit hc
  split
  · intro h
    cases h
    exact congrArg Except.ok (ofWord_apart htail c rest)
  · exact fun h => by cases h

end

end Piece

end

/-- Words that are scanned as tokens of certain kinds that read certain texts, each of them as soon as
spacing, or nothing, follows it. -/
inductive Stand : Option TokenKind → List (List Char) → List (TokenKind × String) → Prop where
  | nil {previous : Option TokenKind} : Stand previous [] [(.endOfInput, "")]
  | cons {previous : Option TokenKind} {c : Char} {taken lexeme : List Char} {kind : TokenKind}
    {words : List (List Char)} {readings : List (TokenKind × String)} (hc : isSpacing c = false)
    (hslash : c = '/' → taken = [])
    (hscan : ∀ p tail, (∀ d ∈ tail.head?, isSpacing d = true) →
      Piece.scan previous p c (taken ++ tail) = .ok ⟨kind, c :: taken, lexeme, tail⟩)
    (hwords : Stand (some kind) words readings) :
    Stand previous ((c :: taken) :: words) ((kind, String.ofList lexeme) :: readings)

theorem Stand.ne_nil {previous : Option TokenKind} {words : List (List Char)}
    {readings : List (TokenKind × String)} (h : Stand previous words readings) : readings ≠ [] := by
  cases h <;> exact List.cons_ne_nil _ _

/-- What a token is apart from its place: its kind and what it reads. -/
def Token.reading (t : Token) : TokenKind × String := (t.kind, t.lexeme)

/-! ## Arrangements -/

/-- Words in a layout. -/
structure Arrangement where
  /-- The gap in front of the first word. -/
  first : List Char
  /-- The words, each with the gap behind it. -/
  rows : List (List Char × List Char)

/-- Layout that sets two words apart: it begins with a spacing character, and all comments in it are
closed. -/
structure Parts (gap : List Char) : Prop where
  closed : Layout False gap
  spacing : ∃ c rest, gap = c :: rest ∧ isSpacing c = true

namespace Arrangement

variable {a : Arrangement} {first word gap : List Char} {rows : List (List Char × List Char)}

/-- The words alone. -/
def words (a : Arrangement) : List (List Char) := a.rows.map Prod.fst

/-- The gaps alone. -/
def gaps (a : Arrangement) : List (List Char) := a.first :: a.rows.map Prod.snd

/-- The words with all gaps between them. -/
def text (a : Arrangement) : List Char := a.first ++ a.rows.flatMap fun row => row.1 ++ row.2

theorem text_nil (first : List Char) : text ⟨first, []⟩ = first := List.append_nil first

theorem text_cons (first word gap : List Char) (rows : List (List Char × List Char)) :
    text ⟨first, (word, gap) :: rows⟩ = first ++ (word ++ text ⟨gap, rows⟩) := by
  simp [text]

/-- An arrangement in which every two words are set apart. In front of the first and behind the last
there may be nothing. -/
structure Loose (a : Arrangement) : Prop where
  first : a.first = [] ∨ Parts a.first
  between : ∀ row ∈ a.rows.dropLast, Parts row.2
  last : ∀ row ∈ a.rows.getLast?, row.2 = [] ∨ Parts row.2

namespace Loose

theorem closed (h : a.Loose) : Layout False a.first := by
  rcases h.first with hnil | hparts
  · rw [hnil]
    exact .nil
  · exact hparts.closed

theorem tail (h : Loose ⟨first, (word, gap) :: rows⟩) : Loose ⟨gap, rows⟩ := by
  obtain ⟨-, hbetween, hlast⟩ := h
  cases rows with
  | nil => exact ⟨hlast _ rfl, nofun, nofun⟩
  | cons row rows =>
    rw [List.dropLast_cons_cons] at hbetween
    obtain ⟨hgap, hbetween⟩ := List.forall_mem_cons.mp hbetween
    exact ⟨.inr hgap, hbetween, hlast⟩

/-- What follows a word begins with spacing. -/
theorem head (h : Loose ⟨first, (word, gap) :: rows⟩) :
    ∀ d ∈ (text ⟨gap, rows⟩).head?, isSpacing d = true := by
  have hparts : Parts gap → ∀ d ∈ (text ⟨gap, rows⟩).head?, isSpacing d = true := by
    rintro ⟨-, c, rest, rfl, hc⟩ d hd
    cases hd
    exact hc
  cases rows with
  | nil =>
    rcases h.last _ rfl with hnil | hgap
    · obtain rfl : gap = [] := hnil
      exact nofun
    · exact hparts hgap
  | cons row rows => exact hparts (h.between (word, gap) List.mem_cons_self)

end Loose

end Arrangement

open Arrangement

/-- **Words that stand apart are tokenized alike in any loose arrangement.** -/
theorem Stand.tokensFrom {previous : Option TokenKind} {words : List (List Char)}
    {readings : List (TokenKind × String)} (h : Stand previous words readings) {a : Arrangement}
    (hwords : a.words = words) (hloose : a.Loose) (p : Position) {steps : Nat}
    (hsteps : a.text.length < steps) :
    ∃ ts, Token.tokensFrom steps previous p a.text = .ok ts ∧ ts.map Token.reading = readings := by
  induction h generalizing a p steps with
  | nil =>
    obtain ⟨steps, rfl⟩ := Nat.exists_eq_succ_of_ne_zero (Nat.ne_zero_of_lt hsteps)
    obtain ⟨first, rows⟩ := a
    obtain rfl : rows = [] := List.map_eq_nil_iff.mp hwords
    have hgap : skipGap .plain p (first ++ []) = .ok (p.advance first, []) :=
      skipGap_layout hloose.closed (fun p => by simp [skipGap]) p
    rw [List.append_nil] at hgap
    refine ⟨[.endAt (p.advance first)], ?_, rfl⟩
    rw [text_nil, tokensFrom_succ, hgap]
  | @cons previous c taken lexeme kind words readings hc hslash hscan _ ih =>
    obtain ⟨steps, rfl⟩ := Nat.exists_eq_succ_of_ne_zero (Nat.ne_zero_of_lt hsteps)
    obtain ⟨first, rows⟩ := a
    obtain ⟨⟨word, gap⟩, rows, rfl, hword, hrows⟩ := List.map_eq_cons_iff.mp hwords
    obtain rfl : word = c :: taken := hword
    rw [text_cons] at hsteps ⊢
    have hstop : ∀ p, skipGap .plain p (c :: taken ++ text ⟨gap, rows⟩) =
        .ok (p, c :: taken ++ text ⟨gap, rows⟩) := by
      refine skipGap_visible hc fun h => ?_
      rw [hslash h]
      exact hloose.head
    have hgap := skipGap_layout hloose.closed hstop p
    have hlength : (text ⟨gap, rows⟩).length < steps := by
      simp only [List.length_append, List.length_cons] at hsteps
      omega
    obtain ⟨ts, hts, hreadings⟩ :=
      ih (a := ⟨gap, rows⟩) hrows hloose.tail ((p.advance first).advance (c :: taken)) hlength
    refine ⟨⟨kind, .between (p.advance first) ((p.advance first).advance (c :: taken)),
      String.ofList lexeme⟩ :: ts, ?_, congrArg _ hreadings⟩
    rw [tokensFrom_succ, hgap]
    dsimp only [List.cons_append]
    rw [hscan _ _ hloose.head]
    dsimp only
    rw [hts]
    rfl

/-! ## The words of a source -/

/-- The characters under a span, in a text whose first character begins at a byte. -/
def Span.cutFrom (span : Span) : Nat → List Char → List Char
  | _, [] => []
  | offset, c :: rest =>
    if span.start ≤ offset ∧ offset < span.stop then c :: span.cutFrom (offset + c.utf8Size) rest
    else span.cutFrom (offset + c.utf8Size) rest

/-- The text under a span of a source. -/
def Span.cut (span : Span) (source : List Char) : List Char := span.cutFrom 0 source

namespace Span

variable {span : Span} {offset : Nat}

theorem bytes_cons (c : Char) (text : List Char) : (String.ofList (c :: text)).utf8ByteSize =
    c.utf8Size + (String.ofList text).utf8ByteSize := by
  rw [String.ofList_cons, String.utf8ByteSize_append, String.utf8ByteSize_singleton]

theorem cutFrom_append (span : Span) (offset : Nat) (text rest : List Char) :
    span.cutFrom offset (text ++ rest) =
      span.cutFrom offset text ++ span.cutFrom (offset + (String.ofList text).utf8ByteSize) rest := by
  induction text generalizing offset with
  | nil => rfl
  | cons c text ih =>
    rw [List.cons_append, cutFrom, cutFrom, ih, bytes_cons, Nat.add_assoc]
    split <;> rfl

theorem cutFrom_inside {text : List Char} (hstart : span.start ≤ offset)
    (hstop : offset + (String.ofList text).utf8ByteSize ≤ span.stop) :
    span.cutFrom offset text = text := by
  induction text generalizing offset with
  | nil => rfl
  | cons c text ih =>
    have hpos := c.utf8Size_pos
    rw [bytes_cons] at hstop
    rw [cutFrom, if_pos (by omega), ih (by omega) (by omega)]

theorem cutFrom_outside {text : List Char} (h : span.stop ≤ offset ∨
    offset + (String.ofList text).utf8ByteSize ≤ span.start) : span.cutFrom offset text = [] := by
  induction text generalizing offset with
  | nil => rfl
  | cons c text ih =>
    have hpos := c.utf8Size_pos
    rw [bytes_cons] at h
    rw [cutFrom, if_neg (by omega), ih (by omega)]

/-- Between the places around it stands a text. -/
theorem cut_between (before text rest : List Char) :
    (between (.after before) (.after (before ++ text))).cut (before ++ text ++ rest) = text := by
  have hstart : (between (.after before) (.after (before ++ text))).start =
      (String.ofList before).utf8ByteSize := rfl
  have hstop : (between (.after before) (.after (before ++ text))).stop =
      (String.ofList before).utf8ByteSize + (String.ofList text).utf8ByteSize :=
    Position.offset_after_append before text
  rw [cut, cutFrom_append, cutFrom_append, cutFrom_outside, cutFrom_inside, cutFrom_outside]
  · simp
  · refine .inl ?_
    rw [hstop, String.ofList_append, String.utf8ByteSize_append]
    omega
  · omega
  · omega
  · omega

end Span

/-- **A source with tokens is an arrangement of words that stand apart**, and these are the texts of the
tokens. -/
theorem exists_arrangement {steps : Nat} {previous : Option TokenKind} {before text : List Char}
    {ts : List Token} (hsteps : text.length < steps)
    (h : Token.tokensFrom steps previous (.after before) text = .ok ts) :
    ∃ a : Arrangement, a.text = text ∧ (∀ gap ∈ a.gaps, Layout True gap) ∧
      a.words = ts.dropLast.map (·.span.cut (before ++ text)) ∧
      Stand previous a.words (ts.map Token.reading) := by
  induction steps generalizing previous before text ts with
  | zero => exact absurd hsteps (Nat.not_lt_zero _)
  | succ steps ih =>
    have hskips := skipGap_spec .plain (.after before) text
    obtain ⟨q, hgap, rfl⟩ | ⟨q, c, rest, piece, others, hgap, hpiece, hothers, rfl⟩ :=
      Token.tokensFrom_cases h
    · rw [hgap] at hskips
      obtain ⟨gap, rfl, rfl, hlayout, -⟩ := hskips
      rw [List.append_nil]
      have hgaps : ∀ other ∈ gaps ⟨gap, []⟩, Layout True other :=
        List.forall_mem_singleton.mpr (by simpa [Gap.Completes] using hlayout)
      exact ⟨⟨gap, []⟩, text_nil gap, hgaps, rfl, .nil⟩
    · rw [hgap] at hskips
      obtain ⟨gap, rfl, rfl, hlayout, hvisible⟩ := hskips
      have hc := hvisible c rfl
      have hscans := Piece.scan_spec previous ((Position.after before).advance gap) rest hc
      rw [hpiece] at hscans
      obtain ⟨taken, htaken⟩ := hscans.text_eq_cons
      obtain ⟨hcut, hreads⟩ := hscans
      rw [Position.advance_after, Position.advance_after] at hothers
      have hlength : piece.rest.length < steps := by
        have hlengths := congrArg List.length hcut
        simp only [htaken, List.length_append, List.length_cons] at hlengths hsteps
        omega
      obtain ⟨a, htext, hgaps, hwords, hstand⟩ := ih hlength hothers
      have hne : others ≠ [] := fun hnil => hstand.ne_nil (by rw [hnil]; rfl)
      have hsource : before ++ (gap ++ c :: rest) = before ++ gap ++ piece.text ++ piece.rest := by
        simp [hcut]
      have hslash : c = '/' → taken = [] := by
        rintro rfl
        cases hpiece
        exact (List.cons.inj htaken).2.symm
      refine ⟨⟨gap, (piece.text, a.first) :: a.rows⟩, ?_, ?_, ?_, ?_⟩
      · rw [text_cons, hcut, ← htext]
      · refine List.forall_mem_cons.mpr ⟨?_, hgaps⟩
        exact Layout.mono (fun _ => trivial) hlayout
      · rw [List.dropLast_cons_of_ne_nil hne, List.map_cons, hsource, ← hwords,
          Position.advance_after, Position.advance_after, Span.cut_between]
        rfl
      · have hscan : ∀ p tail, (∀ d ∈ tail.head?, isSpacing d = true) →
            Piece.scan previous p c (taken ++ tail) =
              .ok ⟨piece.kind, c :: taken, piece.lexeme, tail⟩ := by
          intro p tail htail
          have happart := Piece.scan_apart (q := p) htail hc hpiece
          rwa [htaken] at happart
        change Stand previous (piece.text :: a.words) _
        rw [htaken]
        exact .cons hc hslash hscan hstand

/-! ## Sources -/

namespace Arrangement

/-- Words with a blank behind all but the last. -/
def blankRows : List (List Char) → List (List Char × List Char)
  | [] => []
  | [word] => [(word, [])]
  | word :: next :: words => (word, [' ']) :: blankRows (next :: words)

/-- Words with a blank between every two. -/
def blanks (words : List (List Char)) : Arrangement := ⟨[], blankRows words⟩

theorem words_blanks (words : List (List Char)) : (blanks words).words = words := by
  change (blankRows words).map Prod.fst = words
  fun_induction blankRows words with
  | case1 => rfl
  | case2 word => rfl
  | case3 word next words ih => rw [List.map_cons, ih]

theorem text_blanks (words : List (List Char)) : (blanks words).text = [' '].intercalate words := by
  change (blankRows words).flatMap (fun row => row.1 ++ row.2) = _
  fun_induction blankRows words with
  | case1 => rfl
  | case2 word => simp
  | case3 word next words ih => simp [ih]

theorem loose_blanks (words : List (List Char)) : (blanks words).Loose := by
  have hblank : Parts [' '] := ⟨.spacing rfl .nil, ' ', [], rfl, rfl⟩
  refine ⟨.inl rfl, ?_, ?_⟩
  · change ∀ row ∈ (blankRows words).dropLast, Parts row.2
    fun_induction blankRows words with
    | case1 => exact nofun
    | case2 word => exact nofun
    | case3 word next words ih =>
      have hne : blankRows (next :: words) ≠ [] := by cases words <;> simp [blankRows]
      rw [List.dropLast_cons_of_ne_nil hne]
      exact List.forall_mem_cons.mpr ⟨hblank, ih⟩
  · change ∀ row ∈ (blankRows words).getLast?, row.2 = [] ∨ Parts row.2
    fun_induction blankRows words with
    | case1 => exact nofun
    | case2 word =>
      intro row hrow
      cases hrow
      exact .inl rfl
    | case3 word next words ih =>
      intro row hrow
      refine ih row ?_
      cases words <;> simpa [blankRows] using hrow

end Arrangement

/-- **Layout does not matter.** A source with tokens consists of their texts, its words, with layout
around them. Whatever layout the words are put into, if it sets them apart, the text has tokens of the same
kinds that read the same; and blanks between the words set them apart. -/
theorem tokenize_arrangement {source : String} {ts : List Token} (h : tokenize source = .ok ts) :
    let words := ts.dropLast.map (·.span.cut source.toList)
    (∃ a : Arrangement, a.text = source.toList ∧ a.words = words ∧ ∀ gap ∈ a.gaps, Layout True gap) ∧
    (∀ a : Arrangement, a.words = words → a.Loose →
      ∃ ts', tokenize (String.ofList a.text) = .ok ts' ∧
        ts'.map Token.reading = ts.map Token.reading) ∧
    ∃ ts', tokenize (String.ofList ([' '].intercalate words)) = .ok ts' ∧
      ts'.map Token.reading = ts.map Token.reading := by
  intro words
  obtain ⟨a, htext, hgaps, hwords, hstand⟩ :=
    @exists_arrangement _ _ [] _ _ (Nat.lt_succ_self _) h
  have hloose : ∀ b : Arrangement, b.words = words → b.Loose →
      ∃ ts', tokenize (String.ofList b.text) = .ok ts' ∧
        ts'.map Token.reading = ts.map Token.reading := by
    intro b hb hloose
    rw [tokenize, String.toList_ofList]
    exact hstand.tokensFrom (hb.trans hwords.symm) hloose _ (Nat.lt_succ_self _)
  refine ⟨⟨a, htext, hwords, hgaps⟩, hloose, ?_⟩
  rw [← text_blanks]
  exact hloose _ (words_blanks words) (loose_blanks words)

/-- Words that stand side by side, and the same words with comments and line ends between them. -/
theorem tokenize_arrangement_over_comments :
    let source := "a<='é'/-7.x"
    let tokens : List Token :=
      [⟨.identifier, ⟨0, 1, 1, 1⟩, "a"⟩, ⟨.lessOrEqual, ⟨1, 3, 1, 2⟩, "<="⟩,
        ⟨.text, ⟨3, 7, 1, 4⟩, "é"⟩, ⟨.operator, ⟨7, 8, 1, 7⟩, "/"⟩, ⟨.operator, ⟨8, 9, 1, 8⟩, "-"⟩,
        ⟨.float, ⟨9, 11, 1, 9⟩, "7."⟩, ⟨.identifier, ⟨11, 12, 1, 11⟩, "x"⟩,
        ⟨.endOfInput, ⟨12, 12, 1, 12⟩, ""⟩]
    let a : Arrangement := ⟨['\t'], [(['a'], [' ', '/', '*', '-', '*', '/']), (['<', '='], ['\n']),
      (['\'', 'é', '\''], [' ', '/', '/', '=', '\n']), (['/'], [' ']), (['-'], [' ']),
      (['7', '.'], ['\r', '\n']), (['x'], [])]⟩
    tokenize source = .ok tokens ∧ a.Loose ∧ ∃ ts, tokenize (String.ofList a.text) = .ok ts ∧
      ts.map Token.reading = tokens.map Token.reading := by
  intro source tokens a
  have htokens : tokenize source = .ok tokens := by decide +kernel
  have hparts : ∀ c gap, isSpacing c = true → Layout False gap → Parts (c :: gap) :=
    fun c gap hc hgap => ⟨.spacing hc hgap, c, gap, rfl, hc⟩
  have hblank : ∀ c, isSpacing c = true → Parts [c] := fun c hc => hparts c [] hc .nil
  have hblock : Layout False ['/', '*', '-', '*', '/'] :=
    @Layout.blockComment _ ['-'] [] (by decide) .nil
  have hline : Layout False ['/', '/', '=', '\n'] :=
    @Layout.lineComment _ ['='] [] (by decide) .nil
  have hloose : a.Loose := by
    refine ⟨.inr (hblank _ rfl), ?_, ?_⟩
    · simp only [a, List.dropLast_cons_cons, List.dropLast_singleton, List.forall_mem_cons]
      exact ⟨hparts _ _ rfl hblock, hblank _ rfl, hparts _ _ rfl hline, hblank _ rfl, hblank _ rfl,
        hparts _ _ rfl (.spacing rfl .nil), nofun⟩
    · intro row hrow
      cases hrow
      exact .inl rfl
  exact ⟨htokens, hloose, (tokenize_arrangement htokens).2.1 a (by decide +kernel) hloose⟩

end Scriptlet
