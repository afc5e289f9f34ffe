import Scriptlet.Proofs.Token.Lossless

/-!
# Moved texts

Put something in front of a text, and the text has the same tokens at other places: further behind by
the bytes in front of it, further down by the line feeds there, and further to the right as long as it
is on its first line. The scanner carries its position along and never looks at it, so a text that is
scanned from a moved place has moved tokens, or fails at a moved place (`Token.tokensFrom_moved`).

What stands in front also decides how the scanner reads a sign, but nothing else
(`Token.tokensFrom_previous`).
-/

namespace Scriptlet

/-- How far a text is moved: by some bytes, by some lines and, on its first line, by some columns. -/
structure Shift where
  bytes : Nat
  lines : Nat
  columns : Nat

variable {shift : Shift} {p q : Position} {c : Char} {text rest : List Char} {piece : Piece}

/-! ## Places -/

namespace Position

/-- The place where a character stands once its text is moved. -/
def moved (shift : Shift) (p : Position) : Position where
  offset := p.offset + shift.bytes
  line := p.line + shift.lines
  column := if p.line = 1 then p.column + shift.columns else p.column

theorem line_next_le (p : Position) (c : Char) : p.line ≤ (p.next c).line := by
  unfold next
  split
  · exact Nat.le_succ p.line
  · exact Nat.le_refl p.line

theorem line_advance_le (p : Position) (text : List Char) : p.line ≤ (p.advance text).line := by
  induction text generalizing p with
  | nil => exact Nat.le_refl p.line
  | cons c text ih => exact Nat.le_trans (p.line_next_le c) (ih (p.next c))

theorem next_moved (hp : 0 < p.line) (c : Char) :
    (p.moved shift).next c = (p.next c).moved shift := by
  unfold next moved
  by_cases hc : c = '\n'
  · -- A line feed leads to a line that is not the first.
    have hline : p.line + 1 ≠ 1 := by omega
    simp only [if_pos hc, if_neg hline, Position.mk.injEq, and_true]
    omega
  · simp only [if_neg hc, Position.mk.injEq, true_and]
    constructor
    · omega
    · split <;> omega

theorem advance_moved (hp : 0 < p.line) (text : List Char) :
    (p.moved shift).advance text = (p.advance text).moved shift := by
  induction text generalizing p with
  | nil => rfl
  | cons c text ih =>
    rw [advance_cons, advance_cons, next_moved hp, ih (Nat.lt_of_lt_of_le hp (p.line_next_le c))]

end Position

namespace Span

/-- The place of a span once its text is moved. -/
def moved (shift : Shift) (span : Span) : Span where
  start := span.start + shift.bytes
  stop := span.stop + shift.bytes
  line := span.line + shift.lines
  column := if span.line = 1 then span.column + shift.columns else span.column

theorem between_moved (first last : Position) :
    between (first.moved shift) (last.moved shift) = (between first last).moved shift := rfl

theorem join_moved (first last : Span) :
    (first.moved shift).join (last.moved shift) = (first.join last).moved shift := by
  simp only [join, moved, Span.mk.injEq, true_and]
  exact ⟨Nat.add_max_add_right _ _ _, rfl⟩

end Span

/-- A token of a text that is moved. -/
def Token.moved (shift : Shift) (t : Token) : Token := ⟨t.kind, t.span.moved shift, t.lexeme⟩

/-- A failure that points into a text that is moved. -/
def Failure.moved (shift : Shift) (failure : Failure) : Failure :=
  ⟨failure.fault, failure.span.map (Span.moved shift)⟩

/-- The result of a stage, of which a success becomes another and a failure is moved. -/
def relocate {α β : Type} (shift : Shift) (f : α → β) : Except Failure α → Except Failure β
  | .ok a => .ok (f a)
  | .error failure => .error (failure.moved shift)

/-! ## The scanner at a moved place -/

/-- What the reader of a gap is inside of, in a text that is moved. -/
def Gap.moved (shift : Shift) : Gap → Gap
  | .plain => .plain
  | .lineComment => .lineComment
  | .blockComment opening => .blockComment (opening.moved shift)

theorem skipGap_moved (shift : Shift) (mode : Gap) (hp : 0 < p.line) (text : List Char) :
    skipGap (mode.moved shift) (p.moved shift) text =
      relocate shift (fun found => (found.1.moved shift, found.2)) (skipGap mode p text) := by
  have hnext : ∀ {p : Position} (c : Char), 0 < p.line → 0 < (p.next c).line := fun {p} c hp =>
    Nat.lt_of_lt_of_le hp (p.line_next_le c)
  fun_induction skipGap mode p text with
  | case1 p rest ih =>
    rw [Gap.moved, skipGap, Position.next_moved hp, Position.next_moved (hnext _ hp)]
    exact ih (hnext _ (hnext _ hp))
  | case2 p rest inside ih =>
    rw [Gap.moved, skipGap, Position.next_moved hp, Position.next_moved (hnext _ hp)]
    exact ih (hnext _ (hnext _ hp))
  | case3 p c rest hline hblock hc ih =>
    rw [Gap.moved, skipGap, if_pos hc, Position.next_moved hp]
    · exact ih (hnext _ hp)
    · exact hline
    · exact hblock
  | case4 p c rest hline hblock hc =>
    rw [Gap.moved, skipGap, if_neg hc]
    · rfl
    · exact hline
    · exact hblock
  | case5 p c rest ih =>
    rw [Gap.moved, skipGap, Position.next_moved hp, ← ih (hnext _ hp)]
    split <;> rfl
  | case6 opening p rest ih =>
    rw [Gap.moved, skipGap, Position.next_moved hp, Position.next_moved (hnext _ hp)]
    exact ih (hnext _ (hnext _ hp))
  | case7 opening p c rest hne ih =>
    rw [Gap.moved, skipGap, Position.next_moved hp]
    · exact ih (hnext _ hp)
    · exact hne
  | case8 opening p => rw [Gap.moved, skipGap]; rfl
  | case9 mode p hne =>
    cases mode with
    | plain => rfl
    | lineComment => rfl
    | blockComment opening => exact absurd rfl (hne opening)

namespace Piece

theorem unexpected_moved (hp : 0 < p.line) (c : Char) :
    unexpected (p.moved shift) c = (unexpected p c).moved shift := by
  rw [unexpected, Position.next_moved hp, Span.between_moved]
  rfl

/-- No rule looks at its position, except to say where it fails. -/
theorem scan_moved (previous : Option TokenKind) (hp : 0 < p.line) (c : Char) (rest : List Char) :
    scan previous (p.moved shift) c rest = relocate shift id (scan previous p c rest) := by
  unfold scan
  split
  · rfl
  split
  · rfl
  split
  · unfold ofRun
    dsimp only
    split
    · rfl
    · rw [unexpected_moved hp]
      rfl
  split
  · rfl
  split
  · unfold ofQuote
    dsimp only
    split
    · rw [Position.advance_moved hp]
      rfl
    · rfl
  split
  · unfold ofDigits
    dsimp only
    rw [Position.advance_moved hp]
    rw [apply_ite (relocate shift id)]
    rfl
  split
  · rfl
  · rw [unexpected_moved hp]
    rfl

end Piece

namespace Token

/-- **From a moved place, a text has moved tokens**, or fails at a moved place. -/
theorem tokensFrom_moved (shift : Shift) (steps : Nat) (previous : Option TokenKind)
    (hp : 0 < p.line) (text : List Char) :
    tokensFrom steps previous (p.moved shift) text =
      relocate shift (List.map (moved shift)) (tokensFrom steps previous p text) := by
  induction steps generalizing previous p text with
  | zero => rfl
  | succ steps ih =>
    have hgap := skipGap_moved shift .plain hp text
    have hskips := skipGap_spec .plain p text
    rw [Gap.moved] at hgap
    rw [tokensFrom_succ, tokensFrom_succ, hgap]
    revert hskips
    rcases skipGap .plain p text with failure | ⟨q, _ | ⟨c, rest⟩⟩
    · exact fun _ => rfl
    · exact fun _ => rfl
    · rintro ⟨gap, -, rfl, -, -⟩
      have hq : 0 < (p.advance gap).line := Nat.lt_of_lt_of_le hp (p.line_advance_le gap)
      simp only [relocate, Piece.scan_moved previous hq]
      cases Piece.scan previous (p.advance gap) c rest with
      | error failure => rfl
      | ok piece =>
        have hafter := Nat.lt_of_lt_of_le hq (Position.line_advance_le _ piece.text)
        simp only [id, Position.advance_moved hq]
        rw [ih _ hafter]
        cases tokensFrom steps (some piece.kind) ((p.advance gap).advance piece.text) piece.rest <;> rfl

end Token

/-! ## What stands in front -/

/-- The characters that what stands in front gives a meaning. -/
def isSign (c : Char) : Bool := c = '+' || c = '-'

theorem Piece.scan_previous (hc : isSign c = false) (previous previous' : Option TokenKind)
    (p : Position) (rest : List Char) : scan previous p c rest = scan previous' p c rest := by
  unfold scan
  split
  · rfl
  · rw [show (decide (c = '+') || decide (c = '-')) = false from hc]
    rfl

/-- A piece is cut from the text ahead, behind a gap. -/
theorem exists_gap {previous : Option TokenKind}
    (hgap : skipGap .plain p text = .ok (q, c :: rest))
    (hpiece : Piece.scan previous q c rest = .ok piece) :
    ∃ gap, text = gap ++ (piece.text ++ piece.rest) ∧ q = p.advance gap ∧ piece.text ≠ [] := by
  have hskips := skipGap_spec .plain p text
  rw [hgap] at hskips
  obtain ⟨gap, rfl, rfl, -, hvisible⟩ := hskips
  have hscans := Piece.scan_spec previous (p.advance gap) rest (hvisible c rfl)
  rw [hpiece] at hscans
  obtain ⟨hcut, hreads⟩ := hscans
  exact ⟨gap, congrArg (gap ++ ·) hcut, rfl, hreads.text_ne⟩

/-- So it takes something away from the text. -/
theorem length_rest_lt {previous : Option TokenKind}
    (hgap : skipGap .plain p text = .ok (q, c :: rest))
    (hpiece : Piece.scan previous q c rest = .ok piece) : piece.rest.length < text.length := by
  obtain ⟨gap, rfl, -, hne⟩ := exists_gap hgap hpiece
  have hpos := List.length_pos_iff.mpr hne
  simp only [List.length_append]
  omega

namespace Token

/-- **Only a sign is read with a view to what stands in front.** -/
theorem tokensFrom_previous (steps : Nat) (previous previous' : Option TokenKind)
    (h : ∀ q c rest, skipGap .plain p text = .ok (q, c :: rest) → isSign c = false) :
    tokensFrom steps previous p text = tokensFrom steps previous' p text := by
  cases steps with
  | zero => rfl
  | succ steps =>
    rw [tokensFrom_succ, tokensFrom_succ]
    cases hgap : skipGap .plain p text with
    | error failure => rfl
    | ok found =>
      obtain ⟨q, _ | ⟨c, rest⟩⟩ := found
      · rfl
      · dsimp only
        rw [Piece.scan_previous (h q c rest hgap) previous previous']

/-- As many steps as there are characters are enough, and more make no difference. -/
theorem tokensFrom_steps {steps steps' : Nat} (previous : Option TokenKind) (p : Position)
    (text : List Char) (h : text.length < steps) (h' : text.length < steps') :
    tokensFrom steps previous p text = tokensFrom steps' previous p text := by
  induction steps generalizing steps' previous p text with
  | zero => exact absurd h (Nat.not_lt_zero _)
  | succ steps ih =>
    obtain ⟨steps', rfl⟩ := Nat.exists_eq_succ_of_ne_zero (Nat.ne_zero_of_lt h')
    rw [tokensFrom_succ, tokensFrom_succ]
    cases hgap : skipGap .plain p text with
    | error failure => rfl
    | ok found =>
      obtain ⟨q, _ | ⟨c, rest⟩⟩ := found
      · rfl
      · dsimp only
        cases hpiece : Piece.scan previous q c rest with
        | error failure => rfl
        | ok piece =>
          dsimp only
          have hlength := length_rest_lt hgap hpiece
          rw [ih (some piece.kind) (q.advance piece.text) piece.rest (by omega)
            (Nat.lt_of_lt_of_le hlength (Nat.le_of_lt_succ h'))]

end Token

end Scriptlet
