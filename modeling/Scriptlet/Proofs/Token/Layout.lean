import Mathlib.Data.List.Infix
import Scriptlet.Proofs.Position
import Scriptlet.Token.Gap

/-!
# Layout

What may stand between tokens: spacing, line comments and block comments. A line comment goes up to
its line feed, or to the end of the text if there is no other token. A block comment is closed by the
first `*/` after its opening.

The reader of gaps skips layout and nothing else, all of it, and stops at a character that is no
spacing (`skipGap_spec`). It fails only inside a block comment that is never closed, and then it says
where that was opened.
-/

namespace Scriptlet

variable {atEnd : Prop} {c : Char} {text gap rest : List Char} {p q : Position} {mode : Gap}
  {failure : Failure}

/-- Text that is no token. The last line comment of a source needs no line feed. -/
inductive Layout (atEnd : Prop) : List Char → Prop where
  | nil : Layout atEnd []
  | spacing {c : Char} {rest : List Char} (hc : isSpacing c = true) (h : Layout atEnd rest) :
    Layout atEnd (c :: rest)
  | lineComment {body rest : List Char} (hbody : '\n' ∉ body) (h : Layout atEnd rest) :
    Layout atEnd ('/' :: '/' :: body ++ '\n' :: rest)
  | lastComment {body : List Char} (hend : atEnd) (hbody : '\n' ∉ body) :
    Layout atEnd ('/' :: '/' :: body)
  | blockComment {body rest : List Char} (hbody : ¬['*', '/'] <:+: body) (h : Layout atEnd rest) :
    Layout atEnd ('/' :: '*' :: body ++ '*' :: '/' :: rest)

theorem Layout.mono {atEnd' : Prop} (himp : atEnd → atEnd') (h : Layout atEnd gap) :
    Layout atEnd' gap := by
  induction h with
  | nil => exact .nil
  | spacing hc _ ih => exact .spacing hc ih
  | lineComment hbody _ ih => exact .lineComment hbody ih
  | lastComment hend hbody => exact .lastComment (himp hend) hbody
  | blockComment hbody _ ih => exact .blockComment hbody ih

namespace Gap

/-- Text that completes a gap from inside of something. -/
def Completes (atEnd : Prop) : Gap → List Char → Prop
  | plain, gap => Layout atEnd gap
  | lineComment, gap =>
    (∃ body rest, gap = body ++ '\n' :: rest ∧ '\n' ∉ body ∧ Layout atEnd rest) ∨
      atEnd ∧ '\n' ∉ gap
  | blockComment _, gap =>
    ∃ body rest, gap = body ++ '*' :: '/' :: rest ∧ ¬['*', '/'] <:+: body ∧ Layout atEnd rest

namespace Completes

theorem open_line (h : lineComment.Completes atEnd gap) : Layout atEnd ('/' :: '/' :: gap) := by
  rcases h with ⟨body, rest, rfl, hbody, hrest⟩ | ⟨hend, hgap⟩
  · exact .lineComment hbody hrest
  · exact .lastComment hend hgap

theorem open_block {opening : Span} (h : (blockComment opening).Completes atEnd gap) :
    Layout atEnd ('/' :: '*' :: gap) := by
  obtain ⟨body, rest, rfl, hbody, hrest⟩ := h
  exact .blockComment hbody hrest

theorem line_feed (h : Layout atEnd gap) : lineComment.Completes atEnd ('\n' :: gap) :=
  .inl ⟨[], gap, rfl, by simp, h⟩

theorem line_cons (hc : c ≠ '\n') (h : lineComment.Completes atEnd gap) :
    lineComment.Completes atEnd (c :: gap) := by
  rcases h with ⟨body, rest, rfl, hbody, hrest⟩ | ⟨hend, hgap⟩
  · exact .inl ⟨c :: body, rest, rfl, by simp [hbody, hc.symm], hrest⟩
  · exact .inr ⟨hend, by simp [hgap, hc.symm]⟩

theorem close_block {opening : Span} (h : Layout atEnd gap) :
    (blockComment opening).Completes atEnd ('*' :: '/' :: gap) :=
  ⟨[], gap, rfl, by simp, h⟩

/-- A block comment goes on with a character that does not begin its closing. -/
theorem block_cons {opening : Span} (hc : ∀ tail, c :: gap ≠ '*' :: '/' :: tail)
    (h : (blockComment opening).Completes atEnd gap) :
    (blockComment opening).Completes atEnd (c :: gap) := by
  obtain ⟨body, rest, rfl, hbody, hrest⟩ := h
  refine ⟨c :: body, rest, rfl, fun hinfix => ?_, hrest⟩
  rcases List.infix_cons_iff.mp hinfix with ⟨tail, hprefix⟩ | hinfix
  · cases body with
    | nil => simp at hprefix
    | cons d body =>
      obtain ⟨rfl, rfl, -⟩ : '*' = c ∧ '/' = d ∧ tail = body := by simpa using hprefix
      exact hc (body ++ '*' :: '/' :: rest) rfl
  · exact hbody hinfix

end Completes

end Gap

/-- What skipping the rest of a gap comes to: the gap is completed, or there is a block comment
without an end. -/
def Skips (mode : Gap) (p : Position) (text : List Char) :
    Except Failure (Position × List Char) → Prop
  | .ok (q, rest) => ∃ gap, text = gap ++ rest ∧ q = p.advance gap ∧
    mode.Completes (rest = []) gap ∧ ∀ c ∈ rest.head?, isSpacing c = false
  | .error failure => ∃ opening, failure = .located opening .unterminatedComment ∧
    (mode = .blockComment opening ∨ ∃ gap rest, text = gap ++ '/' :: '*' :: rest ∧
      opening = .between (p.advance gap) (p.advance (gap ++ ['/', '*'])))

namespace Skips

variable {result : Except Failure (Position × List Char)} {mode' : Gap}

/-- Some more characters in front. -/
theorem prepend (front : List Char) (h : Skips mode' (p.advance front) text result)
    (hgap : ∀ atEnd gap rest, text = gap ++ rest → mode'.Completes atEnd gap →
      mode.Completes atEnd (front ++ gap))
    (hopening : ∀ opening, mode' = .blockComment opening → mode = .blockComment opening ∨
      ∃ rest, front ++ text = '/' :: '*' :: rest ∧ opening = .between p (p.advance ['/', '*'])) :
    Skips mode p (front ++ text) result := by
  rcases result with failure | ⟨q, rest⟩
  · obtain ⟨opening, rfl, hmode | ⟨gap, rest, rfl, rfl⟩⟩ := h
    · refine ⟨opening, rfl, (hopening opening hmode).imp id fun hfront => ?_⟩
      obtain ⟨rest, hfront, rfl⟩ := hfront
      exact ⟨[], rest, hfront, rfl⟩
    · refine ⟨_, rfl, .inr ⟨front ++ gap, rest, by simp, ?_⟩⟩
      simp only [Position.advance_append, List.append_assoc]
  · obtain ⟨gap, rfl, rfl, hcompletes, hhead⟩ := h
    refine ⟨front ++ gap, by simp, ?_, hgap _ gap rest rfl hcompletes, hhead⟩
    rw [Position.advance_append]

end Skips

/-- **The reader of gaps skips layout, all of it and nothing else.** -/
theorem skipGap_spec (mode : Gap) (p : Position) (text : List Char) :
    Skips mode p text (skipGap mode p text) := by
  fun_induction skipGap mode p text with
  | case1 p rest ih =>
    refine Skips.prepend ['/', '/'] ih (fun _ _ _ _ h => h.open_line) ?_
    simp
  | case2 p rest inside ih =>
    refine Skips.prepend ['/', '*'] ih (fun _ _ _ _ h => h.open_block) fun opening hopening => ?_
    cases hopening
    exact .inr ⟨rest, rfl, rfl⟩
  | case3 p c rest _ _ hc ih =>
    exact Skips.prepend [c] ih (fun _ _ _ _ h => .spacing hc h) (by simp)
  | case4 p c rest _ _ hc =>
    exact ⟨[], rfl, rfl, .nil, by simpa using hc⟩
  | case5 p c rest ih =>
    refine Skips.prepend [c] ih (fun atEnd gap _ _ h => ?_) ?_
    · split at h
      · rename_i hc
        subst hc
        exact Gap.Completes.line_feed h
      · rename_i hc
        exact Gap.Completes.line_cons hc h
    · split <;> simp
  | case6 opening p rest ih =>
    exact Skips.prepend ['*', '/'] ih (fun _ _ _ _ h => Gap.Completes.close_block h) (by simp)
  | case7 opening p c rest hne ih =>
    refine Skips.prepend [c] ih (fun _ gap after htext h => ?_) fun _ h => .inl h
    refine Gap.Completes.block_cons (fun tail heq => ?_) h
    obtain ⟨rfl, rfl⟩ := List.cons.inj heq
    exact hne (tail ++ after) rfl htext
  | case8 opening p => exact ⟨opening, rfl, .inl rfl⟩
  | case9 mode p hne =>
    refine ⟨[], rfl, rfl, ?_, by simp⟩
    cases mode with
    | plain => exact .nil
    | lineComment => exact .inr ⟨rfl, by simp⟩
    | blockComment opening => exact absurd rfl (hne opening)

/-! ## Layout in front of a text -/

theorem skipGap_spacing (hc : isSpacing c = true) (p : Position) (tail : List Char) :
    skipGap .plain p (c :: tail) = skipGap .plain (p.next c) tail := by
  have hslash : c ≠ '/' := by
    rintro rfl
    cases hc
  rw [skipGap, if_pos hc]
  · exact fun _ h => absurd h hslash
  · exact fun _ h => absurd h hslash

/-- A character that is no spacing begins no gap, and a slash none unless a comment begins with it. -/
theorem skipGap_visible (hc : isSpacing c = false)
    (hslash : c = '/' → ∀ d ∈ rest.head?, isSpacing d = true) (p : Position) :
    skipGap .plain p (c :: rest) = .ok (p, c :: rest) := by
  rw [skipGap, if_neg (by simp [hc])]
  · rintro tail rfl rfl
    cases hslash rfl _ rfl
  · rintro tail rfl rfl
    cases hslash rfl _ rfl

theorem skipGap_lineComment {body : List Char} (hbody : '\n' ∉ body) (p : Position) :
    skipGap .lineComment p (body ++ '\n' :: rest) =
      skipGap .plain (p.advance (body ++ ['\n'])) rest := by
  induction body generalizing p with
  | nil => rw [List.nil_append, skipGap, if_pos rfl]; rfl
  | cons c body ih =>
    obtain ⟨hc, hbody⟩ := not_or.mp (mt List.mem_cons.mpr hbody)
    rw [List.cons_append, skipGap, if_neg (Ne.symm hc), ih hbody]
    rfl

theorem skipGap_blockComment {opening : Span} {body : List Char} (hbody : ¬['*', '/'] <:+: body)
    (p : Position) : skipGap (.blockComment opening) p (body ++ '*' :: '/' :: rest) =
      skipGap .plain (p.advance (body ++ ['*', '/'])) rest := by
  induction body generalizing p with
  | nil => rw [List.nil_append, skipGap]; rfl
  | cons c body ih =>
    rw [List.cons_append, skipGap, ih fun h => hbody (h.trans (List.suffix_cons c body).isInfix)]
    · rfl
    · -- The body does not close the comment, nor does it with the closing behind it.
      rintro tail rfl htail
      cases body with
      | nil => cases htail
      | cons d body =>
        obtain ⟨rfl, -⟩ := List.cons.inj htail
        exact hbody (List.prefix_append ['*', '/'] body).isInfix

/-- **Closed layout is skipped**, and the reader stops where it stops without it. -/
theorem skipGap_layout (hgap : Layout False gap) (hrest : ∀ p, skipGap .plain p rest = .ok (p, rest))
    (p : Position) : skipGap .plain p (gap ++ rest) = .ok (p.advance gap, rest) := by
  induction hgap generalizing p with
  | nil => exact hrest p
  | spacing hc _ ih => rw [List.cons_append, skipGap_spacing hc, ih, Position.advance_cons]
  | @lineComment body after hbody _ ih =>
    have hnext : ('/' :: '/' :: body ++ '\n' :: after) ++ rest =
        '/' :: '/' :: (body ++ '\n' :: (after ++ rest)) := by simp
    rw [hnext, skipGap, skipGap_lineComment hbody, ih]
    simp [Position.advance_append]
  | lastComment hend => exact hend.elim
  | @blockComment body after hbody _ ih =>
    have hnext : ('/' :: '*' :: body ++ '*' :: '/' :: after) ++ rest =
        '/' :: '*' :: (body ++ '*' :: '/' :: (after ++ rest)) := by simp
    rw [hnext, skipGap, skipGap_blockComment hbody, ih]
    simp [Position.advance_append]

end Scriptlet
