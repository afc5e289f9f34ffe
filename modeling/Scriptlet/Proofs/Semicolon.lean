import Scriptlet.Proofs.Parser.Joined
import Scriptlet.Proofs.Parser.Sound
import Scriptlet.Proofs.Token.Shift

/-!
# A semicolon in front of a program

Semicolons separate statements and write nothing, so one in front of a program should not matter.

**Theorem (`parse_semicolon`).** A source with a semicolon in front of it has the same program, moved by
one byte and on the first line by one column, and where there is none, it fails in the same way, unless
the source begins with a sign. Such a source has no program at all.

Behind the semicolon the scanner is in the place and in the state that the token before has left it in.
The place only moves the spans. The state makes a difference for a sign, which at the very start of a
source is an operator between two operands and behind a semicolon is an operator in front of one; no
statement begins with the first. For all other sources the tokens are alike, with one semicolon more.
-/

namespace Scriptlet

open List (Forall₂)

variable {shift : Shift} {ts : List Token} {t : Token} {tokens : List Token} {source : String}
  {program : Program}

/-! ## Moved programs -/

/-- A program of a text that is moved. -/
def Program.moved (shift : Shift) (program : Program) : Program :=
  program.map (Stmt.mapSpans (Span.moved shift))

/-- Spans that are moved, and any numbers. -/
def Likeness.moved (shift : Shift) : Likeness :=
  ⟨fun span span' => span' = span.moved shift, fun _ => True, False⟩

namespace Likeness

theorem carries_moved : (moved shift).Carries where
  join hfirst hlast := by
    change Span.join _ _ = Span.moved shift _
    rw [hfirst, hlast, Span.join_moved]
  number _ _ _ := trivial

/-- What moved tokens are read as. -/
theorem Parses.eq_relocate {result result' : Except Failure Program}
    (h : (moved shift).Parses result result') :
    result' = relocate shift (Program.moved shift) result := by
  cases h with
  | ok hlike => exact congrArg Except.ok (Stmt.eq_map_mapSpans (fun _ _ => id) hlike)
  | @error failure failure' hfailure =>
    obtain ⟨fault, span⟩ := failure
    obtain ⟨fault', span'⟩ := failure'
    obtain rfl : fault' = fault := hfailure.fault
    have hspan : span' = span.map (Span.moved shift) := by
      obtain hspan | _ := hfailure.span
      · exact congrArg some hspan
      · rfl
    rw [hspan]
    rfl

end Likeness

/-- Legible tokens and the same tokens, moved. -/
theorem Token.forall₂_like_moved {ℓ : Likeness} (hspan : ∀ span, ℓ.span span (span.moved shift))
    (h : ∀ t ∈ ts, t.Legible) : Forall₂ (Token.Like ℓ) ts (ts.map (Token.moved shift)) := by
  rw [List.forall₂_map_right_iff, List.forall₂_same]
  exact fun t ht => ⟨rfl, rfl, hspan t.span, h t ht⟩

/-! ## Signs -/

/-- The first character of a source that is no layout. -/
def firstVisible? (source : String) : Option Char :=
  match skipGap .plain .start source.toList with
  | .ok (_, rest) => rest.head?
  | .error _ => none

/-- The first token of a program is a semicolon, or it begins a statement. -/
theorem Grammar.Derives.begins_of_body {least : Nat} {stmts : List Stmt}
    (h : Derives least ts (.body stmts)) (ht : t ∈ ts.head?) :
    t.kind = .semicolon ∨ (isStatementWord t.kind || Level.assignment.begins t.kind) = true := by
  cases h with
  | @body semicolons _ _ hsemicolons hstmts =>
    cases semicolons with
    | cons semicolon semicolons =>
      obtain rfl : semicolon = t := by simpa using ht
      exact .inl (hsemicolons _ List.mem_cons_self)
    | nil =>
      cases hstmts with
      | no_stmts => cases ht
      | more_stmts hs =>
        obtain ⟨first, rest, rfl, hbegins⟩ := hs.starts rfl
        obtain rfl : first = t := by simpa using ht
        exact .inr hbegins

/-- No program begins with an operator between two operands. -/
theorem parseTokens_operator (ht : t.kind = .operator) :
    ∃ failure, parseTokens (t :: ts) = .error failure := by
  cases hparse : parseTokens (t :: ts) with
  | error failure => exact ⟨failure, rfl⟩
  | ok program =>
    obtain ⟨r, hprogram⟩ := exists_of_parseTokens hparse
    have hended := Stream.Ended.ofTokens (t :: ts)
    obtain ⟨taken, htakes, hbody, hend⟩ :=
      Parser.program_reads _ _ program r hended rfl hprogram
    have htaken : (Stream.ofTokens (t :: ts)).ahead = taken := by
      rw [htakes.ahead, (hended.of_takes htakes).ahead_eq_nil hend, List.append_nil]
    have hhead : t ∈ taken.head? := by
      rw [← htaken]
      simp [Stream.ofTokens, ht]
    have hbegins := hbody.begins_of_body hhead
    rw [ht] at hbegins
    exact absurd hbegins (by decide)

/-- **A sign at the very start is read as an operator between two operands.** -/
theorem Piece.scan_sign {c : Char} (hc : isSign c = true) (p : Position) (rest : List Char) :
    scan none p c rest = .ok (plain .operator [c] rest) := by
  rcases by simpa [isSign] using hc with rfl | rfl
  · rfl
  · rfl

theorem exists_failure_of_sign {c : Char} (hvisible : c ∈ firstVisible? source)
    (hc : isSign c = true) : ∃ failure, parse source = .error failure := by
  unfold firstVisible? at hvisible
  rw [parse, tokenize, tokensFrom_succ]
  revert hvisible
  rcases skipGap .plain Position.start source.toList with failure | ⟨q, _ | ⟨d, rest⟩⟩
  · exact fun _ => ⟨failure, rfl⟩
  · exact fun h => by cases h
  · intro hvisible
    obtain rfl : d = c := by simpa using hvisible
    dsimp only
    rw [Piece.scan_sign hc]
    change ∃ failure, (Except.map _ (Token.tokensFrom source.toList.length (some .operator)
      (q.advance [d]) rest) >>= parseTokens) = .error failure
    cases Token.tokensFrom source.toList.length (some .operator) (q.advance [d]) rest with
    | error failure => exact ⟨failure, rfl⟩
    | ok ts =>
      have ht : (⟨.operator, .between q (q.advance [d]), String.ofList [d]⟩ : Token).kind =
        .operator := rfl
      exact parseTokens_operator ht

/-! ## The semicolon -/

/-- A semicolon is a token whatever stands in front of it. -/
theorem Token.tokensFrom_semicolon (steps : Nat) (previous : Option TokenKind) (p : Position)
    (text : List Char) :
    tokensFrom (steps + 1) previous p (';' :: text) =
      (tokensFrom steps (some .semicolon) (p.next ';') text).map
        (⟨.semicolon, .between p (p.next ';'), ";"⟩ :: ·) := by
  have hgap : skipGap .plain p (';' :: text) = .ok (p, ';' :: text) := by
    rw [skipGap, if_neg (by decide)]
    · exact fun _ h => by cases h
    · exact fun _ h => by cases h
  rw [tokensFrom_succ, hgap]
  rfl

/-- The tokens behind a semicolon at the start of a source. -/
theorem tokenize_semicolon (hsign : ∀ c ∈ firstVisible? source, isSign c = false) :
    tokenize (";" ++ source) = relocate ⟨1, 0, 1⟩
      (fun tokens => ⟨.semicolon, ⟨0, 1, 1, 1⟩, ";"⟩ :: tokens.map (Token.moved ⟨1, 0, 1⟩))
      (tokenize source) := by
  have hprevious : ∀ q c rest, skipGap .plain .start source.toList = .ok (q, c :: rest) →
      isSign c = false := fun q c rest h => hsign c (by rw [firstVisible?, h]; rfl)
  have hmoved := Token.tokensFrom_moved ⟨1, 0, 1⟩ (source.toList.length + 1) (some .semicolon)
    (p := .start) Nat.one_pos source.toList
  rw [Token.tokensFrom_previous _ _ none hprevious] at hmoved
  rw [tokenize, String.toList_append, show ";".toList = [';'] from rfl, List.singleton_append,
    List.length_cons, Token.tokensFrom_semicolon]
  change Except.map _ (Token.tokensFrom _ _ (Position.moved ⟨1, 0, 1⟩ .start) _) = _
  rw [hmoved, tokenize]
  cases Token.tokensFrom (source.toList.length + 1) none .start source.toList <;> rfl

/-- **A semicolon in front of a source makes no difference**, except for the places, unless the source
begins with a sign; and no program does. -/
theorem parse_semicolon (source : String) :
    ((∀ c ∈ firstVisible? source, isSign c = false) →
      parse (";" ++ source) = relocate ⟨1, 0, 1⟩ (Program.moved ⟨1, 0, 1⟩) (parse source)) ∧
    ∀ c ∈ firstVisible? source, isSign c = true → ∃ failure, parse source = .error failure := by
  refine ⟨fun hsign => ?_, fun c hvisible hc => exists_failure_of_sign hvisible hc⟩
  rw [parse, parse, tokenize_semicolon hsign]
  cases htokens : tokenize source with
  | error failure => rfl
  | ok tokens =>
    obtain ⟨ts, last, rfl, hlast, hlegible, hne, hlegibles⟩ := exists_of_tokenize htokens
    have hend : last.Like (.moved ⟨1, 0, 1⟩) (last.moved ⟨1, 0, 1⟩) := ⟨rfl, rfl, rfl, hlegible⟩
    have hlike : Forall₂ (Token.Like (.moved ⟨1, 0, 1⟩)) ts (ts.map (Token.moved ⟨1, 0, 1⟩)) :=
      Token.forall₂_like_moved (fun _ => rfl) hlegibles
    have hparses := parseTokens_like Likeness.carries_moved hne hlast hlike hend
      (.inr ⟨⟨.semicolon, ⟨0, 1, 1, 1⟩, ";"⟩, rfl, rfl⟩)
    have hmoved : (ts ++ [last]).map (Token.moved ⟨1, 0, 1⟩) =
        ts.map (Token.moved ⟨1, 0, 1⟩) ++ [last.moved ⟨1, 0, 1⟩] := List.map_append
    rw [relocate, hmoved]
    exact hparses.eq_relocate

/-- A call on the second line, and a number with a sign. -/
theorem parse_semicolon_before_call :
    (∀ c ∈ firstVisible? "// é\nf(1)", isSign c = false) ∧
    parse (";" ++ "// é\nf(1)") =
      relocate ⟨1, 0, 1⟩ (Program.moved ⟨1, 0, 1⟩) (parse "// é\nf(1)") ∧
    (parse "// é\nf(1)").toOption.isSome = true ∧
    '-' ∈ firstVisible? " -1" ∧ ∃ failure, parse " -1" = .error failure := by
  have hfirst : firstVisible? "// é\nf(1)" = some 'f' := by decide +kernel
  have hname : ∀ c ∈ firstVisible? "// é\nf(1)", isSign c = false := by
    rw [hfirst]
    rintro c ⟨⟩
    rfl
  have hparses : (parse "// é\nf(1)").toOption.isSome = true := by decide +kernel
  have hsign : '-' ∈ firstVisible? " -1" := by decide +kernel
  exact ⟨hname, (parse_semicolon "// é\nf(1)").1 hname, hparses, hsign,
    (parse_semicolon " -1").2 '-' hsign rfl⟩

/-- **Behind a semicolon a number may have a sign, at the start of a source it may not.** -/
theorem not_neutral_before_sign :
    ¬((∃ program, parse (";" ++ "-1") = .ok program) ↔ ∃ program, parse "-1" = .ok program) := by
  have hbehind : (parse (";" ++ "-1")).toOption.isSome = true := by decide +kernel
  have hstart : (parse "-1").toOption.isSome = false := by decide +kernel
  intro h
  cases hparse : parse (";" ++ "-1") with
  | error failure => rw [hparse] at hbehind; cases hbehind
  | ok program =>
    obtain ⟨program, hprogram⟩ := h.mp ⟨program, hparse⟩
    rw [hprogram] at hstart
    cases hstart

end Scriptlet
