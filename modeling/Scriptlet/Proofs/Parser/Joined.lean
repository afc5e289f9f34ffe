import Scriptlet.Proofs.Parser.Alike
import Scriptlet.Proofs.Parser.Sound

/-!
# Programs, alike and one after the other

Like lists of tokens are programs that are alike, or fail alike (`parseTokens_like`); semicolons at the
beginning make no difference (`Stream.parallel_skip_cons`).

Two lists of tokens that are programs on their own are a program when a semicolon stands between them, and
its statements are those of both programs (`parseTokens_joined`). On the joined stream, every statement
of the first program is read as if the stream ended behind it; the reading goes on at the first token
of the second program that is not a semicolon, which is where its own reading begins.
-/

namespace Scriptlet

open Scriptlet.Stream (Parallel Past Beyond)

/-- What two parses come to: like programs or like failures. -/
inductive Likeness.Parses (ℓ : Likeness) :
    Except Failure Program → Except Failure Program → Prop where
  | ok {program program' : Program} (h : List.Forall₂ (Stmt.Like ℓ) program program') :
    Parses ℓ (.ok program) (.ok program')
  | error {failure failure' : Failure} (h : failure.Like ℓ .parsing failure') :
    Parses ℓ (.error failure) (.error failure')

namespace Stream

variable {ℓ : Likeness} {s s' : Stream} {ts ts' : List Token} {t last last' : Token}

/-- Nothing beyond the end. -/
def Beyond.nothing {last : Token} (hlast : last.kind = .endOfInput) : Beyond :=
  ⟨[], last, fun _ ht => by simp at ht, hlast⟩

/-- A semicolon and more tokens beyond the end. -/
def Beyond.after {t last : Token} (rest : List Token) (ht : t.kind = .semicolon)
    (hlast : last.kind = .endOfInput) : Beyond :=
  ⟨t :: rest, last, fun _ hfirst => Option.some.inj hfirst ▸ ht, hlast⟩

theorem ne_end_of_like (hlike : List.Forall₂ (Token.Like ℓ) ts ts')
    (hts : ∀ t ∈ ts, t.kind ≠ .endOfInput) : ∀ t ∈ ts', t.kind ≠ .endOfInput := by
  induction hlike with
  | nil => exact hts
  | cons hfirst _ ih =>
    obtain ⟨hkind, hrest⟩ := List.forall_mem_cons.mp hts
    exact List.forall_mem_cons.mpr ⟨hfirst.kind ▸ hkind, ih hrest⟩

/-- Streams of like tokens are parallel, whatever comes beyond the end of the first. -/
theorem parallel_ofTokens {beyond : Beyond} (hts : ∀ t ∈ ts, t.kind ≠ .endOfInput)
    (hbeyond : ∀ t ∈ beyond.tokens, t.kind ≠ .endOfInput) (hlast : last.kind = .endOfInput)
    (hlike : List.Forall₂ (Token.Like ℓ) ts ts')
    (hends : beyond.tokens = [] → last.Like ℓ beyond.last) :
    Parallel ℓ beyond (Stream.ofTokens (ts ++ [last]))
      (Stream.ofTokens (ts' ++ beyond.tokens ++ [beyond.last])) := by
  have hts' : ∀ t ∈ ts' ++ beyond.tokens, t.kind ≠ .endOfInput := fun t ht =>
    (List.mem_append.mp ht).elim (ne_end_of_like hlike hts t) (hbeyond t)
  refine ⟨.ofTokens _, ⟨ts', ahead_ofTokens hts' beyond.ends, ?_⟩, last_ofTokens hts' beyond.ends, ?_⟩
  · rw [ahead_ofTokens hts hlast]
    exact hlike
  · rw [last_ofTokens hts hlast]
    exact hends

end Stream

namespace Parser

variable {ℓ : Likeness} {beyond : Beyond} {s s' : Stream}

/-- One round of reading a program. -/
def programStep (depth : Nat) : Parser (Option Stmt) :=
  upToStep .endOfInput do
    let stmt ← statement (expression depth) depth
    skipSemicolons
    return stmt

theorem program_apply (hlast : s.last.kind ≠ .semicolon) :
    program s = collect (programStep (s.bound + 1)) s.bound s.skip := by
  change statements .endOfInput (statement (expression (s.bound + 1)) (s.bound + 1)) s = _
  exact bind_of_ok (skipSemicolons_apply hlast)

section Programs

variable (hℓ : ℓ.Carries) {depth depth' rounds rounds' : Nat}
  (hs : Past ℓ beyond beyond.resume s s') (hdepth : s.ahead.length < depth)
  (hdepth' : s.ahead.length < depth') (hrounds : s.ahead.length ≤ rounds)
  (hrounds' : s'.ahead.length ≤ rounds')

include hℓ hs hdepth hdepth' hrounds hrounds'

/-- The statements of a stream are read alike up to its end, whatever the depths and the rounds. -/
theorem goesOn_programStep :
    GoesOn ℓ beyond beyond.resume .endOfInput s
      (do let stmt ← statement (expression depth') depth'; skipSemicolons; return stmt)
      (Stmt.Like ℓ) (collect (programStep depth) rounds s) (collect (programStep depth') rounds' s') :=
  goesOn_collect (List.length_dropWhile_le _ _)
    (fun _ _ => statement_item (statement_pairs (expression_pairs hℓ hdepth hdepth') hdepth hdepth'))
    hs (Nat.lt_succ_self _) hrounds hrounds'

/-- **Like streams are read as like programs**, or reading them fails alike. -/
theorem collect_programStep_like (hbeyond : beyond.tokens = []) :
    ℓ.Parses ((collect (programStep depth) rounds s).map Prod.fst)
      ((collect (programStep depth') rounds' s').map Prod.fst) := by
  have hgoes := goesOn_programStep hℓ hs hdepth hdepth' hrounds hrounds'
  rcases hleft : collect (programStep depth) rounds s with failure | ⟨program, r⟩ <;>
    rw [hleft] at hgoes
  · obtain ⟨failure', hright, hfailure⟩ := hgoes hbeyond
    rw [hright]
    exact .error hfailure
  · obtain ⟨-, hend, program', r', left, hprogram, hpast, -, hright⟩ := hgoes
    have hend' : r'.peek.kind = .endOfInput := by
      cases hpast with
      | outside hne => exact absurd hbeyond hne
      | inside h =>
        have hlike := h.peek.resolve_right fun hcut => hcut.beyond hbeyond
        exact hlike.kind.trans (hend.elim id id)
    rw [collect_upToStep_stop (.inl hend')] at hright
    rw [hright]
    show ℓ.Parses (.ok program) (.ok (program' ++ []))
    rw [List.append_nil]
    exact .ok hprogram

/-- Where the first stream ends, the reading of the second goes on behind the semicolons at the seam. -/
theorem collect_programStep_seam (hbeyond : beyond.tokens ≠ []) {program : Program} {r : Stream}
    (hleft : collect (programStep depth) rounds s = .ok (program, r)) :
    ∃ program' r' left, List.Forall₂ (Stmt.Like ℓ) program program' ∧ r'.ahead = beyond.resume ∧
      r'.last = beyond.last ∧ r'.ahead.length ≤ left ∧
      collect (programStep depth') rounds' s' =
        (collect (programStep depth') left r').map (behind program') := by
  have hgoes := goesOn_programStep hℓ hs hdepth hdepth' hrounds hrounds'
  rw [hleft] at hgoes
  obtain ⟨-, hend, program', r', left, hprogram, hpast, hlength, hright⟩ := hgoes
  cases hpast with
  | outside _ _ _ hahead hlast => exact ⟨program', r', left, hprogram, hahead, hlast, hlength, hright⟩
  | inside h hinside =>
    have hempty := h.ended.ahead_eq_nil (hend.elim id id)
    exact absurd hempty (hinside.resolve_right hbeyond)

end Programs

/-- Programs are alike if their tokens are so without the semicolons at the beginning. -/
theorem program_like (hℓ : ℓ.Carries) (hs : Past ℓ beyond beyond.resume s.skip s'.skip)
    (hlast : s.last.kind = .endOfInput) (hlast' : s'.last.kind = .endOfInput)
    (hbeyond : beyond.tokens = []) :
    ℓ.Parses ((program s).map Prod.fst) ((program s').map Prod.fst) := by
  rw [program_apply (by rw [hlast]; decide), program_apply (by rw [hlast']; decide)]
  have hfits : s.skip.ahead.length ≤ s.bound := s.skip.fits
  have hfits' : s'.skip.ahead.length ≤ s'.bound := s'.skip.fits
  have hlength := hs.length_eq hbeyond
  exact collect_programStep_like hℓ hs (by omega) (by omega) hfits hfits' hbeyond

/-- Two programs on streams, of which the second one begins at the seam of the joined stream. -/
theorem program_joined {ℓ₁ ℓ₂ : Likeness} {beyond₂ : Beyond} {s₁ s₂ r₁ r₂ : Stream}
    {program₁ program₂ : Program} (hℓ₁ : ℓ₁.Carries) (hℓ₂ : ℓ₂.Carries)
    (hs : Parallel ℓ₁ beyond s₁ s) (hbeyond : beyond.tokens ≠ []) (hbeyond₂ : beyond₂.tokens = [])
    (hseam : ∀ r, r.ahead = beyond.resume → r.last = beyond.last →
      Past ℓ₂ beyond₂ beyond₂.resume s₂.skip r)
    (hlast₂ : s₂.last.kind = .endOfInput) (h₁ : program s₁ = .ok (program₁, r₁))
    (h₂ : program s₂ = .ok (program₂, r₂)) :
    ∃ program₁' program₂' r, List.Forall₂ (Stmt.Like ℓ₁) program₁ program₁' ∧
      List.Forall₂ (Stmt.Like ℓ₂) program₂ program₂' ∧
      program s = .ok (program₁' ++ program₂', r) := by
  have hlength := hs.length
  have hfits := s.fits
  have hfits₁ : s₁.skip.ahead.length ≤ s₁.bound := s₁.skip.fits
  have hfits₂ : s₂.skip.ahead.length ≤ s₂.bound := s₂.skip.fits
  have hskip₁ : s₁.skip.ahead.length ≤ s₁.ahead.length := List.length_dropWhile_le _ _
  rw [program_apply (by rw [hs.ended.last]; decide)] at h₁
  rw [program_apply (by rw [hlast₂]; decide)] at h₂
  obtain ⟨program₁', r, left, hlike₁, hahead, hlast, hleft, hjoined⟩ :=
    collect_programStep_seam hℓ₁ hs.skip (by omega) (show _ < s.bound + 1 by omega) hfits₁
      s.skip.fits hbeyond h₁
  have hpast := hseam r hahead hlast
  have hresume : r.ahead.length ≤ beyond.tokens.length := by
    rw [hahead]
    exact List.length_dropWhile_le _ _
  have hlength₂ := hpast.length_eq hbeyond₂
  have hsecond := collect_programStep_like hℓ₂ hpast (Nat.lt_succ_of_le hfits₂)
    (show _ < s.bound + 1 by omega) hfits₂ hleft hbeyond₂
  rw [h₂] at hsecond
  rw [program_apply (by rw [hs.last', beyond.ends]; decide)]
  cases hright : collect (programStep (s.bound + 1)) left r with
  | error failure =>
    rw [hright] at hsecond
    cases hsecond
  | ok found =>
    rw [hright] at hsecond
    obtain ⟨hlike₂⟩ := hsecond
    refine ⟨program₁', found.1, found.2, hlike₁, hlike₂, hjoined.trans ?_⟩
    rw [hright]
    rfl

end Parser

section Programs

variable {ℓ : Likeness} (hℓ : ℓ.Carries) {ts ts' : List Token} {semicolon last last' : Token}
  (hts : ∀ t ∈ ts, t.kind ≠ .endOfInput) (hlast : last.kind = .endOfInput)
  (hlike : List.Forall₂ (Token.Like ℓ) ts ts')

include hts hlast hlike

/-- Without the semicolons at the beginning, streams of like tokens are parallel, also if there is one
semicolon more in the second. -/
theorem Stream.past_ofTokens (hend : last.Like ℓ last') {tokens : List Token}
    (htokens : tokens = ts' ∨ ∃ t, t.kind = .semicolon ∧ tokens = t :: ts') :
    ∃ beyond : Beyond, beyond.tokens = [] ∧
      Past ℓ beyond beyond.resume (Stream.ofTokens (ts ++ [last])).skip
        (Stream.ofTokens (tokens ++ [last'])).skip := by
  have hlast' : last'.kind = .endOfInput := hend.kind.trans hlast
  have hs : Parallel ℓ (.nothing hlast') (Stream.ofTokens (ts ++ [last]))
      (Stream.ofTokens (ts' ++ [] ++ [last'])) :=
    parallel_ofTokens hts (fun _ h => by cases h) hlast hlike fun _ => hend
  rw [List.append_nil] at hs
  refine ⟨.nothing hlast', rfl, ?_⟩
  rcases htokens with rfl | ⟨t, ht, rfl⟩
  · exact hs.skip
  · have hts' := ne_end_of_like hlike hts
    have hcons : ∀ t' ∈ t :: ts', t'.kind ≠ .endOfInput :=
      List.forall_mem_cons.mpr ⟨by rw [ht]; decide, hts'⟩
    refine hs.skip.of_ahead ?_ ?_
    · rw [skip_ahead, skip_ahead, ahead_ofTokens hcons hlast', ahead_ofTokens hts' hlast']
      exact List.dropWhile_cons_of_pos (decide_eq_true ht)
    · rw [skip_last, skip_last, last_ofTokens hcons hlast', last_ofTokens hts' hlast']

include hℓ

/-- **Like tokens are like programs**, or fail to be programs alike; one semicolon more at the beginning
makes no difference. -/
theorem parseTokens_like (hend : last.Like ℓ last') {tokens : List Token}
    (htokens : tokens = ts' ∨ ∃ t, t.kind = .semicolon ∧ tokens = t :: ts') :
    ℓ.Parses (parseTokens (ts ++ [last])) (parseTokens (tokens ++ [last'])) := by
  obtain ⟨beyond, hbeyond, hs⟩ := Stream.past_ofTokens hts hlast hlike hend htokens
  exact Parser.program_like hℓ hs (Stream.Ended.ofTokens _).last (Stream.Ended.ofTokens _).last hbeyond

end Programs

theorem exists_of_isOk {α : Type} {result : Except Failure α} (h : result.isOk = true) :
    ∃ a, result = .ok a := by
  cases result with
  | ok a => exact ⟨a, rfl⟩
  | error failure => cases h

section Joined

variable {ℓ₁ ℓ₂ : Likeness} {ts₁ ts₁' ts₂ ts₂' : List Token} {semicolon last₁ last₂ last₂' : Token}
  {program₁ program₂ : Program}

/-- **Two programs with a semicolon between them are one program**, with the statements of both. -/
theorem parseTokens_joined (hℓ₁ : ℓ₁.Carries) (hℓ₂ : ℓ₂.Carries)
    (hts₁ : ∀ t ∈ ts₁, t.kind ≠ .endOfInput) (hlast₁ : last₁.kind = .endOfInput)
    (hts₂ : ∀ t ∈ ts₂, t.kind ≠ .endOfInput) (hlast₂ : last₂.kind = .endOfInput)
    (hlike₁ : List.Forall₂ (Token.Like ℓ₁) ts₁ ts₁') (hlike₂ : List.Forall₂ (Token.Like ℓ₂) ts₂ ts₂')
    (hend₂ : last₂.Like ℓ₂ last₂') (hsemicolon : semicolon.kind = .semicolon)
    (h₁ : parseTokens (ts₁ ++ [last₁]) = .ok program₁)
    (h₂ : parseTokens (ts₂ ++ [last₂]) = .ok program₂) :
    ∃ program₁' program₂', List.Forall₂ (Stmt.Like ℓ₁) program₁ program₁' ∧
      List.Forall₂ (Stmt.Like ℓ₂) program₂ program₂' ∧
      parseTokens (ts₁' ++ semicolon :: ts₂' ++ [last₂']) = .ok (program₁' ++ program₂') := by
  have hlast₂' : last₂'.kind = .endOfInput := hend₂.kind.trans hlast₂
  have hts₂' := Stream.ne_end_of_like hlike₂ hts₂
  have hbeyond : ∀ t ∈ semicolon :: ts₂', t.kind ≠ .endOfInput :=
    List.forall_mem_cons.mpr ⟨by rw [hsemicolon]; decide, hts₂'⟩
  have hs : Parallel ℓ₁ (.after ts₂' hsemicolon hlast₂') (Stream.ofTokens (ts₁ ++ [last₁]))
      (Stream.ofTokens (ts₁' ++ semicolon :: ts₂' ++ [last₂'])) :=
    Stream.parallel_ofTokens hts₁ hbeyond hlast₁ hlike₁ fun h => by cases h
  obtain ⟨beyond₂, hbeyond₂, hpast₂⟩ :=
    Stream.past_ofTokens hts₂ hlast₂ hlike₂ hend₂ (.inr ⟨semicolon, hsemicolon, rfl⟩)
  have hseam : ∀ r : Stream, r.ahead = (Beyond.after ts₂' hsemicolon hlast₂').resume →
      r.last = last₂' → Past ℓ₂ beyond₂ beyond₂.resume (Stream.ofTokens (ts₂ ++ [last₂])).skip r :=
    fun r hahead hlast => hpast₂.of_ahead
      (by rw [hahead, Stream.skip_ahead, Stream.ahead_ofTokens hbeyond hlast₂']; rfl)
      (by rw [hlast, Stream.skip_last, Stream.last_ofTokens hbeyond hlast₂'])
  obtain ⟨r₁, hprogram₁⟩ := exists_of_parseTokens h₁
  obtain ⟨r₂, hprogram₂⟩ := exists_of_parseTokens h₂
  obtain ⟨program₁', program₂', r, hlike₁, hlike₂, hprogram⟩ :=
    Parser.program_joined hℓ₁ hℓ₂ hs (List.cons_ne_nil _ _) hbeyond₂ hseam
      (Stream.Ended.ofTokens _).last hprogram₁ hprogram₂
  refine ⟨program₁', program₂', hlike₁, hlike₂, ?_⟩
  rw [parseTokens, hprogram]
  rfl

end Joined

end Scriptlet
