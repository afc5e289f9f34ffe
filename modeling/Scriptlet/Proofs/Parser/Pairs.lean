import Scriptlet.Proofs.Parser.Parallel

/-!
# Parsers on parallel streams

A parser does the same on parallel streams (`Pairs`): what it makes of the tokens of the first stream, it
also makes of those of the second, and it leaves off at the same token. If nothing stands beyond the
common tokens, it fails on both for the same reason as well. The judgement has a rule for each way to
put parsers together.

Neither the bounds of the streams nor the depth to which a reader of expressions may nest has any part
in this, as long as they are large enough. So there may be one depth on the left and another on the
right; `n` bounds the tokens ahead, and every nested reader is one token further on.
-/

namespace Scriptlet

open Scriptlet.Stream (Parallel Cut Past Beyond)

namespace Parser

variable {ℓ : Likeness} {beyond : Beyond} {s s' r r' : Stream} {t t' : Token}
  {α β γ δ : Type} {p : Parser α} {p' : Parser β} {q : Parser γ} {q' : Parser δ}
  {f : α → Parser γ} {f' : β → Parser δ} {n : Nat} {taken taken' : α → Nat} {Q Q' : α → β → Prop}
  {R : γ → δ → Prop} {a : α} {b : β} {kind : TokenKind} {what : Expectation}
  {rest rest' : Stream → Stream → Prop}

/-! ## The judgement -/

/-- What two parsers come to, compared: related results, for which the first one took so many tokens
at least, with related streams left, or like failures if nothing stands beyond. -/
def Outcome (ℓ : Likeness) (beyond : Beyond) (rest : Stream → Stream → Prop) (s : Stream)
    (taken : α → Nat) (Q : α → β → Prop) :
    Except Failure (α × Stream) → Except Failure (β × Stream) → Prop
  | .ok (a, r), result => r.ahead.length + taken a ≤ s.ahead.length ∧
      ∃ b r', result = .ok (b, r') ∧ Q a b ∧ rest r r'
  | .error failure, result => beyond.tokens = [] →
      ∃ failure', result = .error failure' ∧ failure.Like ℓ .parsing failure'

/-- Two parsers do the same on parallel streams with fewer than `n` tokens ahead in the first. -/
def Pairs (ℓ : Likeness) (beyond : Beyond) (n : Nat) (taken : α → Nat) (p : Parser α)
    (p' : Parser β) (Q : α → β → Prop) : Prop :=
  ∀ s s', Parallel ℓ beyond s s' → s.ahead.length < n →
    Outcome ℓ beyond (Parallel ℓ beyond) s taken Q (p s) (p' s')

/-- The same where certain tokens come next. -/
def PairsAt (ℓ : Likeness) (beyond : Beyond) (t t' : Token) (n : Nat) (taken : α → Nat)
    (p : Parser α) (p' : Parser β) (Q : α → β → Prop) : Prop :=
  ∀ s s', Parallel ℓ beyond s s' → s.ahead.length < n → s.peek = t → s'.peek = t' →
    Outcome ℓ beyond (Parallel ℓ beyond) s taken Q (p s) (p' s')

/-- A step takes a token if it gives something. -/
def progress (o : Option α) : Nat := if o.isSome then 1 else 0

theorem progress_le (o : Option α) : progress o ≤ 1 := by
  unfold progress
  split <;> omega

namespace Outcome

theorem mono {x : Except Failure (α × Stream)} {x' : Except Failure (β × Stream)}
    (h : Outcome ℓ beyond rest s taken Q x x') (htaken : ∀ a, taken' a ≤ taken a)
    (himp : ∀ a b, Q a b → Q' a b) (hrest : ∀ r r', rest r r' → rest' r r') :
    Outcome ℓ beyond rest' s taken' Q' x x' := by
  rcases x with failure | ⟨a, r⟩
  · exact h
  · obtain ⟨hlength, b, r', hx', hQ, hr⟩ := h
    exact ⟨Nat.le_trans (Nat.add_le_add_left (htaken a) _) hlength, b, r', hx', himp a b hQ,
      hrest r r' hr⟩

/-- The same, counted from further in front. -/
theorem earlier {x : Except Failure (α × Stream)} {x' : Except Failure (β × Stream)} {k : Nat}
    (h : Outcome ℓ beyond rest r taken Q x x') (hle : r.ahead.length + k ≤ s.ahead.length) :
    Outcome ℓ beyond rest s (fun a => k + taken a) Q x x' := by
  rcases x with failure | ⟨a, last⟩
  · exact h
  · have hlength := h.1
    exact ⟨by dsimp only; omega, h.2⟩

theorem bind {k : Nat} {j : γ → Nat} (hp : Outcome ℓ beyond rest s (fun _ => k) Q (p s) (p' s'))
    (hf : ∀ a b r r', Q a b → rest r r' → r.ahead.length + k ≤ s.ahead.length →
      Outcome ℓ beyond rest' r j R (f a r) (f' b r')) :
    Outcome ℓ beyond rest' s (fun c => k + j c) R ((p >>= f) s) ((p' >>= f') s') := by
  cases hps : p s with
  | error failure =>
    rw [hps] at hp
    rw [bind_of_error hps]
    intro hbeyond
    obtain ⟨failure', hp', hlike⟩ := hp hbeyond
    exact ⟨failure', bind_of_error hp', hlike⟩
  | ok found =>
    rw [hps] at hp
    obtain ⟨hlength, b, r', hp', hQ, hr⟩ := hp
    rw [bind_of_ok hps, bind_of_ok hp']
    exact (hf found.1 b found.2 r' hQ hr hlength).earlier hlength

/-- On a cut stream, nothing is asked of what follows a failure. -/
theorem of_cut {x : Except Failure (α × Stream)} {x' : Except Failure (β × Stream)}
    {failure : Failure} (hcut : Cut ℓ beyond s s') (hx : x = .error failure) :
    Outcome ℓ beyond rest s taken Q x x' := by
  rw [hx]
  exact fun hbeyond => absurd hbeyond hcut.beyond

end Outcome

namespace Pairs

theorem weaken {n' : Nat} (h : Pairs ℓ beyond n taken p p' Q) (hn : n' ≤ n)
    (htaken : ∀ a, taken' a ≤ taken a) : Pairs ℓ beyond n' taken' p p' Q :=
  fun s s' hs hlength =>
    (h s s' hs (Nat.lt_of_lt_of_le hlength hn)).mono htaken (fun _ _ => id) fun _ _ => id

theorem of_le {n' : Nat} (h : Pairs ℓ beyond n taken p p' Q) (hn : n' ≤ n) :
    Pairs ℓ beyond n' taken p p' Q := h.weaken hn fun _ => Nat.le_refl _

/-- No stream has fewer than no tokens ahead. -/
theorem zero : Pairs ℓ beyond 0 taken p p' Q := fun _ _ _ hn => absurd hn (Nat.not_lt_zero _)

/-- Whatever was taken need not be known. -/
theorem free (h : Pairs ℓ beyond n taken p p' Q) : Pairs ℓ beyond n (fun _ => 0) p p' Q :=
  h.weaken (Nat.le_refl n) fun _ => Nat.zero_le _

theorem next (h : Pairs ℓ beyond n taken p p' Q) (t t' : Token) :
    PairsAt ℓ beyond t t' n taken p p' Q := fun s s' hs hlength _ _ => h s s' hs hlength

theorem pure_of (h : Q a b) (htaken : taken a = 0) :
    Pairs ℓ beyond n taken (Pure.pure a) (Pure.pure b) Q :=
  fun s _ hs _ => ⟨by rw [htaken]; exact Nat.le_refl _, b, _, rfl, h, hs⟩

theorem pure (h : Q a b) : Pairs ℓ beyond n (fun _ => 0) (Pure.pure a) (Pure.pure b) Q :=
  pure_of h rfl

/-- A step that gives nothing on both sides. -/
theorem nothing : Pairs ℓ beyond n progress (Pure.pure none) (Pure.pure none) (Option.Rel Q) :=
  pure_of .none rfl

theorem throw {span span' : Span} {fault : Fault} (hspan : ℓ.span span span')
    (hphase : fault.phase = .parsing) :
    Pairs ℓ beyond n taken (MonadExcept.throw (Failure.located span fault) : Parser α)
      (MonadExcept.throw (Failure.located span' fault) : Parser β) Q :=
  fun _ _ _ _ _ => ⟨_, rfl, rfl, hphase, .some hspan⟩

theorem unexpected : Pairs ℓ beyond n taken Parser.unexpected Parser.unexpected Q := by
  intro s s' hs _ hbeyond
  rcases hs.peek with hlike | hcut
  · refine ⟨_, rfl, ?_, rfl, .some hlike.span⟩
    rw [Failure.located, Failure.located, hlike.describe]
  · exact absurd hbeyond hcut.beyond

theorem expected : Pairs ℓ beyond n taken (Parser.expected what) (Parser.expected what) Q := by
  intro s s' hs _ hbeyond
  rcases hs.peek with hlike | hcut
  · refine ⟨_, rfl, ?_, rfl, .some hlike.span⟩
    rw [Failure.located, Failure.located, hlike.describe]
  · exact absurd hbeyond hcut.beyond

/-- What comes next may be read with the same tokens ahead. -/
theorem bind {j : γ → Nat} (hp : Pairs ℓ beyond n (fun _ => 0) p p' Q)
    (hf : ∀ a b, Q a b → Pairs ℓ beyond n j (f a) (f' b) R) :
    Pairs ℓ beyond n j (p >>= f) (p' >>= f') R := by
  intro s s' hs hlength
  refine ((hp s s' hs hlength).bind fun a b r r' hQ hr hle => ?_).mono
    (fun c => Nat.le_add_left _ 0) (fun _ _ => id) fun _ _ => id
  exact hf a b hQ r r' hr (Nat.lt_of_le_of_lt hle hlength)

/-- What comes after a token has fewer tokens ahead. -/
theorem bind_taking (hp : Pairs ℓ beyond (n + 1) (fun _ => 1) p p' Q)
    (hf : ∀ a b, Q a b → Pairs ℓ beyond n (fun _ => 0) (f a) (f' b) R) :
    Pairs ℓ beyond (n + 1) (fun _ => 1) (p >>= f) (p' >>= f') R := by
  intro s s' hs hlength
  refine (hp s s' hs hlength).bind (j := fun _ => 0) fun a b r r' hQ hr hle => ?_
  exact hf a b hQ r r' hr (by omega)

theorem map {g : α → γ} {g' : β → δ} {k : Nat} (hp : Pairs ℓ beyond n (fun _ => k) p p' Q)
    (hg : ∀ a b, Q a b → R (g a) (g' b)) :
    Pairs ℓ beyond n (fun _ => k) (g <$> p) (g' <$> p') R := by
  rw [map_eq_pure_bind, map_eq_pure_bind]
  intro s s' hs hlength
  exact (hp s s' hs hlength).bind fun a b r r' hQ hr _ => pure (n := n) (hg a b hQ) r r' hr (by omega)

/-! ### Tokens -/

/-- Looking at the next token. -/
theorem peek {g : Token → Parser α} {g' : Token → Parser β}
    (hlike : ∀ t t', t.Like ℓ t' → PairsAt ℓ beyond t t' n taken (g t) (g' t') Q)
    (hcut : ∀ s s', Cut ℓ beyond s s' → s.ahead.length < n →
      Outcome ℓ beyond (Parallel ℓ beyond) s taken Q (g s.peek s) (g' s'.peek s')) :
    Pairs ℓ beyond n taken (Parser.peek >>= g) (Parser.peek >>= g') Q := by
  intro s s' hs hlength
  rcases hs.peek with hpeek | hends
  · exact hlike _ _ hpeek s s' hs hlength rfl rfl
  · exact hcut s s' hends hlength

end Pairs

namespace PairsAt

/-- A step that takes a token whatever it gives. -/
theorem step {p : Parser (Option α)} {p' : Parser (Option β)} {Q : Option α → Option β → Prop}
    (h : PairsAt ℓ beyond t t' n (fun _ => 1) p p' Q) : PairsAt ℓ beyond t t' n progress p p' Q :=
  fun s s' hs hn ht ht' => (h s s' hs hn ht ht').mono progress_le (fun _ _ => id) fun _ _ => id

theorem advance {g : Token → Parser α} {g' : Token → Parser β}
    (hkind : t.kind ≠ .endOfInput)
    (hg : Pairs ℓ beyond n (fun _ => 0) (g t) (g' t') Q) :
    PairsAt ℓ beyond t t' (n + 1) (fun _ => 1) (Parser.advance >>= g) (Parser.advance >>= g') Q := by
  rintro s s' hs hlength rfl rfl
  have hadvance := hs.length_advance hkind
  exact (hg s.advance s'.advance (hs.advance hkind) (by omega)).earlier (Nat.le_of_eq hadvance)

end PairsAt

/-- A choice by whether a token follows looks at the next one. -/
theorem accepting_apply (kind : TokenKind) (p q : Parser α) (s : Stream) :
    (do if ← accept kind then p else q : Parser α) s =
      if s.peek.kind = kind then (Parser.advance >>= fun _ => p) s else q s := by
  by_cases hkind : s.peek.kind = kind
  · rw [bind_of_ok (accept_apply kind s ▸ if_pos hkind), if_pos hkind]
    rfl
  · rw [bind_of_ok (accept_apply kind s ▸ if_neg hkind), if_neg hkind]
    rfl

namespace Pairs

/-- A choice by whether a token follows, which is taken then. -/
theorem accepting_taking {kind : TokenKind} {p q : Parser α} {p' q' : Parser β}
    (hend : kind ≠ .endOfInput) (hsemicolon : kind ≠ .semicolon)
    (hyes : Pairs ℓ beyond n (fun _ => 0) p p' Q) (htaken : ∀ a, taken a ≤ 1)
    (hno : Pairs ℓ beyond (n + 1) taken q q' Q) :
    Pairs ℓ beyond (n + 1) taken (do if ← Parser.accept kind then p else q)
      (do if ← Parser.accept kind then p' else q') Q := by
  intro s s' hs hlength
  rw [accepting_apply, accepting_apply]
  rcases hs.peek with hpeek | hcut
  · rw [hpeek.kind]
    split
    · rename_i hkind
      have hadvance : PairsAt ℓ beyond s.peek s'.peek (n + 1) (fun _ => 1)
          (Parser.advance >>= fun _ => p) (Parser.advance >>= fun _ => p') Q :=
        .advance (hkind ▸ hend) hyes
      exact (hadvance s s' hs hlength rfl rfl).mono htaken (fun _ _ => id) fun _ _ => id
    · exact hno s s' hs hlength
  · rw [if_neg (by rw [hcut.kind]; exact hend.symm), if_neg (by rw [hcut.kind']; exact hsemicolon.symm)]
    exact hno s s' hs hlength

/-- The same where nothing is known of the tokens that are left. -/
theorem accepting {kind : TokenKind} {p q : Parser α} {p' q' : Parser β}
    (hend : kind ≠ .endOfInput) (hsemicolon : kind ≠ .semicolon)
    (hyes : Pairs ℓ beyond n (fun _ => 0) p p' Q) (hno : Pairs ℓ beyond n (fun _ => 0) q q' Q) :
    Pairs ℓ beyond n (fun _ => 0) (do if ← Parser.accept kind then p else q)
      (do if ← Parser.accept kind then p' else q') Q := by
  cases n with
  | zero => exact zero
  | succ n =>
    exact accepting_taking hend hsemicolon (hyes.of_le (Nat.le_succ n)) (fun _ => Nat.zero_le 1) hno

theorem expect (hend : kind ≠ .endOfInput) :
    Pairs ℓ beyond n (fun _ => 1) (Parser.expect kind what) (Parser.expect kind what)
      (Token.Like ℓ) := by
  cases n with
  | zero => exact zero
  | succ n =>
    refine peek (fun t t' ht => ?_) fun s s' hcut _ => ?_
    · rw [ht.kind]
      split
      · rename_i hkind
        exact .advance (hkind ▸ hend) (pure ht)
      · exact expected.next t t'
    · rw [if_neg (by rw [hcut.kind]; exact hend.symm)]
      exact .of_cut hcut rfl

end Pairs

/-! ### Repetition -/

/-- A step that gives nothing at the end of a stream. -/
def Idle (step : Parser (Option α)) : Prop := ∀ s : Stream, s.Ended → s.ahead = [] → step s = .ok (none, s)

namespace Idle

theorem growBy {step : α → Parser (Option α)} (h : Idle (step a)) (hended : s.Ended)
    (hs : s.ahead = []) (rounds : Nat) : Parser.growBy step rounds a s = .ok (a, s) := by
  cases rounds with
  | zero => rfl
  | succ rounds => exact growBy_of_none (h s hended hs) rounds

theorem collect {step : Parser (Option α)} (h : Idle step) (hended : s.Ended) (hs : s.ahead = [])
    (rounds : Nat) : Parser.collect step rounds s = .ok ([], s) := by
  cases rounds with
  | zero => rfl
  | succ rounds => exact collect_of_none (h s hended hs) rounds

/-- A step that is idle on the left is so on the right as well. -/
theorem pairs {step : Parser (Option α)} {step' : Parser (Option β)} (h : Idle step)
    (hstep : Pairs ℓ beyond n progress step step' (Option.Rel Q)) (hs : Parallel ℓ beyond s s')
    (hn : s.ahead.length < n) (hempty : s.ahead = []) :
    ∃ r', step' s' = .ok (none, r') ∧ Parallel ℓ beyond s r' := by
  have houtcome := hstep s s' hs hn
  rw [h s hs.ended hempty] at houtcome
  obtain ⟨-, _ | b, r', hr', ⟨⟩, hparallel⟩ := houtcome
  exact ⟨r', hr', hparallel⟩

theorem nothing : Idle (Pure.pure none : Parser (Option α)) := fun _ _ _ => rfl

theorem peek {g : Token → Parser (Option α)}
    (h : ∀ t : Token, t.kind = .endOfInput → g t = Pure.pure none) :
    Idle (Parser.peek >>= g) := by
  intro s hended hs
  change g s.peek s = _
  rw [h s.peek (hended.peek_kind hs)]
  rfl

theorem accepting (hend : kind ≠ .endOfInput) (p : Parser (Option α)) {q : Parser (Option α)}
    (hq : Idle q) : Idle (do if ← Parser.accept kind then p else q) := by
  intro s hended hs
  have hkind : s.peek.kind ≠ kind := hended.peek_kind hs ▸ hend.symm
  rw [accepting_apply, if_neg hkind]
  exact hq s hended hs

end Idle

namespace Pairs

/-- A result is extended alike on both sides. Every round takes a token, so the rounds do not run
out first on either side. -/
theorem growBy {step : α → Parser (Option α)} {step' : β → Parser (Option β)}
    (hstep : ∀ a b, Q a b → Pairs ℓ beyond n progress (step a) (step' b) (Option.Rel Q))
    (hidle : ∀ a, Idle (step a)) {rounds rounds' : Nat} (h : Q a b)
    (hs : Parallel ℓ beyond s s') (hn : s.ahead.length < n) (hrounds : s.ahead.length ≤ rounds)
    (hrounds' : s'.ahead.length ≤ rounds') :
    Outcome ℓ beyond (Parallel ℓ beyond) s (fun _ => 0) Q (Parser.growBy step rounds a s)
      (Parser.growBy step' rounds' b s') := by
  induction rounds generalizing rounds' s s' a b with
  | zero =>
    have hempty : s.ahead = [] := List.length_eq_zero_iff.mp (Nat.le_zero.mp hrounds)
    obtain ⟨r', hr', hparallel⟩ := (hidle a).pairs (hstep a b h) hs hn hempty
    refine ⟨Nat.le_refl _, b, ?_⟩
    cases rounds' with
    | zero => exact ⟨s', rfl, h, hs⟩
    | succ rounds' => exact ⟨r', growBy_of_none hr' rounds', h, hparallel⟩
  | succ rounds ih =>
    have hlength := hs.length
    have houtcome := hstep a b h s s' hs hn
    cases rounds' with
    | zero =>
      have hempty : s.ahead = [] := List.length_eq_zero_iff.mp (by omega)
      rw [(hidle a).growBy hs.ended hempty]
      exact ⟨Nat.le_refl _, b, s', rfl, h, hs⟩
    | succ rounds' =>
      rcases hround : step a s with failure | ⟨_ | a', r⟩ <;> rw [hround] at houtcome
      · have hleft : Parser.growBy step (rounds + 1) a s = .error failure := bind_of_error hround
        rw [hleft]
        intro hbeyond
        obtain ⟨failure', hround', hlike⟩ := houtcome hbeyond
        exact ⟨failure', bind_of_error hround', hlike⟩
      · obtain ⟨hle, _ | b', r', hround', ⟨⟩, hparallel⟩ := houtcome
        rw [growBy_of_none hround, growBy_of_none hround']
        exact ⟨hle, b, r', rfl, h, hparallel⟩
      · obtain ⟨hle, _ | b', r', hround', ⟨hQ⟩, hparallel⟩ := houtcome
        have hless : r.ahead.length + 1 ≤ s.ahead.length := hle
        have hlength' := hparallel.length
        rw [growBy_of_some hround, growBy_of_some hround']
        exact (ih hQ hparallel (by omega) (by omega) (by omega)).earlier (k := 0) (by omega)

theorem grow {step : α → Parser (Option α)} {step' : β → Parser (Option β)}
    (hstep : ∀ a b, Q a b → Pairs ℓ beyond n progress (step a) (step' b) (Option.Rel Q))
    (hidle : ∀ a, Idle (step a)) (h : Q a b) :
    Pairs ℓ beyond n (fun _ => 0) (Parser.grow step a) (Parser.grow step' b) Q :=
  fun s s' hs hn => growBy hstep hidle h hs hn s.fits s'.fits

/-- Results are collected alike on both sides. -/
theorem collect {step : Parser (Option α)} {step' : Parser (Option β)}
    (hstep : Pairs ℓ beyond n progress step step' (Option.Rel Q)) (hidle : Idle step)
    {rounds rounds' : Nat} (hs : Parallel ℓ beyond s s') (hn : s.ahead.length < n)
    (hrounds : s.ahead.length ≤ rounds) (hrounds' : s'.ahead.length ≤ rounds') :
    Outcome ℓ beyond (Parallel ℓ beyond) s (fun _ => 0) (List.Forall₂ Q)
      (Parser.collect step rounds s) (Parser.collect step' rounds' s') := by
  induction rounds generalizing rounds' s s' with
  | zero =>
    have hempty : s.ahead = [] := List.length_eq_zero_iff.mp (Nat.le_zero.mp hrounds)
    obtain ⟨r', hr', hparallel⟩ := hidle.pairs hstep hs hn hempty
    refine ⟨Nat.le_refl _, [], ?_⟩
    cases rounds' with
    | zero => exact ⟨s', rfl, .nil, hs⟩
    | succ rounds' => exact ⟨r', collect_of_none hr' rounds', .nil, hparallel⟩
  | succ rounds ih =>
    have hlength := hs.length
    have houtcome := hstep s s' hs hn
    cases rounds' with
    | zero =>
      have hempty : s.ahead = [] := List.length_eq_zero_iff.mp (by omega)
      rw [hidle.collect hs.ended hempty]
      exact ⟨Nat.le_refl _, [], s', rfl, .nil, hs⟩
    | succ rounds' =>
      rcases hround : step s with failure | ⟨_ | a, r⟩ <;> rw [hround] at houtcome
      · have hleft : Parser.collect step (rounds + 1) s = .error failure := bind_of_error hround
        rw [hleft]
        intro hbeyond
        obtain ⟨failure', hround', hlike⟩ := houtcome hbeyond
        exact ⟨failure', bind_of_error hround', hlike⟩
      · obtain ⟨hle, _ | b', r', hround', ⟨⟩, hparallel⟩ := houtcome
        rw [collect_of_none hround, collect_of_none hround']
        exact ⟨hle, [], r', rfl, .nil, hparallel⟩
      · obtain ⟨hle, _ | b, r', hround', ⟨hQ⟩, hparallel⟩ := houtcome
        have hless : r.ahead.length + 1 ≤ s.ahead.length := hle
        have hlength' := hparallel.length
        rw [collect_of_some hround, collect_of_some hround']
        have hrest := ih hparallel (by omega) (by omega) (show r'.ahead.length ≤ rounds' by omega)
        revert hrest
        cases Parser.collect step rounds r with
        | error failure =>
          intro hrest hbeyond
          obtain ⟨failure', heq, hlike⟩ := hrest hbeyond
          exact ⟨failure', by rw [heq]; rfl, hlike⟩
        | ok found =>
          rintro ⟨hle', bs, last, heq, hQs, hlast⟩
          refine ⟨Nat.le_trans hle' (by omega), b :: bs, last, ?_, .cons hQ hQs, hlast⟩
          rw [heq]
          rfl

theorem many {step : Parser (Option α)} {step' : Parser (Option β)}
    (hstep : Pairs ℓ beyond n progress step step' (Option.Rel Q)) (hidle : Idle step) :
    Pairs ℓ beyond n (fun _ => 0) (Parser.many step) (Parser.many step') (List.Forall₂ Q) :=
  fun s s' hs hn => collect hstep hidle hs hn s.fits s'.fits

theorem separated {item : Parser α} {item' : Parser β}
    (hitem : Pairs ℓ beyond n (fun _ => 1) item item' Q) :
    Pairs ℓ beyond n (fun _ => 1) (Parser.separated item) (Parser.separated item')
      (List.Forall₂ Q) := by
  cases n with
  | zero => exact zero
  | succ n =>
    have hmore : Pairs ℓ beyond (n + 1) progress
        (do if ← Parser.accept .comma then return some (← item) else return none)
        (do if ← Parser.accept .comma then return some (← item') else return none)
        (Option.Rel Q) := by
      refine accepting_taking (by decide) (by decide) ?_ progress_le nothing
      exact (hitem.of_le (Nat.le_succ n)).free.bind fun a b hQ => pure (.some hQ)
    refine hitem.bind_taking fun a b hQ => ?_
    refine ((many hmore (.accepting (by decide) _ .nothing)).of_le (Nat.le_succ n)).bind
      fun as bs hQs => pure (.cons hQ hQs)

end Pairs

/-! ### Items up to a closing token -/

/-- One round of reading items. -/
def upToStep (close : TokenKind) (item : Parser α) : Parser (Option α) := do
  let kind := (← Parser.peek).kind
  if kind = close ∨ kind = .endOfInput then return none else return some (← item)

variable {close : TokenKind} {item : Parser α} {item' : Parser β} {resume : List Token}

theorem upToStep_stop (h : s.peek.kind = close ∨ s.peek.kind = .endOfInput) :
    upToStep close item s = .ok (none, s) := by
  change (if s.peek.kind = close ∨ s.peek.kind = .endOfInput then _ else _ : Parser _) s = _
  rw [if_pos h]
  rfl

theorem upToStep_go (h : ¬(s.peek.kind = close ∨ s.peek.kind = .endOfInput)) :
    upToStep close item s = (item s).map fun found => (some found.1, found.2) := by
  change (if s.peek.kind = close ∨ s.peek.kind = .endOfInput then _ else _ : Parser _) s = _
  rw [if_neg h]
  cases hitem : item s with
  | error failure => exact bind_of_error hitem
  | ok found => exact (bind_of_ok hitem).trans rfl

theorem collect_upToStep_stop (h : s.peek.kind = close ∨ s.peek.kind = .endOfInput)
    (rounds : Nat) : collect (upToStep close item) rounds s = .ok ([], s) := by
  cases rounds with
  | zero => rfl
  | succ rounds => exact collect_of_none (upToStep_stop h) rounds

/-- Items behind others. -/
def behind (bs : List β) (found : List β × Stream) : List β × Stream := (bs ++ found.1, found.2)

/-- How the reading of items goes on on the right when it has stopped on the left: it has given like
items so far and stands at the same point. -/
def GoesOn (ℓ : Likeness) (beyond : Beyond) (resume : List Token) (close : TokenKind) (s : Stream)
    (item' : Parser β) (Q : α → β → Prop) :
    Except Failure (List α × Stream) → Except Failure (List β × Stream) → Prop
  | .ok (as, r), result => r.ahead.length ≤ s.ahead.length ∧
      (r.peek.kind = close ∨ r.peek.kind = .endOfInput) ∧
      ∃ bs r' rounds, List.Forall₂ Q as bs ∧ Past ℓ beyond resume r r' ∧
        r'.ahead.length ≤ rounds ∧
        result = (collect (upToStep close item') rounds r').map (behind bs)
  | .error failure, result => beyond.tokens = [] →
      ∃ failure', result = .error failure' ∧ failure.Like ℓ .parsing failure'

/-- Nothing more is read at a closing token, or at the end of the first stream. -/
theorem GoesOn.stop (hs : Past ℓ beyond resume s s') {rounds : Nat}
    (hrounds : s'.ahead.length ≤ rounds) (h : s.peek.kind = close ∨ s.peek.kind = .endOfInput) :
    GoesOn ℓ beyond resume close s item' Q (.ok ([], s)) (collect (upToStep close item') rounds s') := by
  refine ⟨Nat.le_refl _, h, [], s', rounds, .nil, hs, hrounds, ?_⟩
  cases collect (upToStep close item') rounds s' <;> rfl

/-- **Items are read alike up to where the first stream ends.** -/
theorem goesOn_collect (hresume : resume.length ≤ beyond.tokens.length)
    (hitem : ∀ s s', Parallel ℓ beyond s s' → s.ahead.length < n →
      Outcome ℓ beyond (Past ℓ beyond resume) s (fun _ => 1) Q (item s) (item' s'))
    {rounds rounds' : Nat} (hs : Past ℓ beyond resume s s') (hn : s.ahead.length < n)
    (hrounds : s.ahead.length ≤ rounds) (hrounds' : s'.ahead.length ≤ rounds') :
    GoesOn ℓ beyond resume close s item' Q (collect (upToStep close item) rounds s)
      (collect (upToStep close item') rounds' s') := by
  induction rounds generalizing rounds' s s' with
  | zero =>
    have hempty : s.ahead = [] := List.length_eq_zero_iff.mp (Nat.le_zero.mp hrounds)
    exact .stop hs hrounds' (.inr (hs.ended.peek_kind hempty))
  | succ rounds ih =>
    by_cases hkind : s.peek.kind = close ∨ s.peek.kind = .endOfInput
    · rw [collect_upToStep_stop hkind]
      exact .stop hs hrounds' hkind
    · have hne := hs.ended.ahead_ne_nil (fun h => hkind (.inr h))
      obtain ⟨hparallel, hlike⟩ : Parallel ℓ beyond s s' ∧ s.peek.Like ℓ s'.peek := by
        cases hs with
        | outside _ _ hempty => exact absurd hempty hne
        | inside h =>
          refine ⟨h, h.peek.resolve_right fun hcut => hkind (.inr hcut.kind)⟩
      have hlength := hparallel.length
      have hpos := List.length_pos_iff.mpr hne
      obtain ⟨rounds', rfl⟩ : ∃ k, rounds' = k + 1 := ⟨rounds' - 1, by omega⟩
      have hstep : upToStep close item s = _ := upToStep_go hkind
      rw [← hlike.kind] at hkind
      have hstep' : upToStep close item' s' = _ := upToStep_go hkind
      have houtcome := hitem s s' hparallel hn
      rcases hround : item s with failure | ⟨a, r⟩ <;> rw [hround] at houtcome hstep
      · have hleft : collect (upToStep close item) (rounds + 1) s = .error failure :=
          bind_of_error hstep
        rw [hleft]
        intro hbeyond
        obtain ⟨failure', hround', hfailure⟩ := houtcome hbeyond
        rw [hround'] at hstep'
        exact ⟨failure', bind_of_error hstep', hfailure⟩
      · obtain ⟨hle, b, r', hround', hQ, hpast⟩ := houtcome
        rw [hround'] at hstep'
        have hless : r.ahead.length + 1 ≤ s.ahead.length := hle
        have hless' : r'.ahead.length ≤ rounds' := by
          have hle' := hpast.length_le hresume
          omega
        rw [collect_of_some hstep, collect_of_some hstep']
        have hrest := ih hpast (by omega) (by omega) hless'
        revert hrest
        cases collect (upToStep close item) rounds r with
        | error failure =>
          intro hrest hbeyond
          obtain ⟨failure', heq, hfailure⟩ := hrest hbeyond
          exact ⟨failure', by rw [heq]; rfl, hfailure⟩
        | ok found =>
          rintro ⟨hle', hends, bs, last, left, hQs, hlast, hleft, heq⟩
          refine ⟨Nat.le_trans hle' (by omega), hends, b :: bs, last, left, .cons hQ hQs, hlast, hleft, ?_⟩
          rw [heq]
          cases collect (upToStep close item') left last <;> rfl

/-- Items up to a closing token, and that token. Where only the first stream is at its end, the
token is missing on the left. -/
theorem Outcome.closed {g : List α → Token → Parser γ} {g' : List β → Token → Parser δ}
    (hresume : resume.length ≤ beyond.tokens.length)
    (hitem : ∀ s s', Parallel ℓ beyond s s' → s.ahead.length < n →
      Outcome ℓ beyond (Past ℓ beyond resume) s (fun _ => 1) Q (item s) (item' s'))
    (hclose : close ≠ .endOfInput)
    (hg : ∀ as bs t t', List.Forall₂ Q as bs → t.Like ℓ t' →
      Pairs ℓ beyond n (fun _ => 0) (g as t) (g' bs t') R)
    (hs : Past ℓ beyond resume s s') (hn : s.ahead.length < n) :
    Outcome ℓ beyond (Parallel ℓ beyond) s (fun _ => 1) R
      ((upTo close item >>= fun as => expect close what >>= g as) s)
      ((upTo close item' >>= fun bs => expect close what >>= g' bs) s') := by
  have hitems : GoesOn ℓ beyond resume close s item' Q (upTo close item s) (upTo close item' s') :=
    goesOn_collect hresume hitem hs hn s.fits s'.fits
  rcases hleft : upTo close item s with failure | ⟨as, r⟩ <;> rw [hleft] at hitems
  · rw [bind_of_error hleft]
    intro hbeyond
    obtain ⟨failure', hright, hfailure⟩ := hitems hbeyond
    exact ⟨failure', bind_of_error hright, hfailure⟩
  · obtain ⟨hle, hends, bs, r', rounds, hQs, hpast, -, hright⟩ := hitems
    rw [bind_of_ok hleft]
    cases hpast with
    | outside hbeyond hended hr =>
      have hkind : r.peek.kind ≠ close := hended.peek_kind hr ▸ hclose.symm
      rw [bind_of_error (expect_apply close what r ▸ if_neg hkind)]
      exact fun hempty => absurd hempty hbeyond
    | inside hparallel hinside =>
      have hlike : r.peek.Like ℓ r'.peek := hparallel.peek.resolve_right fun hcut =>
        hinside.elim (fun hne => hne (hparallel.ended.ahead_eq_nil hcut.kind)) hcut.beyond
      rw [collect_upToStep_stop (by rw [hlike.kind]; exact hends)] at hright
      have hright' : upTo close item' s' = .ok (bs, r') := by
        rw [hright, Except.map, behind, List.append_nil]
      rw [bind_of_ok hright']
      have hexpect : Pairs ℓ beyond (n + 1) (fun _ => 1) (expect close what >>= g as)
          (expect close what >>= g' bs) R :=
        (Pairs.expect hclose).bind_taking fun t t' ht => hg as bs t t' hQs ht
      exact (hexpect r r' hparallel (by omega)).earlier hle

end Parser
end Scriptlet
