import Scriptlet.Proofs.Parser.Reading

/-!
# Reading with a cursor

The parsers read from a stream that ends at the first end of input, and the length of the stream bounds
how often they repeat something. Here they are carried out on all the tokens there are, with a cursor and
without a bound (`Runs`). Each look at a token is written down with the place of that token. There is no
run that looks for a token behind all of them, that takes an end of input, or that goes round forever.

A run depends on nothing but the tokens that it looks at (`Runs.agree`). It does not look behind an end of
input (`Runs.within`), and it comes to what the parser gives on the stream (`Runs.shows`): the bound is
never felt.
-/

namespace Scriptlet

/-! ## Cursors in streams -/

/-- A stream of the tokens from a place of the cursor on. -/
structure Stream.At (ts : List Token) (last : Token) (c : Nat) (s : Stream) : Prop where
  ahead : s.ahead = ts.drop c
  last : s.last = last
  within : c ≤ ts.length

namespace Stream.At

variable {ts rest : List Token} {last t : Token} {c : Nat} {s : Stream}

theorem length (h : s.At ts last c) : s.ahead.length = ts.length - c := by
  rw [h.ahead, List.length_drop]

theorem peek (h : s.At ts last c) (ht : (ts ++ last :: rest)[c]? = some t) : s.peek = t := by
  rw [Stream.peek, h.ahead, h.last]
  rcases Nat.lt_or_eq_of_le h.within with hlt | rfl
  · rw [List.getElem?_append_left hlt] at ht
    simpa [List.headD_eq_head?_getD] using congrArg (·.getD last) ht
  · simpa using ht

theorem advance (h : s.At ts last c) (ht : (ts ++ last :: rest)[c]? = some t)
    (hend : last.kind = .endOfInput) (hkind : t.kind ≠ .endOfInput) : s.advance.At ts last (c + 1) := by
  have hne : c ≠ ts.length := by
    rintro rfl
    obtain rfl : last = t := by simpa using ht
    exact hkind hend
  have hwithin := h.within
  have hahead : s.advance.ahead = ts.drop (c + 1) :=
    (congrArg List.tail h.ahead).trans List.tail_drop
  exact ⟨hahead, h.last, by omega⟩

/-- Further on, fewer tokens are ahead. -/
theorem length_lt {c' : Nat} {s' : Stream} (h' : s'.At ts last c') (h : s.At ts last c) (hc : c < c') :
    s'.ahead.length < s.ahead.length := by
  have hlength := h.length
  have hlength' := h'.length
  have hwithin := h'.within
  omega

/-- With no tokens ahead, the cursor stays where it is. -/
theorem stay {c' : Nat} (h : s.At ts last c) (hahead : s.ahead.length = 0) (hle : c ≤ c')
    (hle' : c' ≤ ts.length) : s.At ts last c' := by
  have hlength := h.length
  obtain rfl : c = c' := by omega
  exact h

/-- A token other than the end of input is ahead. -/
theorem length_pos (h : s.At ts last c) (ht : (ts ++ last :: rest)[c]? = some t)
    (hend : last.kind = .endOfInput) (hkind : t.kind ≠ .endOfInput) : 0 < s.ahead.length := by
  have hlength := h.length
  have hwithin := (h.advance ht hend hkind).within
  omega

end Stream.At

namespace Parser

variable {α β : Type} {tokens tokens' : List Token} {stop c c' : Nat} {reads : List Nat}

/-- What there is to carry out: a parser, or what is left of a repetition. -/
inductive Job : Type → Type 1 where
  | once {α : Type} (p : Parser α) : Job α
  | collecting {α : Type} (step : Parser (Option α)) : Job (List α)
  | growing {α : Type} (step : α → Parser (Option α)) (a : α) : Job α

/-- The parser of a job that may repeat something so many times. -/
def Job.parser (rounds : Nat) : {α : Type} → Job α → Parser α
  | _, .once p => p
  | _, .collecting step => collect step rounds
  | _, .growing step a => growBy step rounds a

/-- Carrying out a job on some tokens, from a place of the cursor: the places that are looked at, and the
result with the place where the cursor is left, or the failure. -/
inductive Runs (tokens : List Token) :
    {α : Type} → Job α → Nat → List Nat → Except Failure (α × Nat) → Prop where
  | pure {α : Type} (a : α) (c : Nat) : Runs tokens (.once (Pure.pure a)) c [] (.ok (a, c))
  | throw {α : Type} (failure : Failure) (c : Nat) :
    Runs tokens (.once (MonadExcept.throw failure : Parser α)) c [] (.error failure)
  | peek {c : Nat} {t : Token} (ht : tokens[c]? = some t) :
    Runs tokens (.once Parser.peek) c [c] (.ok (t, c))
  | advance {c : Nat} {t : Token} (ht : tokens[c]? = some t) (hkind : t.kind ≠ .endOfInput) :
    Runs tokens (.once Parser.advance) c [c] (.ok (t, c + 1))
  | unexpected {α : Type} {c : Nat} {t : Token} (ht : tokens[c]? = some t) :
    Runs tokens (.once (Parser.unexpected : Parser α)) c [c]
      (.error (Failure.located t.span (.unexpectedToken t.describe)))
  | expected {α : Type} {c : Nat} {t : Token} (what : Expectation) (ht : tokens[c]? = some t) :
    Runs tokens (.once (Parser.expected what : Parser α)) c [c]
      (.error (Failure.located t.span (.expectedToken what t.describe)))
  | bind {α β : Type} {p : Parser α} {f : α → Parser β} {c c' : Nat} {a : α} {reads reads' : List Nat}
    {result : Except Failure (β × Nat)} (hp : Runs tokens (.once p) c reads (.ok (a, c')))
    (hf : Runs tokens (.once (f a)) c' reads' result) :
    Runs tokens (.once (p >>= f)) c (reads ++ reads') result
  | bind_error {α β : Type} {p : Parser α} {f : α → Parser β} {c : Nat} {reads : List Nat}
    {failure : Failure} (hp : Runs tokens (.once p) c reads (.error failure)) :
    Runs tokens (.once (p >>= f)) c reads (.error failure)
  -- A repetition begins.
  | many {α : Type} {step : Parser (Option α)} {c : Nat} {reads : List Nat}
    {result : Except Failure (List α × Nat)} (h : Runs tokens (.collecting step) c reads result) :
    Runs tokens (.once (Parser.many step)) c reads result
  | grow {α : Type} {step : α → Parser (Option α)} {a : α} {c : Nat} {reads : List Nat}
    {result : Except Failure (α × Nat)} (h : Runs tokens (.growing step a) c reads result) :
    Runs tokens (.once (Parser.grow step a)) c reads result
  -- The step leaves it, or takes a token and it goes on, or fails before the end.
  | collected {α : Type} {step : Parser (Option α)} {c c' : Nat} {reads : List Nat}
    (h : Runs tokens (.once step) c reads (.ok (none, c'))) :
    Runs tokens (.collecting step) c reads (.ok ([], c'))
  | collect {α : Type} {step : Parser (Option α)} {a : α} {c c' : Nat} {reads reads' : List Nat}
    {result : Except Failure (List α × Nat)} (h : Runs tokens (.once step) c reads (.ok (some a, c')))
    (hc : c < c') (hrest : Runs tokens (.collecting step) c' reads' result) :
    Runs tokens (.collecting step) c (reads ++ reads')
      (result.map fun found => (a :: found.1, found.2))
  | collect_error {α : Type} {step : Parser (Option α)} {c : Nat} {t : Token} {reads : List Nat}
    {failure : Failure} (ht : tokens[c]? = some t) (hkind : t.kind ≠ .endOfInput)
    (h : Runs tokens (.once step) c reads (.error failure)) :
    Runs tokens (.collecting step) c (c :: reads) (.error failure)
  | grown {α : Type} {step : α → Parser (Option α)} {a : α} {c c' : Nat} {reads : List Nat}
    (h : Runs tokens (.once (step a)) c reads (.ok (none, c'))) :
    Runs tokens (.growing step a) c reads (.ok (a, c'))
  | growBy {α : Type} {step : α → Parser (Option α)} {a a' : α} {c c' : Nat} {reads reads' : List Nat}
    {result : Except Failure (α × Nat)} (h : Runs tokens (.once (step a)) c reads (.ok (some a', c')))
    (hc : c < c') (hrest : Runs tokens (.growing step a') c' reads' result) :
    Runs tokens (.growing step a) c (reads ++ reads') result
  | growBy_error {α : Type} {step : α → Parser (Option α)} {a : α} {c : Nat} {t : Token}
    {reads : List Nat} {failure : Failure} (ht : tokens[c]? = some t) (hkind : t.kind ≠ .endOfInput)
    (h : Runs tokens (.once (step a)) c reads (.error failure)) :
    Runs tokens (.growing step a) c (c :: reads) (.error failure)

namespace Runs

variable {job : Job α} {result : Except Failure (α × Nat)} {t : Token} {kind : TokenKind}

/-- A token of a kind is taken. -/
theorem accept (ht : tokens[c]? = some t) (hkind : t.kind = kind) (hend : kind ≠ .endOfInput) :
    Runs tokens (.once (Parser.accept kind)) c [c, c] (.ok (true, c + 1)) := by
  have htake : Runs tokens (.once (if t.kind = kind then (do let _ ← Parser.advance; return true)
      else return false)) c ([c] ++ []) (.ok (true, c + 1)) := by
    rw [if_pos hkind]
    exact .bind (.advance ht (hkind ▸ hend)) (.pure true _)
  exact .bind (.peek ht) htake

/-- A token of another kind is left. -/
theorem accept_other (ht : tokens[c]? = some t) (hkind : t.kind ≠ kind) :
    Runs tokens (.once (Parser.accept kind)) c [c] (.ok (false, c)) := by
  have hleave : Runs tokens (.once (if t.kind = kind then (do let _ ← Parser.advance; return true)
      else return false)) c [] (.ok (false, c)) := by
    rw [if_neg hkind]
    exact .pure false c
  exact .bind (.peek ht) hleave

/-- A run is the same on other tokens, as long as those that it looks at are. -/
theorem agree (h : Runs tokens job c reads result)
    (hagree : ∀ i ∈ reads, tokens'[i]? = tokens[i]?) : Runs tokens' job c reads result := by
  induction h with
  | pure a c => exact .pure a c
  | throw failure c => exact .throw failure c
  | peek ht => exact .peek (hagree _ List.mem_cons_self ▸ ht)
  | advance ht hkind => exact .advance (hagree _ List.mem_cons_self ▸ ht) hkind
  | unexpected ht => exact .unexpected (hagree _ List.mem_cons_self ▸ ht)
  | expected what ht => exact .expected what (hagree _ List.mem_cons_self ▸ ht)
  | bind _ _ ihp ihf =>
    obtain ⟨hleft, hright⟩ := List.forall_mem_append.mp hagree
    exact .bind (ihp hleft) (ihf hright)
  | bind_error _ ih => exact .bind_error (ih hagree)
  | many _ ih => exact .many (ih hagree)
  | grow _ ih => exact .grow (ih hagree)
  | collected _ ih => exact .collected (ih hagree)
  | collect _ hc _ ih ihrest =>
    obtain ⟨hleft, hright⟩ := List.forall_mem_append.mp hagree
    exact .collect (ih hleft) hc (ihrest hright)
  | collect_error ht hkind _ ih =>
    obtain ⟨hhere, hstep⟩ := List.forall_mem_cons.mp hagree
    exact .collect_error (hhere ▸ ht) hkind (ih hstep)
  | grown _ ih => exact .grown (ih hagree)
  | growBy _ hc _ ih ihrest =>
    obtain ⟨hleft, hright⟩ := List.forall_mem_append.mp hagree
    exact .growBy (ih hleft) hc (ihrest hright)
  | growBy_error ht hkind _ ih =>
    obtain ⟨hhere, hstep⟩ := List.forall_mem_cons.mp hagree
    exact .growBy_error (hhere ▸ ht) hkind (ih hstep)

/-- A run that begins in front of an end of input does not look behind it, and leaves the cursor no
further. -/
theorem within {last : Token} (h : Runs tokens job c reads result) (hlast : tokens[stop]? = some last)
    (hend : last.kind = .endOfInput) (hc : c ≤ stop) :
    (∀ i ∈ reads, i ≤ stop) ∧ ∀ found, result = .ok found → c ≤ found.2 ∧ found.2 ≤ stop := by
  induction h with
  | pure a c => simpa using hc
  | throw failure c => simp
  | peek ht | unexpected ht | expected what ht => simpa using hc
  | @advance c t ht hkind =>
    have hne : c ≠ stop := by
      rintro rfl
      rw [hlast] at ht
      cases ht
      exact hkind hend
    refine ⟨by simpa using hc, ?_⟩
    rintro _ ⟨⟩
    exact ⟨Nat.le_succ c, by omega⟩
  | bind _ _ ihp ihf =>
    obtain ⟨hleft, hmiddle⟩ := ihp hc
    obtain ⟨hle, hle'⟩ := hmiddle _ rfl
    obtain ⟨hright, hfound⟩ := ihf hle'
    exact ⟨List.forall_mem_append.mpr ⟨hleft, hright⟩, fun found hresult =>
      ⟨Nat.le_trans hle (hfound found hresult).1, (hfound found hresult).2⟩⟩
  | bind_error _ ih => exact ⟨(ih hc).1, nofun⟩
  | many _ ih | grow _ ih => exact ih hc
  | collected _ ih | grown _ ih =>
    obtain ⟨hreads, hfound⟩ := ih hc
    refine ⟨hreads, ?_⟩
    rintro _ ⟨⟩
    exact hfound _ rfl
  | @collect _ _ a c c' _ _ result _ _ _ ih ihrest =>
    obtain ⟨hleft, hmiddle⟩ := ih hc
    obtain ⟨hle, hle'⟩ := hmiddle _ rfl
    obtain ⟨hright, hfound⟩ := ihrest hle'
    refine ⟨List.forall_mem_append.mpr ⟨hleft, hright⟩, fun found hresult => ?_⟩
    cases result with
    | error failure => cases hresult
    | ok rest =>
      cases hresult
      exact ⟨Nat.le_trans hle (hfound rest rfl).1, (hfound rest rfl).2⟩
  | growBy _ _ _ ih ihrest =>
    obtain ⟨hleft, hmiddle⟩ := ih hc
    obtain ⟨hle, hle'⟩ := hmiddle _ rfl
    obtain ⟨hright, hfound⟩ := ihrest hle'
    exact ⟨List.forall_mem_append.mpr ⟨hleft, hright⟩, fun found hresult =>
      ⟨Nat.le_trans hle (hfound found hresult).1, (hfound found hresult).2⟩⟩
  | collect_error _ _ _ ih | growBy_error _ _ _ ih =>
    exact ⟨List.forall_mem_cons.mpr ⟨hc, (ih hc).1⟩, nofun⟩

end Runs

/-! ## What runs come to -/

/-- The result of a run is that of a parser: the cursor is where the stream is left. -/
def Shows (ts : List Token) (last : Token) :
    Except Failure (α × Nat) → Except Failure (α × Stream) → Prop
  | .ok (a, c), .ok (a', s) => a' = a ∧ s.At ts last c
  | .error failure, .error failure' => failure' = failure
  | _, _ => False

variable {ts rest : List Token} {last : Token} {s : Stream} {rounds : Nat}

theorem Shows.of_ok {a : α} {x : Except Failure (α × Stream)} (h : Shows ts last (.ok (a, c)) x) :
    ∃ s, x = .ok (a, s) ∧ s.At ts last c := by
  rcases x with failure | ⟨a', s⟩
  · exact h.elim
  · obtain ⟨rfl, hs⟩ := h
    exact ⟨s, rfl, hs⟩

theorem Shows.of_error {failure : Failure} {x : Except Failure (α × Stream)}
    (h : Shows ts last (.error failure : Except Failure (α × Nat)) x) : x = .error failure := by
  rcases x with failure' | _
  · exact congrArg Except.error h
  · exact h.elim

theorem Shows.map {g : α → β} {result : Except Failure (α × Nat)} {x : Except Failure (α × Stream)}
    (h : Shows ts last result x) : Shows ts last (result.map fun found => (g found.1, found.2))
      (x.map fun found => (g found.1, found.2)) := by
  rcases result with failure | ⟨a, c⟩
  · rw [h.of_error]
    rfl
  · obtain ⟨s, rfl, hs⟩ := h.of_ok
    exact ⟨rfl, hs⟩

/-- **A run comes to what the parser gives**, with a round at least for every token ahead. -/
theorem Runs.shows {job : Job α} {result : Except Failure (α × Nat)}
    (h : Runs (ts ++ last :: rest) job c reads result) (hend : last.kind = .endOfInput)
    (hs : s.At ts last c) (hrounds : s.ahead.length ≤ rounds) :
    Shows ts last result (job.parser rounds s) := by
  have hlast : (ts ++ last :: rest)[ts.length]? = some last := by simp
  induction h generalizing s rounds with
  | pure a c => exact ⟨rfl, hs⟩
  | throw failure c => rfl
  | peek ht => exact ⟨hs.peek ht, hs⟩
  | advance ht hkind => exact ⟨hs.peek ht, hs.advance ht hend hkind⟩
  | unexpected ht =>
    have hpeek := hs.peek ht
    subst hpeek
    rfl
  | expected what ht =>
    have hpeek := hs.peek ht
    subst hpeek
    rfl
  | @bind _ _ p f _ _ a _ _ _ _ _ ihp ihf =>
    obtain ⟨s', hps, hs'⟩ : ∃ s', p s = .ok (a, s') ∧ _ := (ihp hs hrounds).of_ok
    rw [Job.parser, bind_of_ok hps]
    exact ihf hs' s'.fits
  | @bind_error _ _ p f _ _ failure _ ih =>
    have hps : p s = .error failure := (ih hs hrounds).of_error
    rw [Job.parser, bind_of_error hps]
    rfl
  | many _ ih | grow _ ih => exact ih hs s.fits
  | @collected _ step c c' _ h ih =>
    obtain ⟨s', hstep, hs'⟩ : ∃ s', step s = .ok (none, s') ∧ _ := (ih hs hrounds).of_ok
    cases rounds with
    | zero =>
      obtain ⟨hle, hle'⟩ := (h.within hlast hend hs.within).2 _ rfl
      exact ⟨rfl, hs.stay (Nat.le_zero.mp hrounds) hle hle'⟩
    | succ rounds =>
      rw [Job.parser, collect_of_none hstep]
      exact ⟨rfl, hs'⟩
  | @collect _ step a c c' _ _ result h hc hrest ih ihrest =>
    obtain ⟨s', hstep, hs'⟩ : ∃ s', step s = .ok (some a, s') ∧ _ := (ih hs hrounds).of_ok
    have hfewer := hs'.length_lt hs hc
    obtain ⟨rounds, rfl⟩ : ∃ k, rounds = k + 1 := ⟨rounds - 1, by omega⟩
    have hshows := ihrest hs' (show s'.ahead.length ≤ rounds by omega)
    rw [Job.parser] at hshows ⊢
    rw [collect_of_some hstep]
    exact hshows.map
  | @collect_error _ step _ _ _ failure ht hkind _ ih =>
    have hstep : step s = .error failure := (ih hs hrounds).of_error
    have hpos := hs.length_pos ht hend hkind
    obtain ⟨rounds, rfl⟩ : ∃ k, rounds = k + 1 := ⟨rounds - 1, by omega⟩
    have hcollect : Parser.collect step (rounds + 1) s = .error failure := bind_of_error hstep
    rw [Job.parser, hcollect]
    rfl
  | @grown _ step a c c' _ h ih =>
    obtain ⟨s', hstep, hs'⟩ : ∃ s', step a s = .ok (none, s') ∧ _ := (ih hs hrounds).of_ok
    cases rounds with
    | zero =>
      obtain ⟨hle, hle'⟩ := (h.within hlast hend hs.within).2 _ rfl
      exact ⟨rfl, hs.stay (Nat.le_zero.mp hrounds) hle hle'⟩
    | succ rounds =>
      rw [Job.parser, growBy_of_none hstep]
      exact ⟨rfl, hs'⟩
  | @growBy _ step a a' c c' _ _ result h hc hrest ih ihrest =>
    obtain ⟨s', hstep, hs'⟩ : ∃ s', step a s = .ok (some a', s') ∧ _ := (ih hs hrounds).of_ok
    have hfewer := hs'.length_lt hs hc
    obtain ⟨rounds, rfl⟩ : ∃ k, rounds = k + 1 := ⟨rounds - 1, by omega⟩
    have hshows := ihrest hs' (show s'.ahead.length ≤ rounds by omega)
    rw [Job.parser] at hshows ⊢
    rwa [growBy_of_some hstep]
  | @growBy_error _ step a _ _ _ failure ht hkind _ ih =>
    have hstep : step a s = .error failure := (ih hs hrounds).of_error
    have hpos := hs.length_pos ht hend hkind
    obtain ⟨rounds, rfl⟩ : ∃ k, rounds = k + 1 := ⟨rounds - 1, by omega⟩
    have hgrow : Parser.growBy step (rounds + 1) a s = .error failure := bind_of_error hstep
    rw [Job.parser, hgrow]
    rfl

end Parser
end Scriptlet
