import Mathlib.Data.List.TakeWhile
import Mathlib.Tactic.Common
import Scriptlet.Parser

/-!
# What parsers take

A parser that gives a result has taken tokens from the front of its stream (`Stream.Takes`). All that
it can look at without taking is the next token.

Two judgements describe parsers in these terms. `Reads` looks back from a result: whatever the parser
gives, it has taken tokens that are in some relation to it. `Accepts` looks ahead: from certain
tokens, with a certain token behind them, the parser gives a certain result and takes exactly these
tokens. Both have a rule for each way to put parsers together. Repetition is where the bound of the
stream comes in: every round takes a token, so the rounds do not run out first.
-/

namespace Scriptlet

/-! ## Streams -/

namespace Stream

variable {s s' s'' : Stream} {ts ts' : List Token} {t next : Token}

/-- The first of some tokens, or the one behind them. -/
def first (ts : List Token) (next : Token) : Token := ts.headD next

@[simp] theorem first_nil : first [] next = next := rfl

@[simp] theorem first_cons : first (t :: ts) next = t := rfl

/-! ### The first end of input -/

section

variable {last : Token} {rest : List Token} (hts : ∀ t ∈ ts, t.kind ≠ .endOfInput)
  (hlast : last.kind = .endOfInput)

include hts hlast

theorem ahead_ofTokens : (Stream.ofTokens (ts ++ last :: rest)).ahead = ts :=
  (List.takeWhile_append_of_pos (by simpa using hts)).trans (by simp [hlast])

theorem last_ofTokens : (Stream.ofTokens (ts ++ last :: rest)).last = last := by
  have hfind : ts.find? (fun t => decide (t.kind = .endOfInput)) = none := by simpa using hts
  simp [Stream.ofTokens, List.find?_append, hfind, hlast]

end

/-! ### Taking tokens -/

/-- The tokens between two points of a stream. -/
structure Takes (s : Stream) (ts : List Token) (s' : Stream) : Prop where
  ahead : s.ahead = ts ++ s'.ahead
  last : s'.last = s.last
  bound : s'.bound = s.bound

namespace Takes

theorem nil (s : Stream) : s.Takes [] s := ⟨rfl, rfl, rfl⟩

theorem trans (h : s.Takes ts s') (h' : s'.Takes ts' s'') : s.Takes (ts ++ ts') s'' :=
  ⟨by rw [h.ahead, h'.ahead, List.append_assoc], h'.last.trans h.last, h'.bound.trans h.bound⟩

theorem peek (h : s.Takes ts s') : s.peek = first ts s'.peek := by
  rw [Stream.peek, Stream.peek, h.ahead, h.last]
  cases ts <;> rfl

theorem eq_of_nil (h : s.Takes [] s') : s' = s := by
  obtain ⟨hahead, hlast, hbound⟩ := h
  cases s
  cases s'
  simp_all

/-- A point in between. -/
theorem split (h : s.Takes (ts ++ ts') s'') : ∃ s', s.Takes ts s' ∧ s'.Takes ts' s'' := by
  have hahead : s.ahead = ts ++ (ts' ++ s''.ahead) := by rw [h.ahead, List.append_assoc]
  have hfits : (ts' ++ s''.ahead).length ≤ s.bound := by
    have hbound := s.fits
    rw [hahead, List.length_append] at hbound
    exact Nat.le_trans (Nat.le_add_left _ _) hbound
  exact ⟨⟨ts' ++ s''.ahead, s.last, s.bound, hfits⟩, ⟨hahead, rfl, rfl⟩, rfl, h.last, h.bound⟩

theorem advance (hne : s.ahead ≠ []) : s.Takes [s.peek] s.advance := by
  refine ⟨?_, rfl, rfl⟩
  cases hahead : s.ahead with
  | nil => exact absurd hahead hne
  | cons t ts => simp [Stream.advance, Stream.peek, hahead]

/-- One token is taken by advancing. -/
theorem eq_advance (h : s.Takes [t] s') : s.peek = t ∧ s' = s.advance := by
  have hne : s.ahead ≠ [] := by simp [h.ahead]
  have hpeek : s.peek = t := h.peek
  refine ⟨hpeek, eq_of_nil ⟨?_, h.last, h.bound⟩⟩
  have hahead := (advance hne).ahead
  rw [h.ahead, hpeek] at hahead
  exact (List.cons.inj hahead).2.symm

theorem length_le (h : s.Takes ts s') : s'.ahead.length + ts.length = s.ahead.length := by
  rw [h.ahead, List.length_append, Nat.add_comm]

/-- All tokens before the first end of input. -/
theorem ofTokens {last : Token} {rest : List Token} (hts : ∀ t ∈ ts, t.kind ≠ .endOfInput)
    (hlast : last.kind = .endOfInput) :
    ∃ s', (Stream.ofTokens (ts ++ last :: rest)).Takes ts s' ∧ s'.peek = last ∧
      (Stream.ofTokens (ts ++ last :: rest)).bound = ts.length := by
  have hahead : (Stream.ofTokens (ts ++ last :: rest)).ahead = ts := ahead_ofTokens hts hlast
  have hbound : (Stream.ofTokens (ts ++ last :: rest)).bound = ts.length :=
    congrArg List.length hahead
  exact ⟨⟨[], last, ts.length, Nat.zero_le _⟩,
    ⟨by rw [hahead, List.append_nil], (last_ofTokens hts hlast).symm, hbound.symm⟩, rfl, hbound⟩

end Takes

/-- A stream that ends where the input does. -/
structure Ended (s : Stream) : Prop where
  last : s.last.kind = .endOfInput
  ahead : ∀ t ∈ s.ahead, t.kind ≠ .endOfInput

namespace Ended

theorem of_takes (h : s.Ended) (htakes : s.Takes ts s') : s'.Ended := by
  refine ⟨htakes.last ▸ h.last, fun t ht => h.ahead t ?_⟩
  rw [htakes.ahead]
  exact List.mem_append_right _ ht

theorem ahead_ne_nil (h : s.Ended) (hpeek : s.peek.kind ≠ .endOfInput) : s.ahead ≠ [] := by
  intro hnil
  exact hpeek (by simpa [Stream.peek, hnil] using h.last)

theorem ahead_eq_nil (h : s.Ended) (hpeek : s.peek.kind = .endOfInput) : s.ahead = [] := by
  cases hahead : s.ahead with
  | nil => rfl
  | cons t ts =>
    exact absurd (by simpa [Stream.peek, hahead] using hpeek) (h.ahead t (by simp [hahead]))

theorem ofTokens (tokens : List Token) : (Stream.ofTokens tokens).Ended := by
  refine ⟨?_, fun t ht => by simpa using List.mem_takeWhile_imp ht⟩
  rw [Stream.ofTokens]
  cases hfind : tokens.find? fun t => decide (t.kind = .endOfInput) with
  | none => rfl
  | some t => simpa using List.find?_some hfind

end Ended

end Stream

namespace Parser

variable {α β : Type} {p : Parser α} {f : α → Parser β} {s s' s'' : Stream} {a : α} {b : β}
  {next t : Token} {ts ts' : List Token} {kind : TokenKind} {what : Expectation}

/-! ## Running parsers -/

theorem bind_of_ok (h : p s = .ok (a, s')) : (p >>= f) s = f a s' := by
  change Except.bind (p s) _ = _
  rw [h]
  rfl

theorem bind_of_error {failure : Failure} (h : p s = .error failure) :
    (p >>= f) s = .error failure := by
  change Except.bind (p s) _ = _
  rw [h]
  rfl

theorem ok_of_bind (h : (p >>= f) s = .ok (b, s'')) :
    ∃ a s', p s = .ok (a, s') ∧ f a s' = .ok (b, s'') := by
  cases hp : p s with
  | error e =>
    change Except.bind (p s) _ = _ at h
    rw [hp] at h
    cases h
  | ok found => exact ⟨found.1, found.2, rfl, (bind_of_ok hp).symm.trans h⟩

theorem accept_apply (kind : TokenKind) (s : Stream) :
    accept kind s = if s.peek.kind = kind then .ok (true, s.advance) else .ok (false, s) := by
  have hget : accept kind s = (if s.peek.kind = kind then do
      let _ ← advance
      return true
    else return false : Parser Bool) s := rfl
  rw [hget]
  split <;> rfl

theorem expect_apply (kind : TokenKind) (what : Expectation) (s : Stream) :
    expect kind what s =
      if s.peek.kind = kind then .ok (s.peek, s.advance) else expected what s := by
  have hget : expect kind what s =
      (if s.peek.kind = kind then advance else expected what : Parser Token) s := rfl
  rw [hget]
  split <;> rfl

/-- What repeating a step gives. -/
theorem collect_of_none {step : Parser (Option α)} (h : step s = .ok (none, s')) (rounds : Nat) :
    collect step (rounds + 1) s = .ok ([], s') := (bind_of_ok h).trans rfl

theorem collect_of_some {step : Parser (Option α)} (h : step s = .ok (some a, s')) (rounds : Nat) :
    collect step (rounds + 1) s = (collect step rounds s').map fun found => (a :: found.1, found.2) := by
  refine (bind_of_ok h).trans ?_
  cases hrest : collect step rounds s' with
  | error failure => exact bind_of_error hrest
  | ok found => exact (bind_of_ok hrest).trans rfl

theorem growBy_of_none {step : α → Parser (Option α)} (h : step a s = .ok (none, s'))
    (rounds : Nat) : growBy step (rounds + 1) a s = .ok (a, s') := (bind_of_ok h).trans rfl

theorem growBy_of_some {a' : α} {step : α → Parser (Option α)} (h : step a s = .ok (some a', s'))
    (rounds : Nat) : growBy step (rounds + 1) a s = growBy step rounds a' s' := bind_of_ok h

/-! ## Looking back -/

/-- Whatever a parser gives from streams with a certain next token, it has taken tokens in a certain
relation to it and to the token behind them. -/
def Reads (next : Token) (p : Parser α) (R : List Token → α → Token → Prop) : Prop :=
  ∀ s a s', s.Ended → s.peek = next → p s = .ok (a, s') → ∃ ts, s.Takes ts s' ∧ R ts a s'.peek

namespace Reads

variable {R R' : List Token → α → Token → Prop} {S : List Token → β → Token → Prop}

theorem mono (h : Reads next p R) (himp : ∀ ts a t, R ts a t → R' ts a t) : Reads next p R' := by
  intro s a s' hended hpeek hp
  obtain ⟨ts, htakes, hR⟩ := h s a s' hended hpeek hp
  exact ⟨ts, htakes, himp _ _ _ hR⟩

theorem first (h : Reads next p R) :
    Reads next p fun ts a t => Stream.first ts t = next ∧ R ts a t := by
  intro s a s' hended hpeek hp
  obtain ⟨ts, htakes, hR⟩ := h s a s' hended hpeek hp
  exact ⟨ts, htakes, htakes.peek.symm.trans hpeek, hR⟩

theorem pure (h : R [] a next) : Reads next (Pure.pure a) R := by
  intro s b s' _ hpeek hp
  cases hp
  exact ⟨[], .nil s, hpeek ▸ h⟩

theorem throw {failure : Failure} : Reads next (MonadExcept.throw failure) R :=
  fun _ _ _ _ _ hp => by cases hp

theorem unexpected : Reads next (Parser.unexpected : Parser α) R := fun _ _ _ _ _ hp => by cases hp

theorem expected : Reads next (Parser.expected what : Parser α) R := fun _ _ _ _ _ hp => by cases hp

theorem bind (hp : Reads next p R)
    (hf : ∀ ts a t, R ts a t → Reads t (f a) fun rest b t' => S (ts ++ rest) b t') :
    Reads next (p >>= f) S := by
  intro s b s'' hended hpeek h
  obtain ⟨a, s', hps, hfs⟩ := ok_of_bind h
  obtain ⟨ts, htakes, hR⟩ := hp s a s' hended hpeek hps
  obtain ⟨rest, htakes', hS⟩ := hf ts a _ hR s' b s'' (hended.of_takes htakes) rfl hfs
  exact ⟨ts ++ rest, htakes.trans htakes', hS⟩

theorem map {g : α → β} (hp : Reads next p fun ts a t => S ts (g a) t) : Reads next (g <$> p) S := by
  rw [map_eq_pure_bind]
  exact hp.bind fun ts a t hS => pure (by simpa using hS)

/-! ### Tokens -/

theorem peek {f : Token → Parser β} (hf : Reads next (f next) S) :
    Reads next (Parser.peek >>= f) S := by
  intro s b s' hended hpeek h
  have hget : (Parser.peek >>= f) s = f s.peek s := rfl
  rw [hget, hpeek] at h
  exact hf s b s' hended hpeek h

theorem advance {f : Token → Parser β} (hnext : next.kind ≠ .endOfInput)
    (hf : ∀ t, Reads t (f next) fun rest b t' => S (next :: rest) b t') :
    Reads next (Parser.advance >>= f) S := by
  intro s b s' hended hpeek h
  have hget : (Parser.advance >>= f) s = f s.peek s.advance := rfl
  rw [hget, hpeek] at h
  have htakes := Stream.Takes.advance (hended.ahead_ne_nil (hpeek ▸ hnext))
  rw [hpeek] at htakes
  obtain ⟨rest, htakes', hS⟩ := hf _ _ b s' (hended.of_takes htakes) rfl h
  exact ⟨next :: rest, htakes.trans htakes', hS⟩

theorem accept {f : Bool → Parser β} (hkind : kind ≠ .endOfInput)
    (hyes : next.kind = kind → ∀ t, Reads t (f true) fun rest b t' => S (next :: rest) b t')
    (hno : next.kind ≠ kind → Reads next (f false) S) : Reads next (Parser.accept kind >>= f) S := by
  intro s b s' hended hpeek h
  obtain ⟨found, s₁, haccept, hf⟩ := ok_of_bind h
  rw [accept_apply, hpeek] at haccept
  split at haccept
  · rename_i hnext
    cases haccept
    have hne : next.kind ≠ .endOfInput := hnext ▸ hkind
    exact advance (f := fun _ => f true) hne (hyes hnext) s b s' hended hpeek hf
  · rename_i hnext
    cases haccept
    exact hno hnext s b s' hended hpeek hf

theorem expect {f : Token → Parser β} (hkind : kind ≠ .endOfInput)
    (hf : next.kind = kind → ∀ t, Reads t (f next) fun rest b t' => S (next :: rest) b t') :
    Reads next (Parser.expect kind what >>= f) S := by
  intro s b s' hended hpeek h
  obtain ⟨found, s₁, hexpect, hfs⟩ := ok_of_bind h
  rw [expect_apply, hpeek] at hexpect
  split at hexpect
  · rename_i hnext
    cases hexpect
    have hne : next.kind ≠ .endOfInput := hnext ▸ hkind
    refine advance hne (hf hnext) s b s' hended hpeek ?_
    rw [← hfs, ← hpeek]
    rfl
  · cases hexpect

/-! ### Repetition -/

/-- Items are collected up to a token where there is none. Each item has tokens, so the rounds do not
run out. -/
theorem many {step : Parser (Option α)} {L : Token → List Token → List α → Prop}
    {E : Token → Prop}
    (hstep : ∀ t, Reads t step fun ts o t' =>
      match o with
      | none => ts = [] ∧ E t ∧ L t [] []
      | some a => ts ≠ [] ∧ ∀ rest as, L t' rest as → L t (ts ++ rest) (a :: as))
    (hend : ∀ t, t.kind = .endOfInput → E t ∧ L t [] []) :
    Reads next (Parser.many step) fun ts as t' => L next ts as ∧ E t' := by
  have hcollect : ∀ rounds s as s', s.Ended → s.ahead.length ≤ rounds →
      collect step rounds s = .ok (as, s') →
        ∃ ts, s.Takes ts s' ∧ L s.peek ts as ∧ E s'.peek := by
    intro rounds
    induction rounds with
    | zero =>
      intro s as s' hended hrounds h
      have hnil : s.ahead = [] := List.length_eq_zero_iff.mp (Nat.le_zero.mp hrounds)
      have hpeek : s.peek.kind = .endOfInput := by simpa [Stream.peek, hnil] using hended.last
      cases h
      exact ⟨[], .nil s, (hend _ hpeek).2, (hend _ hpeek).1⟩
    | succ rounds ih =>
      intro s as s' hended hrounds h
      obtain ⟨o, s₁, ho, hrest⟩ := ok_of_bind h
      obtain ⟨ts, htakes, hspec⟩ := hstep _ s o s₁ hended rfl ho
      cases o with
      | none =>
        cases hrest
        obtain ⟨rfl, hstop, hL⟩ := hspec
        obtain rfl := htakes.eq_of_nil
        exact ⟨[], htakes, hL, hstop⟩
      | some a =>
        obtain ⟨hne, hcons⟩ := hspec
        obtain ⟨as', s₂, hcollect, hpure⟩ := ok_of_bind hrest
        cases hpure
        have hlength := htakes.length_le
        have hpos := List.length_pos_iff.mpr hne
        obtain ⟨rest, htakes', hL, hstop⟩ :=
          ih s₁ as' _ (hended.of_takes htakes) (by omega) hcollect
        exact ⟨ts ++ rest, htakes.trans htakes', hcons rest as' hL, hstop⟩
  intro s as s' hended hpeek h
  obtain ⟨ts, htakes, hL, hstop⟩ := hcollect s.bound s as s' hended s.fits h
  exact ⟨ts, htakes, hpeek ▸ hL, hstop⟩

/-- What holds of a result and the tokens before it, each step carries on. -/
theorem grow {step : α → Parser (Option α)} {I : List Token → α → Prop}
    (hstep : ∀ a t, Reads t (step a) fun ts o _ =>
      o.elim (ts = []) fun a' => ∀ before, I before a → I (before ++ ts) a') :
    Reads next (Parser.grow step a) fun ts a' _ => ∀ before, I before a → I (before ++ ts) a' := by
  have hgrow : ∀ rounds a s a' s', s.Ended → growBy step rounds a s = .ok (a', s') →
      ∃ ts, s.Takes ts s' ∧ ∀ before, I before a → I (before ++ ts) a' := by
    intro rounds
    induction rounds with
    | zero =>
      intro a s a' s' _ h
      cases h
      exact ⟨[], .nil s, fun before hI => by simpa using hI⟩
    | succ rounds ih =>
      intro a s a' s' hended h
      obtain ⟨o, s₁, ho, hrest⟩ := ok_of_bind h
      obtain ⟨ts, htakes, hspec⟩ := hstep a _ s o s₁ hended rfl ho
      cases o with
      | none =>
        cases hrest
        obtain rfl : ts = [] := hspec
        exact ⟨[], htakes, fun before hI => by simpa using hI⟩
      | some b =>
        obtain ⟨rest, htakes', hI'⟩ := ih b s₁ a' s' (hended.of_takes htakes) hrest
        refine ⟨ts ++ rest, htakes.trans htakes', fun before hI => ?_⟩
        rw [← List.append_assoc]
        exact hI' _ (hspec before hI)
  intro s a' s' hended _ h
  exact hgrow s.bound a s a' s' hended h

/-- Items with commas between. -/
theorem separated {item : Parser α} {D : List Token → α → Prop} {L : List Token → List α → Prop}
    (hitem : ∀ t, Reads t item fun ts a _ => D ts a) (hone : ∀ ts a, D ts a → L ts [a])
    (hmore : ∀ ts a comma ts' b as, D ts a → comma.kind = .comma → L ts' (b :: as) →
      L (ts ++ comma :: ts') (a :: b :: as)) :
    Reads next (Parser.separated item) fun ts as _ => L ts as := by
  have hothers : ∀ t, Reads t (Parser.many do
      if ← Parser.accept .comma then return some (← item) else return none)
      fun ts as _ => ∀ before a, D before a → L (before ++ ts) (a :: as) := by
    intro t
    refine (many (L := fun _ ts as => ∀ before a, D before a → L (before ++ ts) (a :: as))
      (E := fun _ => True) (fun t => accept (by decide) (fun hcomma t' => ?_) fun _ => ?_)
      fun t _ => ?_).mono fun ts as t' h => h.1
    · refine (hitem t').bind fun ts b _ hb => pure ⟨by simp, fun rest as hrest before a ha => ?_⟩
      simpa using hmore before a t (ts ++ rest) b as ha hcomma (hrest ts b hb)
    · exact pure ⟨rfl, trivial, fun before a ha => by simpa using hone before a ha⟩
    · exact ⟨trivial, fun before a ha => by simpa using hone before a ha⟩
  refine (hitem next).bind fun ts a t ha => (hothers t).bind fun ts' as _ h => pure ?_
  simpa using h ts a ha

/-- Items up to a closing token. -/
theorem upTo {close : TokenKind} {item : Parser α} {L : Token → List Token → List α → Prop}
    (hitem : ∀ t, t.kind ≠ close → Reads t item fun ts a t' =>
      ts ≠ [] ∧ ∀ rest as, L t' rest as → L t (ts ++ rest) (a :: as))
    (hnil : ∀ t, t.kind = close ∨ t.kind = .endOfInput → L t [] []) :
    Reads next (Parser.upTo close item) fun ts as t' =>
      L next ts as ∧ (t'.kind = close ∨ t'.kind = .endOfInput) := by
  refine many (fun t => peek ?_) fun t ht => ⟨.inr ht, hnil t (.inr ht)⟩
  dsimp only
  split
  · rename_i hstop
    exact pure ⟨rfl, hstop, hnil t hstop⟩
  · rename_i hstop
    exact (hitem t fun h => hstop (.inl h)).bind fun ts a t' h => pure (by simpa using h)

end Reads

/-! ## Looking ahead -/

/-- From tokens with a certain token behind them, a parser gives a result and takes just these
tokens. -/
def Accepts (p : Parser α) (ts : List Token) (a : α) (next : Token) : Prop :=
  ∀ s s', s.Takes ts s' → s'.peek = next → p s = .ok (a, s')

/-- The same of the repetition of a step, with at least as many rounds as there are tokens. -/
def Collects (step : Parser (Option α)) (ts : List Token) (as : List α) (next : Token) : Prop :=
  ∀ rounds s s', s.Takes ts s' → s'.peek = next → s.ahead.length ≤ rounds →
    collect step rounds s = .ok (as, s')

/-- From tokens with a certain token behind them, a parser comes to a result that it goes on to
extend, with at least as many rounds as there are tokens left. -/
def Enters (p : Parser α) (step : α → Parser (Option α)) (ts : List Token) (a : α) (next : Token) :
    Prop :=
  ∀ s s', s.Takes ts s' → s'.peek = next →
    ∃ rounds, s'.ahead.length ≤ rounds ∧ p s = growBy step rounds a s'

namespace Accepts

theorem pure (a : α) (next : Token) : Accepts (Pure.pure a) [] a next := by
  intro s s' htakes _
  rw [htakes.eq_of_nil]
  rfl

theorem bind (hp : Accepts p ts a (Stream.first ts' next)) (hf : Accepts (f a) ts' b next) :
    Accepts (p >>= f) (ts ++ ts') b next := by
  intro s s'' htakes hnext
  obtain ⟨s', hts, hts'⟩ := htakes.split
  have hpeek : s'.peek = Stream.first ts' next := hnext ▸ hts'.peek
  rw [bind_of_ok (hp s s' hts hpeek)]
  exact hf s' s'' hts' hnext

/-- What follows takes nothing more. -/
theorem bind_last (hp : Accepts p ts a next) (hf : Accepts (f a) [] b next) :
    Accepts (p >>= f) ts b next := by
  rw [← List.append_nil ts]
  exact bind hp hf

theorem map {g : α → β} (hp : Accepts p ts a next) : Accepts (g <$> p) ts (g a) next := by
  rw [map_eq_pure_bind]
  exact hp.bind_last (pure (g a) next)

/-! ### Tokens -/

theorem peek {f : Token → Parser β} (hf : Accepts (f (Stream.first ts next)) ts b next) :
    Accepts (Parser.peek >>= f) ts b next := by
  intro s s' htakes hnext
  have hget : (Parser.peek >>= f) s = f s.peek s := rfl
  rw [hget, htakes.peek, hnext]
  exact hf s s' htakes hnext

theorem advance {f : Token → Parser β} (hf : Accepts (f t) ts b next) :
    Accepts (Parser.advance >>= f) (t :: ts) b next := by
  intro s s'' htakes hnext
  obtain ⟨s', ht, hts⟩ := (List.singleton_append ▸ htakes : s.Takes ([t] ++ ts) s'').split
  obtain ⟨hpeek, rfl⟩ := ht.eq_advance
  have hget : (Parser.advance >>= f) s = f s.peek s.advance := rfl
  rw [hget, hpeek]
  exact hf _ s'' hts hnext

theorem accept {f : Bool → Parser β} (ht : t.kind = kind) (hf : Accepts (f true) ts b next) :
    Accepts (Parser.accept kind >>= f) (t :: ts) b next := by
  intro s s' htakes hnext
  have hpeek : s.peek = t := htakes.peek
  rw [bind_of_ok (show Parser.accept kind s = .ok (true, s.advance) by
    rw [accept_apply, hpeek, if_pos ht])]
  exact advance (f := fun _ => f true) hf s s' htakes hnext

theorem reject {f : Bool → Parser β} (ht : (Stream.first ts next).kind ≠ kind)
    (hf : Accepts (f false) ts b next) : Accepts (Parser.accept kind >>= f) ts b next := by
  intro s s' htakes hnext
  rw [bind_of_ok (show Parser.accept kind s = .ok (false, s) by
    rw [accept_apply, htakes.peek, hnext, if_neg ht])]
  exact hf s s' htakes hnext

theorem expect {f : Token → Parser β} (ht : t.kind = kind) (hf : Accepts (f t) ts b next) :
    Accepts (Parser.expect kind what >>= f) (t :: ts) b next := by
  intro s s' htakes hnext
  have hpeek : s.peek = t := htakes.peek
  rw [bind_of_ok (show Parser.expect kind what s = .ok (t, s.advance) by
    rw [expect_apply, hpeek, if_pos ht])]
  exact advance (f := fun _ => f t) hf s s' htakes hnext

end Accepts

/-! ### Repetition -/

namespace Collects

variable {step : Parser (Option α)} {as : List α}

theorem nil (hstep : Accepts step [] none next) : Collects step [] [] next := by
  intro rounds s s' htakes hnext _
  cases rounds with
  | zero =>
    rw [htakes.eq_of_nil]
    rfl
  | succ rounds =>
    have hs : step s = .ok (none, s') := hstep s s' htakes hnext
    exact (bind_of_ok hs).trans rfl

theorem cons (hstep : Accepts step ts (some a) (Stream.first ts' next)) (hne : ts ≠ [])
    (hrest : Collects step ts' as next) : Collects step (ts ++ ts') (a :: as) next := by
  intro rounds s s'' htakes hnext hrounds
  obtain ⟨s', hts, hts'⟩ := htakes.split
  have hlength := hts.length_le
  have hpos := List.length_pos_iff.mpr hne
  obtain ⟨rounds, rfl⟩ : ∃ n, rounds = n + 1 := ⟨rounds - 1, by omega⟩
  have hs : step s = .ok (some a, s') := hstep s s' hts (hnext ▸ hts'.peek)
  have hcollect : collect step rounds s' = .ok (as, s'') :=
    hrest rounds s' s'' hts' hnext (by omega)
  exact (bind_of_ok hs).trans ((bind_of_ok hcollect).trans rfl)

theorem many (h : Collects step ts as next) : Accepts (Parser.many step) ts as next :=
  fun s s' htakes hnext => h s.bound s s' htakes hnext s.fits

end Collects

namespace Enters

variable {step : α → Parser (Option α)} {a' : α}

/-- A parser that begins with a result and then extends it. -/
theorem start (hp : Accepts p ts a next) : Enters (p >>= Parser.grow step) step ts a next := by
  intro s s' htakes hnext
  exact ⟨s'.bound, s'.fits, bind_of_ok (hp s s' htakes hnext)⟩

theorem extend (h : Enters p step ts a (Stream.first ts' next)) (hne : ts' ≠ [])
    (hstep : Accepts (step a) ts' (some a') next) : Enters p step (ts ++ ts') a' next := by
  intro s s'' htakes hnext
  obtain ⟨s', hts, hts'⟩ := htakes.split
  obtain ⟨rounds, hrounds, hp⟩ := h s s' hts (hnext ▸ hts'.peek)
  have hlength := hts'.length_le
  have hpos := List.length_pos_iff.mpr hne
  obtain ⟨rounds, rfl⟩ : ∃ n, rounds = n + 1 := ⟨rounds - 1, by omega⟩
  exact ⟨rounds, by omega, hp.trans (bind_of_ok (hstep s' s'' hts' hnext))⟩

/-- A parser of results that are not extended. -/
theorem of_accepts (hp : Accepts p ts a next) (hstep : Accepts (step a) [] none next) :
    Enters p step ts a next := by
  intro s s' htakes hnext
  refine ⟨s'.ahead.length, Nat.le_refl _, (hp s s' htakes hnext).trans ?_⟩
  cases s'.ahead.length with
  | zero => rfl
  | succ rounds =>
    have hrun : growBy step (rounds + 1) a s' = .ok (a, s') :=
      (bind_of_ok (hstep s' s' (.nil s') hnext)).trans rfl
    exact hrun.symm

theorem stop (h : Enters p step ts a next) (hstep : Accepts (step a) [] none next) :
    Accepts p ts a next := by
  intro s s' htakes hnext
  obtain ⟨rounds, -, hp⟩ := h s s' htakes hnext
  rw [hp]
  cases rounds with
  | zero => rfl
  | succ rounds => exact (bind_of_ok (hstep s' s' (.nil s') hnext)).trans rfl

end Enters

/-! ### Rows of items -/

/-- Tokens are items with commas between, at least one. -/
inductive Rows (item : Parser α) (next : Token) : List Token → List α → Prop where
  | one {ts : List Token} {a : α} (ha : Accepts item ts a next) : Rows item next ts [a]
  | more {ts ts' : List Token} {comma : Token} {a : α} {as : List α} (ha : Accepts item ts a comma)
    (hcomma : comma.kind = .comma) (has : Rows item next ts' as) :
    Rows item next (ts ++ comma :: ts') (a :: as)

theorem Rows.accepts {item : Parser α} {as : List α} (h : Rows item next ts as)
    (hnext : next.kind ≠ .comma) : Accepts (separated item) ts as next := by
  -- A row is its first item and then more, each with a comma before it.
  have hrow : ∃ first others a as', ts = first ++ others ∧ as = a :: as' ∧
      Accepts item first a (Stream.first others next) ∧ Collects (do
        if ← accept .comma then return some (← item) else return none) others as' next := by
    induction h with
    | @one ts a ha =>
      exact ⟨ts, [], a, [], (List.append_nil ts).symm, rfl, ha, .nil (.reject hnext (.pure _ _))⟩
    | @more ts ts' comma a as ha hcomma _ ih =>
      obtain ⟨first, others, b, bs, rfl, rfl, hb, hbs⟩ := ih
      refine ⟨ts, comma :: first ++ others, a, b :: bs, rfl, rfl, ha, .cons ?_ (by simp) hbs⟩
      refine .accept hcomma ?_
      rw [if_pos rfl]
      exact hb.bind_last (.pure _ _)
  obtain ⟨first, others, a, as', rfl, rfl, ha, has⟩ := hrow
  exact ha.bind (has.many.bind_last (.pure _ _))

/-- Tokens are items that stand behind each other up to a closing token. -/
inductive Lists (close : TokenKind) (item : Parser α) (next : Token) : List Token → List α → Prop
  where
  | nil : Lists close item next [] []
  | cons {ts ts' : List Token} {a : α} {as : List α}
    (ha : Accepts item ts a (Stream.first ts' next)) (hne : ts ≠ [])
    (hclose : (Stream.first ts next).kind ≠ close)
    (hend : (Stream.first ts next).kind ≠ .endOfInput) (has : Lists close item next ts' as) :
    Lists close item next (ts ++ ts') (a :: as)

theorem Lists.accepts {close : TokenKind} {item : Parser α} {as : List α}
    (h : Lists close item next ts as) (hnext : next.kind = close) :
    Accepts (upTo close item) ts as next := by
  refine Collects.many ?_
  induction h with
  | nil =>
    refine .nil (.peek ?_)
    simp only [Stream.first_nil, hnext, true_or, if_true]
    exact .pure _ _
  | @cons ts ts' a as ha hne hclose hend _ ih =>
    refine .cons (.peek ?_) hne ih
    obtain ⟨t, rest, rfl⟩ := List.exists_cons_of_ne_nil hne
    simp only [Stream.first_cons] at hclose hend ⊢
    simp only [hclose, hend, or_self, if_false]
    exact ha.bind_last (.pure _ _)

end Parser

end Scriptlet
