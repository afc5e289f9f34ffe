import Scriptlet.Proofs.Parser.Cursor
import Scriptlet.Proofs.Parser.Pairs

/-!
# Parsers that come to an end

A parser may be one of a family: the readers of expressions and statements are told how deep they may
nest. The judgement `Halts` says that wherever fewer than `n` tokens are ahead, all parsers of a family
have one and the same run, and if the run comes to a result, it has taken so many tokens. It has a rule
for each way to put parsers together. What comes behind a token has fewer tokens ahead; that is what
bounds nesting, and repetition as well (`Halts.many`, `Halts.grow`).
-/

namespace Scriptlet

namespace Parser

/-- The tokens up to the first end of input. -/
structure Input where
  tokens : List Token
  last : Token
  inside : ∀ t ∈ tokens, t.kind ≠ .endOfInput
  ends : last.kind = .endOfInput

namespace Input

variable {input : Input} {c : Nat} {t : Token}

/-- All of the tokens, the end of input included. -/
def all (input : Input) : List Token := input.tokens ++ [input.last]

/-- The place of the end of input. -/
def stop (input : Input) : Nat := input.tokens.length

theorem all_stop (input : Input) : input.all[input.stop]? = some input.last := by simp [all, stop]

theorem exists_token (hc : c ≤ input.stop) : ∃ t, input.all[c]? = some t := by
  have hlt : c < input.all.length := by simpa [all, stop, Nat.lt_succ_iff] using hc
  exact ⟨input.all[c], List.getElem?_eq_getElem hlt⟩

theorem lt_stop (hc : c ≤ input.stop) (ht : input.all[c]? = some t) (hkind : t.kind ≠ .endOfInput) :
    c < input.stop := by
  refine Nat.lt_of_le_of_ne hc ?_
  rintro rfl
  rw [all_stop] at ht
  cases ht
  exact hkind input.ends

theorem eq_stop (hc : c ≤ input.stop) (ht : input.all[c]? = some t) (hkind : t.kind = .endOfInput) :
    c = input.stop := by
  refine Nat.le_antisymm hc (Nat.le_of_not_lt fun hlt => ?_)
  rw [all, List.getElem?_append_left hlt] at ht
  exact input.inside t (List.mem_of_getElem? ht) hkind

end Input

variable {input : Input} {α β : Type} {c c' k n : Nat} {t : Token} {reads : List Nat}
  {p q : Nat → Parser α} {f : Nat → α → Parser β} {job : Nat → Job α} {taken taken' : α → Nat}
  {j : β → Nat} {kind : TokenKind} {what : Expectation}

/-! ## The judgement -/

/-- All jobs of a family have the same run, and have taken so many tokens if they come to a result. -/
def Comes (input : Input) (c : Nat) (taken : α → Nat) (job : Nat → Job α) : Prop :=
  ∃ reads result, (∀ i, Runs input.all (job i) c reads result) ∧
    ∀ found, result = .ok found → c + taken found.1 ≤ found.2

/-- All parsers of a family have the same run where fewer than `n` tokens are ahead and a certain one
comes next. -/
def HaltsAt (input : Input) (t : Token) (n : Nat) (taken : α → Nat) (p : Nat → Parser α) : Prop :=
  ∀ c ≤ input.stop, input.stop < c + n → input.all[c]? = some t →
    Comes input c taken fun i => .once (p i)

/-- All parsers of a family have the same run where fewer than `n` tokens are ahead. -/
def Halts (input : Input) (n : Nat) (taken : α → Nat) (p : Nat → Parser α) : Prop :=
  ∀ t, HaltsAt input t n taken p

namespace Comes

theorem mono (h : Comes input c taken job) (htaken : ∀ a, taken' a ≤ taken a) :
    Comes input c taken' job := by
  obtain ⟨reads, result, hruns, hfound⟩ := h
  exact ⟨reads, result, hruns, fun found hresult =>
    Nat.le_trans (Nat.add_le_add_left (htaken found.1) c) (hfound found hresult)⟩

/-- What comes behind a part that has come to a result. -/
theorem behind {a : α} (hp : ∀ i, Runs input.all (.once (p i)) c reads (.ok (a, c'))) (hc : c + k ≤ c')
    (hf : Comes input c' j fun i => .once (f i a)) :
    Comes input c (fun b => k + j b) fun i => .once (p i >>= f i) := by
  obtain ⟨reads', result, hruns, hfound⟩ := hf
  refine ⟨reads ++ reads', result, fun i => .bind (hp i) (hruns i), fun found hresult => ?_⟩
  have hle := hfound found hresult
  dsimp only
  omega

/-- What comes behind a look at a token. -/
theorem onward {a : α} (hp : ∀ i, Runs input.all (.once (p i)) c reads (.ok (a, c)))
    (hf : Comes input c j fun i => .once (f i a)) : Comes input c j fun i => .once (p i >>= f i) :=
  (behind (k := 0) hp (Nat.le_refl c) hf).mono fun _ => Nat.le_add_left _ 0

theorem bind (hc : c ≤ input.stop) (hp : Comes input c (fun _ => k) fun i => .once (p i))
    (hf : ∀ a c', c + k ≤ c' → c' ≤ input.stop → Comes input c' j fun i => .once (f i a)) :
    Comes input c (fun b => k + j b) fun i => .once (p i >>= f i) := by
  obtain ⟨reads, _ | ⟨a, c'⟩, hruns, hfound⟩ := hp
  · exact ⟨reads, _, fun i => .bind_error (hruns i), nofun⟩
  · have hwithin := ((hruns 0).within input.all_stop input.ends hc).2 _ rfl
    have hle := hfound _ rfl
    exact behind hruns hle (hf a c' hle hwithin.2)

end Comes

namespace HaltsAt

theorem mono (h : HaltsAt input t n taken p) (htaken : ∀ a, taken' a ≤ taken a) :
    HaltsAt input t n taken' p := fun c hc hn ht => (h c hc hn ht).mono htaken

theorem bind (hp : HaltsAt input t n (fun _ => 0) p) (hf : ∀ a, Halts input n j fun i => f i a) :
    HaltsAt input t n j fun i => p i >>= f i := by
  intro c hc hn ht
  refine ((hp c hc hn ht).bind hc fun a c' hle hc' => ?_).mono fun b => Nat.le_add_left _ 0
  obtain ⟨t', ht'⟩ := Input.exists_token hc'
  exact hf a t' c' hc' (by omega) ht'

/-- What comes behind a token has fewer tokens ahead. -/
theorem bind_taking (hp : HaltsAt input t (n + 1) (fun _ => 1) p)
    (hf : ∀ a, Halts input n (fun _ => 0) fun i => f i a) :
    HaltsAt input t (n + 1) (fun _ => 1) fun i => p i >>= f i := by
  intro c hc hn ht
  refine (hp c hc hn ht).bind hc (j := fun _ => 0) fun a c' hle hc' => ?_
  obtain ⟨t', ht'⟩ := Input.exists_token hc'
  exact hf a t' c' hc' (by omega) ht'

theorem advance {g : Nat → Token → Parser α} (hkind : t.kind ≠ .endOfInput)
    (hg : Halts input n (fun _ => 0) fun i => g i t) :
    HaltsAt input t (n + 1) (fun _ => 1) fun i => Parser.advance >>= g i := by
  intro c hc hn ht
  have hlt := Input.lt_stop hc ht hkind
  obtain ⟨t', ht'⟩ := Input.exists_token (Nat.succ_le_of_lt hlt)
  exact .behind (fun _ => .advance ht hkind) (Nat.le_refl _) (hg t' (c + 1) hlt (by omega) ht')

end HaltsAt

namespace Halts

theorem mono (h : Halts input n taken p) (htaken : ∀ a, taken' a ≤ taken a) :
    Halts input n taken' p := fun t => (h t).mono htaken

/-- Whatever was taken need not be known. -/
theorem free (h : Halts input n taken p) : Halts input n (fun _ => 0) p := h.mono fun _ => Nat.zero_le _

theorem of_le {n' : Nat} (h : Halts input n taken p) (hn : n' ≤ n) : Halts input n' taken p :=
  fun t c hc hlt ht => h t c hc (by omega) ht

/-- Nowhere are fewer than no tokens ahead. -/
theorem zero : Halts input 0 taken p := fun _ c hc hn _ => absurd hn (by omega)

theorem pure_of {a : α} (htaken : taken a = 0) : Halts input n taken fun _ => Pure.pure a := by
  refine fun t c hc hn ht => ⟨[], _, fun _ => .pure a c, ?_⟩
  rintro _ ⟨⟩
  exact Nat.le_of_eq (by rw [htaken, Nat.add_zero])

theorem pure {a : α} : Halts input n (fun _ => 0) fun _ => Pure.pure a := pure_of rfl

/-- A step that gives nothing. -/
theorem nothing : Halts input n progress fun _ => (Pure.pure none : Parser (Option α)) := pure_of rfl

theorem throw {failure : Failure} :
    Halts input n taken fun _ => (MonadExcept.throw failure : Parser α) :=
  fun _ c _ _ _ => ⟨[], _, fun _ => .throw failure c, nofun⟩

theorem unexpected : Halts input n taken fun _ => (Parser.unexpected : Parser α) :=
  fun _ c _ _ ht => ⟨[c], _, fun _ => .unexpected ht, nofun⟩

theorem expected : Halts input n taken fun _ => (Parser.expected what : Parser α) :=
  fun _ c _ _ ht => ⟨[c], _, fun _ => .expected what ht, nofun⟩

theorem bind (hp : Halts input n (fun _ => 0) p) (hf : ∀ a, Halts input n j fun i => f i a) :
    Halts input n j fun i => p i >>= f i := fun t => (hp t).bind hf

theorem bind_taking (hp : Halts input (n + 1) (fun _ => 1) p)
    (hf : ∀ a, Halts input n (fun _ => 0) fun i => f i a) :
    Halts input (n + 1) (fun _ => 1) fun i => p i >>= f i := fun t => (hp t).bind_taking hf

theorem map {g : α → β} (hp : Halts input n (fun _ => k) p) :
    Halts input n (fun _ => k) fun i => g <$> p i := by
  intro t c hc hn ht
  simp only [map_eq_pure_bind]
  refine (hp t c hc hn ht).bind hc (j := fun _ => 0) fun a c' _ hc' => ?_
  exact ⟨[], _, fun _ => .pure (g a) c', by rintro _ ⟨⟩; exact Nat.le_refl _⟩

/-- Looking at the next token. -/
theorem peek {g : Nat → Token → Parser α} (h : ∀ t, HaltsAt input t n taken fun i => g i t) :
    Halts input n taken fun i => Parser.peek >>= g i :=
  fun t c hc hn ht => .onward (fun _ => .peek ht) (h t c hc hn ht)

/-- A choice by whether a token follows, which is taken then. -/
theorem accepting_taking (hend : kind ≠ .endOfInput) (hyes : Halts input n (fun _ => 0) p)
    (htaken : ∀ a, taken a ≤ 1) (hno : Halts input (n + 1) taken q) :
    Halts input (n + 1) taken fun i => (do if ← Parser.accept kind then p i else q i) := by
  intro t c hc hn ht
  by_cases hkind : t.kind = kind
  · have hlt := Input.lt_stop hc ht (hkind ▸ hend)
    obtain ⟨t', ht'⟩ := Input.exists_token (Nat.succ_le_of_lt hlt)
    have hrest := hyes t' (c + 1) hlt (by omega) ht'
    exact (Comes.behind (fun _ => .accept ht hkind hend) (Nat.le_refl _) hrest).mono htaken
  · exact .onward (fun _ => .accept_other ht hkind) (hno t c hc hn ht)

/-- The same where nothing is known of what is taken. -/
theorem accepting (hend : kind ≠ .endOfInput) (hyes : Halts input n (fun _ => 0) p)
    (hno : Halts input n (fun _ => 0) q) :
    Halts input n (fun _ => 0) fun i => (do if ← Parser.accept kind then p i else q i) := by
  cases n with
  | zero => exact zero
  | succ n => exact accepting_taking hend (hyes.of_le (Nat.le_succ n)) (fun _ => Nat.zero_le 1) hno

theorem expect (hend : kind ≠ .endOfInput) :
    Halts input n (fun _ => 1) fun _ => Parser.expect kind what := by
  refine peek fun t => ?_
  split
  · rename_i hkind
    intro c hc hn ht
    refine ⟨[c], _, fun _ => .advance ht (hkind ▸ hend), ?_⟩
    rintro _ ⟨⟩
    exact Nat.le_refl _
  · exact expected t

/-! ### Repetition -/

/-- A run of a step that is idle at the end of input does not fail there. -/
theorem kind_ne_of_error {step : Parser (Option α)} (hidle : Idle step) (hc : c ≤ input.stop)
    (ht : input.all[c]? = some t) {failure : Failure}
    (h : Runs input.all (.once step) c reads (.error failure)) : t.kind ≠ .endOfInput := by
  intro hkind
  obtain rfl := Input.eq_stop hc ht hkind
  have hs : Stream.At input.tokens input.last input.stop ⟨[], input.last, 0, Nat.le_refl 0⟩ :=
    ⟨by simp [Input.stop], rfl, hc⟩
  have hstep := (h.shows input.ends hs (Nat.le_refl _)).of_error
  have hnone := hidle ⟨[], input.last, 0, Nat.le_refl 0⟩ ⟨input.ends, by simp⟩ rfl
  exact absurd (hstep.symm.trans hnone) (by simp)

/-- A round fails with tokens ahead, or gives something and takes a token, or gives nothing. -/
theorem exists_round {step : Nat → Parser (Option α)} (hstep : Halts input n progress step)
    (hidle : Idle (step 0)) (hc : c ≤ input.stop) (hn : input.stop < c + n) :
    ∃ reads, (∃ failure t, input.all[c]? = some t ∧ t.kind ≠ .endOfInput ∧
        ∀ i, Runs input.all (.once (step i)) c reads (.error failure)) ∨
      ∃ o c', c + progress o ≤ c' ∧ c' ≤ input.stop ∧
        ∀ i, Runs input.all (.once (step i)) c reads (.ok (o, c')) := by
  obtain ⟨t, ht⟩ := Input.exists_token hc
  obtain ⟨reads, failure | ⟨o, c'⟩, hruns, hfound⟩ := hstep t c hc hn ht
  · exact ⟨reads, .inl ⟨failure, t, ht, kind_ne_of_error hidle hc ht (hruns 0), hruns⟩⟩
  · have hwithin := ((hruns 0).within input.all_stop input.ends hc).2 _ rfl
    exact ⟨reads, .inr ⟨o, c', hfound _ rfl, hwithin.2, hruns⟩⟩

/-- Every round takes a token, so there is a last one. -/
theorem many {step : Nat → Parser (Option α)} (hstep : Halts input n progress step)
    (hidle : ∀ i, Idle (step i)) : Halts input n (fun _ => 0) fun i => Parser.many (step i) := by
  have hrounds : ∀ ahead c, c ≤ input.stop → input.stop < c + n → input.stop < c + ahead →
      Comes input c (fun _ => 0) fun i => .collecting (step i) := by
    intro ahead
    induction ahead with
    | zero => exact fun c hc _ hahead => absurd hahead (by omega)
    | succ ahead ih =>
      intro c hc hn hahead
      obtain ⟨reads, ⟨failure, t, ht, hkind, hruns⟩ | ⟨_ | a, c', hle, hc', hruns⟩⟩ :=
        hstep.exists_round (hidle 0) hc hn
      · exact ⟨c :: reads, _, fun i => .collect_error ht hkind (hruns i), nofun⟩
      · exact ⟨reads, _, fun i => .collected (hruns i), by rintro _ ⟨⟩; exact hle⟩
      · have hlt : c + 1 ≤ c' := hle
        obtain ⟨reads', result, hruns', hfound⟩ := ih c' hc' (by omega) (by omega)
        refine ⟨reads ++ reads', _, fun i => .collect (hruns i) hlt (hruns' i), ?_⟩
        rcases result with failure | ⟨as, last⟩
        · exact nofun
        · rintro _ ⟨⟩
          exact Nat.le_trans (Nat.le_of_succ_le hlt) (hfound (as, last) rfl)
  intro t c hc hn ht
  obtain ⟨reads, result, hruns, hfound⟩ := hrounds n c hc hn hn
  exact ⟨reads, result, fun i => .many (hruns i), hfound⟩

theorem grow {step : Nat → α → Parser (Option α)}
    (hstep : ∀ a, Halts input n progress fun i => step i a) (hidle : ∀ i a, Idle (step i a)) (a : α) :
    Halts input n (fun _ => 0) fun i => Parser.grow (step i) a := by
  have hrounds : ∀ ahead a c, c ≤ input.stop → input.stop < c + n → input.stop < c + ahead →
      Comes input c (fun _ => 0) fun i => .growing (step i) a := by
    intro ahead
    induction ahead with
    | zero => exact fun a c hc _ hahead => absurd hahead (by omega)
    | succ ahead ih =>
      intro a c hc hn hahead
      obtain ⟨reads, ⟨failure, t, ht, hkind, hruns⟩ | ⟨_ | a', c', hle, hc', hruns⟩⟩ :=
        (hstep a).exists_round (hidle 0 a) hc hn
      · exact ⟨c :: reads, _, fun i => .growBy_error ht hkind (hruns i), nofun⟩
      · exact ⟨reads, _, fun i => .grown (hruns i), by rintro _ ⟨⟩; exact hle⟩
      · have hlt : c + 1 ≤ c' := hle
        obtain ⟨reads', result, hruns', hfound⟩ := ih a' c' hc' (by omega) (by omega)
        exact ⟨reads ++ reads', _, fun i => .growBy (hruns i) hlt (hruns' i), fun found hresult =>
          Nat.le_trans (Nat.le_of_succ_le hlt) (hfound found hresult)⟩
  intro t c hc hn ht
  obtain ⟨reads, result, hruns, hfound⟩ := hrounds n a c hc hn hn
  exact ⟨reads, result, fun i => .grow (hruns i), hfound⟩

/-- Items with commas between. -/
theorem separated {item : Nat → Parser α} (hitem : Halts input n (fun _ => 1) item) :
    Halts input n (fun _ => 1) fun i => Parser.separated (item i) := by
  cases n with
  | zero => exact zero
  | succ n =>
    have hmore : Halts input (n + 1) progress fun i =>
        (do if ← Parser.accept .comma then return some (← item i) else return none) := by
      refine accepting_taking (by decide) ?_ progress_le nothing
      exact (hitem.of_le (Nat.le_succ n)).free.bind fun a => pure
    refine hitem.bind_taking fun a => ?_
    exact ((many hmore fun i => .accepting (by decide) _ .nothing).of_le (Nat.le_succ n)).bind
      fun as => pure

/-- Items up to a closing token. -/
theorem upTo {close : TokenKind} {item : Nat → Parser α} (hitem : Halts input n (fun _ => 1) item) :
    Halts input n (fun _ => 0) fun i => Parser.upTo close (item i) := by
  refine many (peek fun t => ?_) fun i => .peek fun t ht => if_pos (.inr ht)
  dsimp only
  split
  · exact nothing t
  · exact (hitem.map (g := some) t).mono progress_le

end Halts

end Parser
end Scriptlet
