import Scriptlet.Evaluation.Machine

/-!
# Running a computation in two states

`Together` compares two runs of one computation. Started in related states, both end with the same
result or both halt for the same reason, and the states they leave are related again. The rules
follow the ways of putting computations together; what reads or changes the state itself is compared
where it is defined.
-/

namespace Scriptlet

variable {ε σ α β : Type} {before before' : σ → σ → Prop} {after after' : α → σ → σ → Prop}
  {halted halted' : σ → σ → Prop} {x : EStateM ε σ α}

/-- Two runs of a computation from related states end alike, in related states. -/
def Together (before : σ → σ → Prop) (x : EStateM ε σ α) (after : α → σ → σ → Prop)
    (halted : σ → σ → Prop) : Prop :=
  ∀ m n, before m n →
    (∃ a m' n', x m = .ok a m' ∧ x n = .ok a n' ∧ after a m' n') ∨
      ∃ e m' n', x m = .error e m' ∧ x n = .error e n' ∧ halted m' n'

namespace Together

theorem mono (h : Together before x after halted) (hbefore : ∀ m n, before' m n → before m n)
    (hafter : ∀ a m n, after a m n → after' a m n) (hhalted : ∀ m n, halted m n → halted' m n) :
    Together before' x after' halted' := by
  intro m n hmn
  rcases h m n (hbefore m n hmn) with ⟨a, m', n', hm, hn, hrel⟩ | ⟨e, m', n', hm, hn, hrel⟩
  · exact .inl ⟨a, m', n', hm, hn, hafter a m' n' hrel⟩
  · exact .inr ⟨e, m', n', hm, hn, hhalted m' n' hrel⟩

theorem of_before (h : Together before x after halted) (hbefore : ∀ m n, before' m n → before m n) :
    Together before' x after halted :=
  h.mono hbefore (fun _ _ _ hrel => hrel) fun _ _ hrel => hrel

theorem of_after (h : Together before x after halted)
    (hafter : ∀ a m n, after a m n → after' a m n) : Together before x after' halted :=
  h.mono (fun _ _ hrel => hrel) hafter fun _ _ hrel => hrel

theorem pure {a : α} (h : ∀ m n, before m n → after a m n) :
    Together before (Pure.pure a : EStateM ε σ α) after halted :=
  fun m n hmn => .inl ⟨a, m, n, rfl, rfl, h m n hmn⟩

theorem throw {e : ε} (h : ∀ m n, before m n → halted m n) :
    Together before (MonadExcept.throw e : EStateM ε σ α) after halted :=
  fun m n hmn => .inr ⟨e, m, n, rfl, rfl, h m n hmn⟩

theorem bind {f : α → EStateM ε σ β} {final : β → σ → σ → Prop}
    (hx : Together before x after halted) (hf : ∀ a, Together (after a) (f a) final halted) :
    Together before (x >>= f) final halted := by
  intro m n hmn
  rcases hx m n hmn with ⟨a, m', n', hm, hn, hrel⟩ | ⟨e, m', n', hm, hn, hrel⟩
  · have hstep : ∀ s s', x s = .ok a s' → (x >>= f) s = f a s' := by
      intro s s' hs
      simp [Bind.bind, EStateM.bind, hs]
    rw [hstep m m' hm, hstep n n' hn]
    exact hf a m' n' hrel
  · refine .inr ⟨e, m', n', ?_, ?_, hrel⟩
    · simp [Bind.bind, EStateM.bind, hm]
    · simp [Bind.bind, EStateM.bind, hn]

theorem map {f : α → β} {final : β → σ → σ → Prop} (hx : Together before x after halted)
    (hf : ∀ a m n, after a m n → final (f a) m n) : Together before (f <$> x) final halted := by
  rw [map_eq_pure_bind]
  exact hx.bind fun a => .pure (hf a)

/-- A computation that looks only at what related states have in common. -/
theorem get {f : σ → EStateM ε σ α} (hsame : ∀ m n, before m n → f n = f m)
    (hf : ∀ s, Together before (f s) after halted) :
    Together before (MonadState.get >>= f) after halted := by
  intro m n hmn
  have hstep : ∀ s, (MonadState.get >>= f) s = f s s := fun _ => rfl
  rw [hstep, hstep, hsame m n hmn]
  exact hf m m n hmn

theorem modify {f : σ → σ} {after : Unit → σ → σ → Prop}
    (h : ∀ m n, before m n → after () (f m) (f n)) :
    Together before (modify f : EStateM ε σ Unit) after halted :=
  fun m n hmn => .inl ⟨(), f m, f n, rfl, rfl, h m n hmn⟩

end Together

end Scriptlet
