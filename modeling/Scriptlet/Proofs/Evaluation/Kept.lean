import Scriptlet.Proofs.Evaluation.Composed
import Scriptlet.Run

/-!
# Programs keep to their setting

Whatever code in a setting does, and whether it ends well or not, it leaves the machine in the setting
at the depth where it found it; and if it fails, the failure has a place of the code
(`Composed.keeps`). Faults arise in the steps,
which know no place; on the way out of every expression and every declaration they are given one.
-/

namespace Scriptlet

variable {α β : Type} {σ : Setting} {depth : Nat} {placed : Bool} {Q : α → Prop} {R : β → Prop}
  {x : Eval α} {f : α → Eval β} {m m' : Machine} {a : α} {halt : Halt}

/-! ## How computations end -/

namespace Eval

variable {span : Span} {failure : Failure} {scope : ScopeId} {v : Value} {body : Eval Value}

theorem bind_of_ok (h : x m = .ok a m') : (x >>= f) m = f a m' := by
  simp only [Bind.bind, EStateM.bind, h]

theorem bind_of_error (h : x m = .error halt m') : (x >>= f) m = .error halt m' := by
  simp only [Bind.bind, EStateM.bind, h]

theorem map_of_ok {g : α → β} (h : x m = .ok a m') : (g <$> x) m = .ok (g a) m' := by
  rw [map_eq_pure_bind]
  exact bind_of_ok h

theorem located_ok (h : x m = .ok a m') : located span x m = .ok a m' := by
  simp only [located, h]

theorem located_failure (h : x m = .error (.failure failure) m') :
    located span x m = .error (.failure (failure.orAt span)) m' := by
  simp only [located, h]

theorem located_outOfSteps (h : x m = .error .outOfSteps m') :
    located span x m = .error .outOfSteps m' := by
  simp only [located, h]

theorem orDrop_ok (h : x m = .ok a m') : orDrop scope x m = .ok a m' := by
  simp only [orDrop, h]

theorem orDrop_error (h : x m = .error halt m') :
    orDrop scope x m = .error halt (m'.withStore (m'.heap.store.erase scope)) := by
  simp only [orDrop, h]

/-- A machine on which a body starts to run. -/
def entered (m : Machine) (scope : ScopeId) : Machine :=
  { m with depth := m.depth + 1, owners := .scope scope :: m.owners }

theorem inBody_ok (h : body (entered m scope) = .ok v m') :
    inBody scope body m = .ok v ({ m' with owners := m.owners }.leave scope [v]) := by
  have hheld : holding [.scope scope] body { m with depth := m.depth + 1 } =
      .ok v { m' with owners := m.owners } := holding_ok h
  simp only [inBody, hheld]

theorem inBody_error (h : body (entered m scope) = .error halt m') :
    inBody scope body m = .error halt ({ m' with owners := m.owners }.leave scope []) := by
  have hheld : holding [.scope scope] body { m with depth := m.depth + 1 } =
      .error halt { m' with owners := m.owners } := holding_error h
  simp only [inBody, hheld]

end Eval

/-! ## Keeping to a setting -/

namespace Setting

/-- A machine whose store keeps to a setting, at a depth of calls. -/
structure Holds (σ : Setting) (depth : Nat) (m : Machine) : Prop where
  store : σ.Encloses m.heap.store
  depth : m.depth = depth
  limit : m.limit = σ.limit

theorem Holds.of_reduces (h : σ.Holds depth m) {store : Store}
    (hreduces : Store.Reduces store m.heap.store) : σ.Holds depth (m.withStore store) :=
  ⟨h.store.of_reduces hreduces, h.depth, h.limit⟩

theorem Holds.entered (h : σ.Holds depth m) (scope : ScopeId) :
    σ.Holds (depth + 1) (Eval.entered m scope) :=
  ⟨h.store, congrArg (· + 1) h.depth, h.limit⟩

theorem Holds.leave (h : σ.Holds (depth + 1) m) (scope : ScopeId) (result : List Value) :
    σ.Holds depth (m.leave scope result) :=
  ⟨h.store.of_reduces (Heap.reduces_release _ _ _ _), congrArg (· - 1) h.depth, h.limit⟩

/-- Reasons to halt: a failure at a place of the code, or one that need not have a place yet, or that
the steps ran out. -/
def Accepts (σ : Setting) (placed : Bool) : Halt → Prop
  | .failure ⟨_, none⟩ => placed = false
  | .failure ⟨_, some span⟩ => σ.place span
  | .outOfSteps => True

theorem Accepts.orAt {failure : Failure} {span : Span} (h : σ.Accepts placed (.failure failure))
    (hspan : σ.place span) : σ.Accepts true (.failure (failure.orAt span)) := by
  obtain ⟨fault, _ | place⟩ := failure
  · exact hspan
  · exact h

theorem Accepts.weaken {placed' : Bool} (h : σ.Accepts placed halt)
    (hplaced : placed' = true → placed = true) : σ.Accepts placed' halt := by
  obtain ⟨fault, _ | span⟩ | _ := halt
  · have hfalse : placed = false := h
    exact Bool.eq_false_iff.mpr fun htrue => by simp [hplaced htrue] at hfalse
  · exact h
  · trivial

/-- What a run may end with. -/
def Ends (σ : Setting) (depth : Nat) (placed : Bool) (Q : α → Prop) :
    EStateM.Result Halt Machine α → Prop
  | .ok a m => Q a ∧ σ.Holds depth m
  | .error halt m => σ.Accepts placed halt ∧ σ.Holds depth m

/-- Runs that start in a setting end as they may. -/
def Keeps (σ : Setting) (depth : Nat) (placed : Bool) (x : Eval α) (Q : α → Prop) : Prop :=
  ∀ m, σ.Holds depth m → σ.Ends depth placed Q (x m)

namespace Keeps

theorem bind (hx : σ.Keeps depth placed x Q) (hf : ∀ a, Q a → σ.Keeps depth placed (f a) R) :
    σ.Keeps depth placed (x >>= f) R := by
  intro m hm
  have hends := hx m hm
  cases h : x m with
  | ok a m' =>
    rw [h] at hends
    rw [Eval.bind_of_ok h]
    exact hf a hends.1 m' hends.2
  | error halt m' =>
    rw [h] at hends
    rw [Eval.bind_of_error h]
    exact hends

theorem pure (h : Q a) : σ.Keeps depth placed (Pure.pure a) Q := fun _ hm => ⟨h, hm⟩

theorem map {g : α → β} (h : σ.Keeps depth placed x Q) (hg : ∀ a, Q a → R (g a)) :
    σ.Keeps depth placed (g <$> x) R := by
  rw [map_eq_pure_bind]
  exact h.bind fun a ha => pure (hg a ha)

theorem outOfSteps : σ.Keeps depth placed (throw .outOfSteps) Q := fun _ hm =>
  ⟨trivial, hm⟩

theorem onStore {g : Store → Nat → Nat → Except Fault (α × Store)}
    (hg : ∀ store, σ.Encloses store →
      match g store depth σ.limit with
      | .ok (a, store) => Q a ∧ σ.Encloses store
      | .error _ => placed = false) : σ.Keeps depth placed (Eval.onStore g) Q := by
  intro m hm
  have hends := hg m.heap.store hm.store
  unfold Eval.onStore
  rw [hm.depth, hm.limit]
  cases hfound : g m.heap.store depth σ.limit with
  | ok found =>
    rw [hfound] at hends
    exact ⟨hends.1, hends.2, hm.depth, hm.limit⟩
  | error fault =>
    rw [hfound] at hends
    exact ⟨hends, hm⟩

theorem write (text : String) : σ.Keeps depth false (Eval.write text) fun _ => True := by
  intro m hm
  rw [Eval.write_apply]
  cases (m.console.write text).1 with
  | ok _ => exact ⟨trivial, hm.store, hm.depth, hm.limit⟩
  | error reason => exact ⟨rfl, hm.store, hm.depth, hm.limit⟩

theorem read : σ.Keeps depth false Eval.read σ.Admits := by
  intro m hm
  rw [Eval.read_apply]
  rcases m.console.read.1 with reason | (_ | line)
  · exact ⟨rfl, hm.store, hm.depth, hm.limit⟩
  · exact ⟨admits_of_plain rfl, hm.store, hm.depth, hm.limit⟩
  · exact ⟨admits_of_plain rfl, hm.store, hm.depth, hm.limit⟩

theorem located {span : Span} (hspan : σ.place span) (h : σ.Keeps depth false x Q) :
    σ.Keeps depth true (Eval.located span x) Q := by
  intro m hm
  have hends := h m hm
  rcases hx : x m with ⟨a, m'⟩ | ⟨failure | _, m'⟩ <;> rw [hx] at hends
  · rw [Eval.located_ok hx]
    exact hends
  · rw [Eval.located_failure hx]
    exact ⟨hends.1.orAt hspan, hends.2⟩
  · rw [Eval.located_outOfSteps hx]
    exact ⟨trivial, hends.2⟩

theorem holding (owners : List Owner) (h : σ.Keeps depth placed x Q) :
    σ.Keeps depth placed (Eval.holding owners x) Q := by
  intro m hm
  have hends := h { m with owners := owners ++ m.owners } ⟨hm.store, hm.depth, hm.limit⟩
  rcases hx : x { m with owners := owners ++ m.owners } with ⟨a, m'⟩ | ⟨halt, m'⟩ <;>
    rw [hx] at hends
  · rw [Eval.holding_ok hx]
    exact ⟨hends.1, hends.2.store, hends.2.depth, hends.2.limit⟩
  · rw [Eval.holding_error hx]
    exact ⟨hends.1, hends.2.store, hends.2.depth, hends.2.limit⟩

theorem orDrop (scope : ScopeId) (h : σ.Keeps depth placed x Q) :
    σ.Keeps depth placed (Eval.orDrop scope x) Q := by
  intro m hm
  have hends := h m hm
  rcases hx : x m with ⟨a, m'⟩ | ⟨halt, m'⟩ <;> rw [hx] at hends
  · rw [Eval.orDrop_ok hx]
    exact hends
  · rw [Eval.orDrop_error hx]
    exact ⟨hends.1, hends.2.of_reduces (.erase _ scope)⟩

theorem inBody {x : Eval Value} {Q : Value → Prop} (scope : ScopeId)
    (h : σ.Keeps (depth + 1) placed x Q) : σ.Keeps depth placed (Eval.inBody scope x) Q := by
  intro m hm
  have hends := h (Eval.entered m scope) (hm.entered scope)
  -- What is left behind still has the depth of the body.
  have hbehind : ∀ {m'}, σ.Holds (depth + 1) m' → σ.Holds (depth + 1) { m' with owners := m.owners } :=
    fun h' => ⟨h'.store, h'.depth, h'.limit⟩
  rcases hx : x (Eval.entered m scope) with ⟨v, m'⟩ | ⟨halt, m'⟩ <;> rw [hx] at hends
  · rw [Eval.inBody_ok hx]
    exact ⟨hends.1, (hbehind hends.2).leave scope [v]⟩
  · rw [Eval.inBody_error hx]
    exact ⟨hends.1, (hbehind hends.2).leave scope []⟩

theorem repeatWhile {condition : Eval Bool} {body : Eval Unit}
    (hcondition : σ.Keeps depth placed condition fun _ => True)
    (hbody : σ.Keeps depth placed body fun _ => True) (rounds : Nat) :
    σ.Keeps depth placed (Eval.repeatWhile condition body rounds) fun _ => True := by
  induction rounds with
  | zero => exact outOfSteps
  | succ rounds ih =>
    refine hcondition.bind fun holds _ => ?_
    split
    · exact hbody.bind fun _ _ => ih
    · exact pure trivial

theorem weaken {placed' : Bool} {R : α → Prop} (h : σ.Keeps depth placed x Q)
    (himp : ∀ a, Q a → R a) (hplaced : placed' = true → placed = true) :
    σ.Keeps depth placed' x R := by
  intro m hm
  have hends := h m hm
  cases hx : x m with
  | ok a m' =>
    rw [hx] at hends
    exact ⟨himp a hends.1, hends.2⟩
  | error halt m' =>
    rw [hx] at hends
    exact ⟨hends.1.weaken hplaced, hends.2⟩

end Keeps

end Setting

/-- **Whatever code does, it keeps to its setting, and its failures have their places.** -/
theorem Composed.keeps {x : Nat → Eval α} (h : Composed σ depth placed x Q) (steps : Nat) :
    σ.Keeps depth placed (x steps) Q := by
  induction h generalizing steps with
  | onStore hg => exact .onStore hg
  | write text => exact .write text
  | read => exact .read
  | bind _ _ ihx ihf => exact (ihx steps).bind fun a ha => ihf a ha steps
  | located hspan _ ih => exact (ih steps).located hspan
  | holding owners _ ih => exact (ih steps).holding owners
  | orDrop scope _ ih => exact (ih steps).orDrop scope
  | inBody scope _ ih => exact (ih steps).inBody scope
  | loop _ _ _ ihcondition ihbody => exact (ihcondition steps).repeatWhile (ihbody steps) steps
  | step hzero _ ih =>
    cases steps with
    | zero =>
      rw [hzero]
      exact .outOfSteps
    | succ steps => exact ih steps
  | weaken _ himp hplaced ih => exact (ih steps).weaken himp hplaced

end Scriptlet
