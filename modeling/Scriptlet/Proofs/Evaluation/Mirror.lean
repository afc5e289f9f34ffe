import Scriptlet.Proofs.Evaluation.Kept
import Scriptlet.Proofs.Heap.LikeCollection

/-!
# Computations that mirror each other

Machines are alike if their heaps and owners are, and if the second console has some older events behind
those of the first. Two computations mirror each other (`Likeness.Mirrors`) if they take like machines to
like machines with related results, or fail for the same reason, which is one of running, at related
places, or run out of steps together. The judgement has a rule for each way to put computations
together.

Where the two machines are one and the same, this says what all runs have in common: how they fail, and
what the numbers in the machine are like.
-/

namespace Scriptlet

open List (Forall₂)

/-- The console with older events behind its own. -/
def Console.after (old : List ConsoleEvent) (console : Console) : Console :=
  { console with log := console.log ++ old }

namespace Console

variable (old : List ConsoleEvent) (console : Console)

@[simp] theorem after_nil : console.after [] = console := by simp [after]

theorem write_after (text : String) :
    (console.after old).write text =
      ((console.write text).1, (console.write text).2.after old) := by
  by_cases h : console.refusedWrite = some (console.writes + 1) <;> simp [write, after, record, h]

theorem read_after :
    (console.after old).read = (console.read.1, console.read.2.after old) := by
  by_cases h : console.refusedRead = some (console.reads + 1)
  · simp [read, after, h]
  · cases hinput : console.input <;> simp [read, after, record, h, hinput]

end Console

variable {ℓ : Likeness} {old : List ConsoleEvent}

/-- Machines with like heaps and owners at the same depth. The second console has older events. -/
structure Machine.Like (ℓ : Likeness) (old : List ConsoleEvent) (m m' : Machine) : Prop where
  heap : m.heap.Like ℓ m'.heap
  owners : Forall₂ (Owner.Like ℓ) m.owners m'.owners
  console : m'.console = m.console.after old
  depth : m'.depth = m.depth
  limit : m'.limit = m.limit

/-- Halts for the same reason: failures of running at related places, or a lack of steps. -/
inductive Halt.Like (ℓ : Likeness) : Halt → Halt → Prop where
  | failure {f f' : Failure} (h : f.Like ℓ .running f') : Like ℓ (.failure f) (.failure f')
  | outOfSteps : Like ℓ .outOfSteps .outOfSteps

namespace Machine.Like

variable {m m' : Machine}

theorem withStore (h : m.Like ℓ old m') {store store' : Store} (hstore : store.Like ℓ store') :
    Machine.Like ℓ old (m.withStore store) (m'.withStore store') :=
  { h with heap := h.heap.withStore hstore }

theorem withOwners (h : m.Like ℓ old m') {owners owners' : List Owner}
    (howners : Forall₂ (Owner.Like ℓ) owners owners') :
    Machine.Like ℓ old { m with owners } { m' with owners := owners' } :=
  { h with owners := howners }

theorem entered (h : m.Like ℓ old m') (scope : ScopeId) :
    Machine.Like ℓ old (Eval.entered m scope) (Eval.entered m' scope) :=
  { h with depth := congrArg (· + 1) h.depth, owners := .cons (.scope scope) h.owners }

theorem leave (h : m.Like ℓ old m') (scope : ScopeId) {result result' : List Value}
    (hresult : Forall₂ (Value.Like ℓ) result result') :
    Machine.Like ℓ old (m.leave scope result) (m'.leave scope result') := by
  have hvalues : Forall₂ (Owner.Like ℓ) (result.map .value) (result'.map .value) :=
    List.rel_map (fun _ _ hv => .value hv) hresult
  have howners := List.rel_append hvalues h.owners
  exact { h with depth := congrArg (· - 1) h.depth, heap := h.heap.release howners [] scope }

end Machine.Like

/-- Like failures stay alike when they are given their places. -/
theorem Failure.Like.orAt {phase : Phase} {f f' : Failure} {span span' : Span}
    (h : f.Like ℓ phase f') (hspan : ℓ.span span span') :
    (f.orAt span).Like ℓ phase (f'.orAt span') := by
  refine ⟨h.fault, h.phase, ?_⟩
  have hplace := h.span
  rw [Failure.orAt, Failure.orAt]
  revert hplace
  cases f.span <;> cases f'.span <;> rintro ⟨⟩
  · exact .some hspan
  · rename_i hplace
    exact .some hplace

namespace Likeness

variable {α β γ δ : Type} {Q : α → β → Prop} {R : γ → δ → Prop} {x : Eval α} {x' : Eval β}
  {f : α → Eval γ} {f' : β → Eval δ} {m m' : Machine}

/-- Two computations that do the same on like machines. -/
def Mirrors (ℓ : Likeness) (old : List ConsoleEvent) (x : Eval α) (x' : Eval β)
    (Q : α → β → Prop) : Prop :=
  ∀ m m', m.Like ℓ old m' →
    (∃ a r b r', x m = .ok a r ∧ x' m' = .ok b r' ∧ Q a b ∧ r.Like ℓ old r') ∨
      ∃ halt r halt' r', x m = .error halt r ∧ x' m' = .error halt' r' ∧ halt.Like ℓ halt' ∧
        r.Like ℓ old r'

namespace Mirrors

/-! ## Putting computations together -/

theorem pure {a : α} {b : β} (h : Q a b) : ℓ.Mirrors old (Pure.pure a) (Pure.pure b) Q :=
  fun m m' hm => .inl ⟨a, m, b, m', rfl, rfl, h, hm⟩

theorem outOfSteps : ℓ.Mirrors old (throw .outOfSteps) (throw .outOfSteps) Q :=
  fun m m' hm => .inr ⟨_, m, _, m', rfl, rfl, .outOfSteps, hm⟩

theorem fail {fault : Fault} (h : fault.phase = .running) :
    ℓ.Mirrors old (Eval.fail fault) (Eval.fail fault) Q :=
  fun m m' hm => .inr ⟨_, m, _, m', rfl, rfl, .failure ⟨rfl, h, .none⟩, hm⟩

theorem ofExcept {result : Except Fault α} {result' : Except Fault β}
    (h : Fault.Rel Q result result') :
    ℓ.Mirrors old (Eval.ofExcept result) (Eval.ofExcept result') Q := by
  cases h with
  | ok h => exact pure h
  | error h => exact fail h

theorem bind (hx : ℓ.Mirrors old x x' Q) (hf : ∀ a b, Q a b → ℓ.Mirrors old (f a) (f' b) R) :
    ℓ.Mirrors old (x >>= f) (x' >>= f') R := by
  intro m m' hm
  rcases hx m m' hm with ⟨a, r, b, r', hx, hx', hQ, hr⟩ | ⟨halt, r, halt', r', hx, hx', hhalt, hr⟩
  · rw [Eval.bind_of_ok hx, Eval.bind_of_ok hx']
    exact hf a b hQ r r' hr
  · exact .inr ⟨halt, r, halt', r', Eval.bind_of_error hx, Eval.bind_of_error hx', hhalt, hr⟩

theorem map {g : α → γ} {g' : β → δ} (hx : ℓ.Mirrors old x x' Q) (hg : ∀ a b, Q a b → R (g a) (g' b)) :
    ℓ.Mirrors old (g <$> x) (g' <$> x') R := by
  rw [map_eq_pure_bind, map_eq_pure_bind]
  exact hx.bind fun a b hQ => pure (hg a b hQ)

theorem located {span span' : Span} (hspan : ℓ.span span span') (h : ℓ.Mirrors old x x' Q) :
    ℓ.Mirrors old (Eval.located span x) (Eval.located span' x') Q := by
  intro m m' hm
  rcases h m m' hm with ⟨a, r, b, r', hx, hx', hQ, hr⟩ | ⟨halt, r, halt', r', hx, hx', hhalt, hr⟩
  · exact .inl ⟨a, r, b, r', Eval.located_ok hx, Eval.located_ok hx', hQ, hr⟩
  · cases hhalt with
    | failure hfailure =>
      exact .inr ⟨_, r, _, r', Eval.located_failure hx, Eval.located_failure hx',
        .failure (hfailure.orAt hspan), hr⟩
    | outOfSteps =>
      exact .inr ⟨_, r, _, r', Eval.located_outOfSteps hx, Eval.located_outOfSteps hx', .outOfSteps, hr⟩

theorem holding {owners owners' : List Owner} (howners : Forall₂ (Owner.Like ℓ) owners owners')
    (h : ℓ.Mirrors old x x' Q) :
    ℓ.Mirrors old (Eval.holding owners x) (Eval.holding owners' x') Q := by
  intro m m' hm
  have hheld : Machine.Like ℓ old { m with owners := owners ++ m.owners }
      { m' with owners := owners' ++ m'.owners } :=
    { hm with owners := List.rel_append howners hm.owners }
  rcases h _ _ hheld with ⟨a, r, b, r', hx, hx', hQ, hr⟩ | ⟨halt, r, halt', r', hx, hx', hhalt, hr⟩
  · exact .inl ⟨a, _, b, _, Eval.holding_ok hx, Eval.holding_ok hx', hQ,
      { hr with owners := hm.owners }⟩
  · exact .inr ⟨halt, _, halt', _, Eval.holding_error hx, Eval.holding_error hx', hhalt,
      { hr with owners := hm.owners }⟩

theorem orDrop (scope : ScopeId) (h : ℓ.Mirrors old x x' Q) :
    ℓ.Mirrors old (Eval.orDrop scope x) (Eval.orDrop scope x') Q := by
  intro m m' hm
  rcases h m m' hm with ⟨a, r, b, r', hx, hx', hQ, hr⟩ | ⟨halt, r, halt', r', hx, hx', hhalt, hr⟩
  · exact .inl ⟨a, r, b, r', Eval.orDrop_ok hx, Eval.orDrop_ok hx', hQ, hr⟩
  · exact .inr ⟨halt, _, halt', _, Eval.orDrop_error hx, Eval.orDrop_error hx', hhalt,
      hr.withStore (hr.heap.store.erase scope)⟩

theorem inBody {body body' : Eval Value} (scope : ScopeId)
    (h : ℓ.Mirrors old body body' (Value.Like ℓ)) :
    ℓ.Mirrors old (Eval.inBody scope body) (Eval.inBody scope body') (Value.Like ℓ) := by
  intro m m' hm
  rcases h _ _ (hm.entered scope) with ⟨a, r, b, r', hx, hx', hQ, hr⟩ |
    ⟨halt, r, halt', r', hx, hx', hhalt, hr⟩
  · exact .inl ⟨a, _, b, _, Eval.inBody_ok hx, Eval.inBody_ok hx', hQ,
      (hr.withOwners hm.owners).leave scope (.cons hQ .nil)⟩
  · exact .inr ⟨halt, _, halt', _, Eval.inBody_error hx, Eval.inBody_error hx', hhalt,
      (hr.withOwners hm.owners).leave scope .nil⟩

theorem repeatWhile {condition condition' : Eval Bool} {body body' : Eval Unit}
    (hcondition : ℓ.Mirrors old condition condition' (· = ·))
    (hbody : ℓ.Mirrors old body body' fun _ _ => True) (rounds : Nat) :
    ℓ.Mirrors old (Eval.repeatWhile condition body rounds)
      (Eval.repeatWhile condition' body' rounds) fun _ _ => True := by
  induction rounds with
  | zero => exact outOfSteps
  | succ rounds ih =>
    refine hcondition.bind fun holds _ hsame => ?_
    obtain rfl := hsame
    split
    · exact hbody.bind fun _ _ _ => ih
    · exact pure trivial

/-! ## The store and the console -/

theorem changeStore {change change' : Store → Except Fault Store}
    (h : ∀ store store', store.Like ℓ store' →
      Fault.Rel (Store.Like ℓ) (change store) (change' store')) :
    ℓ.Mirrors old (Eval.changeStore change) (Eval.changeStore change') fun _ _ => True := by
  intro m m' hm
  have hrel := h _ _ hm.heap.store
  rw [Eval.changeStore_apply, Eval.changeStore_apply]
  revert hrel
  cases change m.heap.store <;> cases change' m'.heap.store <;> rintro ⟨⟩
  · rename_i hfault
    exact .inr ⟨_, m, _, m', rfl, rfl, .failure ⟨rfl, hfault, .none⟩, hm⟩
  · rename_i hstore
    exact .inl ⟨(), _, (), _, rfl, rfl, trivial, hm.withStore hstore⟩

theorem declare (scope : ScopeId) (name : String) {v v' : Value} (hv : v.Like ℓ v')
    (constant : Bool) :
    ℓ.Mirrors old (Eval.declare scope name v constant) (Eval.declare scope name v' constant)
      fun _ _ => True :=
  changeStore fun _ _ h => h.declare scope name hv constant

theorem assign (scope : ScopeId) (name : String) {v v' : Value} (hv : v.Like ℓ v') :
    ℓ.Mirrors old (Eval.assign scope name v) (Eval.assign scope name v') fun _ _ => True :=
  changeStore fun _ _ h => h.assign scope name hv

theorem lookup (scope : ScopeId) (name : String) :
    ℓ.Mirrors old (Eval.lookup scope name) (Eval.lookup scope name) (Value.Like ℓ) := by
  intro m m' hm
  have hrel := hm.heap.store.lookup scope name
  rw [Eval.lookup_apply, Eval.lookup_apply]
  revert hrel
  cases m.heap.store.lookup scope name <;> cases m'.heap.store.lookup scope name <;> rintro ⟨⟩
  · rename_i hfault
    exact .inr ⟨_, m, _, m', rfl, rfl, .failure ⟨rfl, hfault, .none⟩, hm⟩
  · rename_i hv
    exact .inl ⟨_, m, _, m', rfl, rfl, hv, hm⟩

theorem freshId : ℓ.Mirrors old Eval.freshId Eval.freshId (· = ·) := by
  intro m m' hm
  exact .inl ⟨_, _, _, _, Eval.freshId_apply m, Eval.freshId_apply m', hm.heap.store.fresh.symm,
    hm.withStore hm.heap.store.newId⟩

theorem openScope (parent : Option ScopeId) :
    ℓ.Mirrors old (Eval.openScope parent) (Eval.openScope parent) (· = ·) := by
  intro m m' hm
  exact .inl ⟨_, _, _, _, Eval.openScope_apply parent m, Eval.openScope_apply parent m',
    hm.heap.store.fresh.symm, hm.withStore (hm.heap.store.newScope parent)⟩

theorem write (text : String) :
    ℓ.Mirrors old (Eval.write text) (Eval.write text) fun _ _ => True := by
  intro m m' hm
  have hwritten : Machine.Like ℓ old { m with console := (m.console.write text).2 }
      { m' with console := (m.console.write text).2.after old } := { hm with console := rfl }
  rw [Eval.write_apply, Eval.write_apply, hm.console, Console.write_after]
  cases (m.console.write text).1 with
  | ok _ => exact .inl ⟨(), _, (), _, rfl, rfl, trivial, hwritten⟩
  | error reason => exact .inr ⟨_, _, _, _, rfl, rfl, .failure ⟨rfl, rfl, .none⟩, hwritten⟩

theorem read : ℓ.Mirrors old Eval.read Eval.read (Value.Like ℓ) := by
  intro m m' hm
  have htaken : Machine.Like ℓ old { m with console := m.console.read.2 }
      { m' with console := m.console.read.2.after old } := { hm with console := rfl }
  rw [Eval.read_apply, Eval.read_apply, hm.console, Console.read_after]
  rcases m.console.read.1 with reason | (_ | line)
  · exact .inr ⟨_, _, _, _, rfl, rfl, .failure ⟨rfl, rfl, .none⟩, htaken⟩
  · exact .inl ⟨.null, _, .null, _, rfl, rfl, .null, htaken⟩
  · exact .inl ⟨.text line, _, .text line, _, rfl, rfl, .text line, htaken⟩

end Mirrors

end Likeness

end Scriptlet
