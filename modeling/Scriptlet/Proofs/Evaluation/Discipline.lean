import Scriptlet.Proofs.Evaluation.Together
import Scriptlet.Proofs.Heap.Change

/-!
# Disciplines

A computation of the machine works with scopes and values that it has from somewhere: from the
owners of the machine, or in hand, which is to say that it got them as arguments or results and has
not let go of them yet.

What can be shown of every run comes down to a relation between two machines, for given owners and
for what is in hand, that survives whatever a program can do to both of them: a `Discipline`. That
is one requirement for each change of the machine. A computation `Keeps` to a discipline if it takes
related machines to related machines, with results that are in hand afterwards; the rules say so of
a computation put together from others. The relation may hold of a machine only with itself, and
then a discipline is an invariant.
-/

namespace Scriptlet

open Store (ownedNodes)

/-- The owners that hold on to some values. -/
abbrev Owner.values (vs : List Value) : List Owner := vs.map .value

/-- Whether all owners of some values lead to another value as well. -/
def Value.Follows (vs : List Value) (w : Value) : Prop :=
  ∀ (store : Store) (owners : List Owner), (∀ v ∈ vs, store.Knows owners v) → store.Knows owners w

theorem Value.follows_of_mem {vs : List Value} {w : Value} (h : w ∈ vs) : Value.Follows vs w :=
  fun _ _ hvs => hvs w h

theorem Value.follows_of_plain {vs : List Value} {w : Value} (h : w.node? = none) :
    Value.Follows vs w :=
  fun _ _ _ => Store.knows_of_plain h

/-- Values in hand are known. -/
theorem Store.knows_values {vs : List Value} (store : Store) (base : List Owner) :
    ∀ v ∈ vs, store.Knows (Owner.values vs ++ base) v :=
  fun _ hv => Store.knows_of_mem (List.mem_append_left _ (List.mem_map_of_mem hv))

/-! ## What a discipline asks for -/

/-- A relation between two machines with some owners, and something in hand, that survives what a
program can do. Besides these owners each machine may have others, which the program does not work
through. Names may be declared in some scopes only. -/
structure Discipline where
  point : (base hand : List Owner) → Machine → Machine → Prop
  others : List Owner
  others' : List Owner
  declares : ScopeId → Prop
  console_eq {base hand : List Owner} {m n : Machine} (h : point base hand m n) :
    n.console = m.console
  depth_eq {base hand : List Owner} {m n : Machine} (h : point base hand m n) : n.depth = m.depth
  limit_eq {base hand : List Owner} {m n : Machine} (h : point base hand m n) : n.limit = m.limit
  agree {base hand : List Owner} {m n : Machine} (h : point base hand m n) :
    Store.Agree (hand ++ base) m.heap.store n.heap.store
  left {base hand : List Owner} {m n : Machine} (h : point base hand m n) :
    m.heap.store.Sound (hand ++ base ++ others)
  right {base hand : List Owner} {m n : Machine} (h : point base hand m n) :
    n.heap.store.Sound (hand ++ base ++ others')
  /-- What is in hand may be exchanged for what it leads to, if no handle to a scope is let go. -/
  of_owned {base hand hand' : List Owner} {m n : Machine} (h : point base hand m n)
    (howned : ownedNodes hand' ⊆ m.heap.store.reachable (hand ++ base))
    (hhandles : ∀ id, .scope id ∈ hand → .scope id ∈ hand' ++ base) : point base hand' m n
  /-- The owners may be extended by what is in hand. -/
  push {base held hand : List Owner} {m n : Machine} (h : point base (held ++ hand) m n) :
    point (held ++ base) hand { m with owners := held ++ m.owners }
      { n with owners := held ++ n.owners }
  /-- What the owners were extended by may be taken back in hand. -/
  pop {base held hand hand' : List Owner} {m n m' n' : Machine} (h : point base hand m n)
    (h' : point (held ++ base) hand' m' n') :
    point base (hand' ++ held) { m' with owners := m.owners } { n' with owners := n.owners }
  withConsole {base hand : List Owner} {m n : Machine} (h : point base hand m n)
    (console : Console) : point base hand { m with console } { n with console }
  withDepth {base hand : List Owner} {m n : Machine} (h : point base hand m n) (depth : Nat) :
    point base hand { m with depth } { n with depth }
  newId {base hand : List Owner} {m n : Machine} (h : point base hand m n) {v : Value}
    (hv : ∀ r, v.node? = some r → r.id = m.heap.store.fresh ∧
      ∀ q ∈ m.heap.store.edges r, q ∈ m.heap.store.reachable (hand ++ base)) :
    point base (.value v :: hand) (m.withStore m.heap.store.newId.2)
      (n.withStore n.heap.store.newId.2)
  newScope {base hand : List Owner} {m n : Machine} (h : point base hand m n)
    {parent : Option ScopeId}
    (hparent : ∀ p, parent = some p → .scope p ∈ m.heap.store.reachable (hand ++ base)) :
    point base (.scope m.heap.store.fresh :: hand) (m.withStore (m.heap.store.newScope parent).2)
      (n.withStore (n.heap.store.newScope parent).2)
  declares_new {base hand : List Owner} {m n : Machine} (h : point base hand m n) :
    declares m.heap.store.fresh
  bind {base hand : List Owner} {m n : Machine} (h : point base hand m n) {id : ScopeId}
    (hid : .scope id ∈ m.heap.store.reachable (hand ++ base)) {name : String} {binding : Binding}
    (hwrites : m.heap.store.Writes declares id name binding)
    (hv : m.heap.store.Knows (hand ++ base) binding.value) :
    point base hand (m.withStore (m.heap.store.bind id name binding))
      (n.withStore (n.heap.store.bind id name binding))
  /-- A scope may be dropped along with its only handle. -/
  erase {base hand : List Owner} {m n : Machine} {s : ScopeId}
    (h : point base (.scope s :: hand) m n)
    (hleft : .scope s ∉ m.heap.store.handles (hand ++ base ++ others))
    (hright : .scope s ∉ n.heap.store.handles (hand ++ base ++ others')) :
    point base hand (m.withStore (m.heap.store.erase s)) (n.withStore (n.heap.store.erase s))
  /-- A body is left with its result in hand. -/
  leave {base : List Owner} {result : List Value} {m n : Machine} {s : ScopeId}
    (h : point base (.scope s :: Owner.values result) m n) :
    point base (Owner.values result) (m.leave s result) (n.leave s result)

namespace Discipline

variable {d : Discipline} {base hand hand' : List Owner} {m n : Machine} {vs ws : List Value}

/-- Only which owners are in hand matters. -/
theorem congr (h : d.point base hand m n) (hsame : ∀ o, o ∈ hand' ↔ o ∈ hand) :
    d.point base hand' m n := by
  refine d.of_owned h (Store.owned_subset_reachable fun o ho => ?_) fun id hid => ?_
  · exact List.mem_append_left _ ((hsame o).mp ho)
  · exact List.mem_append_left _ ((hsame _).mpr hid)

/-- Values in hand may be exchanged for values that they lead to. -/
theorem of_follows (h : d.point base (Owner.values vs) m n)
    (hws : ∀ w ∈ ws, Value.Follows vs w) : d.point base (Owner.values ws) m n := by
  refine d.of_owned h ?_ fun id hid => ?_
  · intro r hr
    obtain ⟨o, ho, hr⟩ := hr
    obtain ⟨w, hw, rfl⟩ := List.mem_map.mp ho
    exact hws w hw _ _ (Store.knows_values _ base) r hr
  · obtain ⟨w, -, heq⟩ := List.mem_map.mp hid
    cases heq

theorem of_subset (h : d.point base (Owner.values vs) m n) (hws : ws ⊆ vs) :
    d.point base (Owner.values ws) m n :=
  of_follows h fun _ hw => Value.follows_of_mem (hws hw)

/-- All values in hand may be let go. -/
theorem drop (h : d.point base (Owner.values vs) m n) : d.point base [] m n :=
  of_subset h (List.nil_subset vs)

end Discipline

/-! ## Holding on -/

section Holding

variable {α : Type} {x : Eval α} {owners : List Owner} {m m' : Machine}

theorem Eval.holding_ok {a : α} (h : x { m with owners := owners ++ m.owners } = .ok a m') :
    Eval.holding owners x m = .ok a { m' with owners := m.owners } := by
  simp only [Eval.holding, h]

theorem Eval.holding_error {halt : Halt}
    (h : x { m with owners := owners ++ m.owners } = .error halt m') :
    Eval.holding owners x m = .error halt { m' with owners := m.owners } := by
  simp only [Eval.holding, h]

/-- Holding on to what is in hand, and taking it back. -/
theorem Discipline.together_holding (d : Discipline) {base hand : List Owner}
    {after : α → List Owner}
    (h : Together (d.point (owners ++ base) hand) x (fun a => d.point (owners ++ base) (after a))
      (d.point (owners ++ base) [])) :
    Together (d.point base (owners ++ hand)) (Eval.holding owners x)
      (fun a => d.point base (after a ++ owners)) (d.point base owners) := by
  intro m n hat
  rcases h _ _ (d.push hat) with ⟨a, m', n', hm, hn, hrel⟩ | ⟨halt, m', n', hm, hn, hrel⟩
  · exact .inl ⟨a, _, _, Eval.holding_ok hm, Eval.holding_ok hn, d.pop hat hrel⟩
  · exact .inr ⟨halt, _, _, Eval.holding_error hm, Eval.holding_error hn, d.pop hat hrel⟩

end Holding

/-! ## Keeping to a discipline -/

/-- A computation that takes related machines to related machines, with what the result says in
hand. -/
def Discipline.Keeps (d : Discipline) {α : Type} (base : List Owner) (hand : List Value)
    (x : Eval α) (result : α → List Value) : Prop :=
  Together (d.point base (Owner.values hand)) x
    (fun a => d.point base (Owner.values (result a))) (d.point base [])

namespace Discipline.Keeps

variable {d : Discipline} {α β : Type} {base : List Owner} {vs ws : List Value} {x : Eval α}
  {result result' : α → List Value}

theorem bind {f : α → Eval β} {final : β → List Value} (hx : d.Keeps base vs x result)
    (hf : ∀ a, d.Keeps base (result a) (f a) final) : d.Keeps base vs (x >>= f) final :=
  Together.bind hx hf

theorem of_hand (h : d.Keeps base vs x result) (hfollows : ∀ v ∈ vs, Value.Follows ws v) :
    d.Keeps base ws x result :=
  Together.of_before h fun _ _ hat => of_follows hat hfollows

theorem of_more (h : d.Keeps base vs x result) (hsub : vs ⊆ ws) : d.Keeps base ws x result :=
  h.of_hand fun _ hv => Value.follows_of_mem (hsub hv)

theorem of_result (h : d.Keeps base vs x result) (hsub : ∀ a, result' a ⊆ result a) :
    d.Keeps base vs x result' :=
  Together.of_after h fun a _ _ hat => of_subset hat (hsub a)

theorem pure {a : α} (h : ∀ w ∈ result a, Value.Follows vs w) :
    d.Keeps base vs (Pure.pure a) result :=
  Together.pure fun _ _ hat => of_follows hat h

/-- A result without identity. -/
theorem plain {v : Value} (hv : v.node? = none) :
    d.Keeps base vs (Pure.pure v) fun v => [v] :=
  pure fun w hw => Value.follows_of_plain (by simp_all)

theorem map {f : α → β} {final : β → List Value} (h : d.Keeps base vs x result)
    (hsub : ∀ a, final (f a) ⊆ result a) : d.Keeps base vs (f <$> x) final :=
  Together.map h fun a _ _ hat => of_subset hat (hsub a)

theorem throw {halt : Halt} : d.Keeps base vs (MonadExcept.throw halt) result :=
  Together.throw fun _ _ hat => drop hat

theorem fail {fault : Fault} : d.Keeps base vs (Eval.fail fault) result := throw

/-- Nothing runs after a failure. -/
theorem fail_bind {fault : Fault} {f : α → Eval β} {final : β → List Value} :
    d.Keeps base vs (Eval.fail fault >>= f) final := by
  have hfail : Together (d.point base (Owner.values vs)) (Eval.fail fault : Eval α)
      (fun _ _ _ => False) (d.point base []) := Together.throw fun _ _ hat => drop hat
  exact hfail.bind fun _ _ _ hfalse => hfalse.elim

theorem ofExcept {e : Except Fault α}
    (h : ∀ a, e = .ok a → ∀ w ∈ result a, Value.Follows vs w) :
    d.Keeps base vs (Eval.ofExcept e) result := by
  cases e with
  | ok a => exact pure (h a rfl)
  | error fault => exact fail

theorem located {span : Span} (h : d.Keeps base vs x result) :
    d.Keeps base vs (Eval.located span x) result := by
  intro m n hat
  rcases h m n hat with ⟨a, m', n', hm, hn, hrel⟩ | ⟨halt, m', n', hm, hn, hrel⟩
  · exact .inl ⟨a, m', n', by simp [Eval.located, hm], by simp [Eval.located, hn], hrel⟩
  · cases halt with
    | failure f =>
      exact .inr ⟨.failure (f.orAt span), m', n', by simp [Eval.located, hm],
        by simp [Eval.located, hn], hrel⟩
    | outOfSteps =>
      exact .inr ⟨.outOfSteps, m', n', by simp [Eval.located, hm], by simp [Eval.located, hn], hrel⟩

/-- What is held on to while a computation runs is in hand before and after. -/
theorem holding (h : d.Keeps (Owner.values vs ++ base) ws x result) :
    d.Keeps base (vs ++ ws) (Eval.holding (Owner.values vs) x) fun a => result a ++ vs := by
  have hheld := d.together_holding h
  refine hheld.mono (fun m n hat => ?_) (fun a m n hat => ?_) fun m n hat => ?_
  · simpa [Owner.values] using hat
  · simpa [Owner.values] using hat
  · exact drop hat

end Discipline.Keeps

end Scriptlet
