import Scriptlet.Evaluation.Call
import Scriptlet.Proofs.Evaluation.Primitive

/-!
# Calls keep to every discipline

A call makes a scope, binds the arguments in it, runs the body with a handle to the scope among the
owners, and gives the handle up while the result is in hand. Until the body starts, nothing else
holds on to the new scope (`Discipline.Entering`), so a call that fails to bind its arguments can
drop it. Names may be declared in the scope, since it is new.
-/

namespace Scriptlet.Discipline

open Store (ownedNodes)

variable {d : Discipline} {base : List Owner} {args : List Value} {m n : Machine} {s : ScopeId}
  {f : Function}

/-! ## Entering a scope -/

/-- Related machines with the only handle to a scope and some arguments in hand. -/
structure Entering (d : Discipline) (base : List Owner) (args : List Value) (s : ScopeId)
    (m n : Machine) : Prop where
  point : d.point base (.scope s :: Owner.values args) m n
  declares : d.declares s
  left : .scope s ∉ m.heap.store.handles (Owner.values args ++ base ++ d.others)
  right : .scope s ∉ n.heap.store.handles (Owner.values args ++ base ++ d.others')

namespace Entering

/-- The arguments may be let go. -/
theorem drop (h : d.Entering base args s m n) : d.point base [.scope s] m n := by
  refine d.of_owned h.point ?_ fun id hid => ?_
  · refine Store.owned_subset_reachable fun o ho => ?_
    exact List.mem_append_left _ (List.mem_cons.mpr (.inl (List.mem_singleton.mp ho)))
  · rcases List.mem_cons.mp hid with heq | hid
    · exact List.mem_append_left _ (List.mem_singleton.mpr heq)
    · obtain ⟨v, -, heq⟩ := List.mem_map.mp hid
      cases heq

/-- The scope may be dropped along with the arguments. -/
theorem erase (h : d.Entering base args s m n) :
    d.point base [] (m.withStore (m.heap.store.erase s)) (n.withStore (n.heap.store.erase s)) :=
  Discipline.drop (d.erase h.point h.left h.right)

theorem bind (h : d.Entering base args s m n) {name : String} {v : Value} {constant : Bool}
    (hv : v ∈ args) (hwrites : m.heap.store.Writes d.declares s name ⟨v, constant⟩) :
    d.Entering base args s (m.withStore (m.heap.store.bind s name ⟨v, constant⟩))
      (n.withStore (n.heap.store.bind s name ⟨v, constant⟩)) := by
  have howned : .value v ∈ Owner.values args := List.mem_map_of_mem hv
  have hbinding : ∀ (others : List Owner) (store : Store) (r : Node),
      (Binding.mk v constant).value.node? = some r →
        r ∈ store.present (Owner.values args ++ base ++ others) := fun _ _ r hr =>
    Store.present_of_owned ⟨.value v, List.mem_append_left _ (List.mem_append_left _ howned), hr⟩
  have hwithout : ∀ others, Owner.values args ++ base ++ others ⊆
      .scope s :: (Owner.values args ++ base ++ others) := fun _ => List.subset_cons_self _ _
  refine ⟨d.bind h.point (Store.reachable_of_scope_mem List.mem_cons_self) hwrites
    (Store.knows_of_mem (List.mem_append_left _ (List.mem_cons_of_mem _ howned))), h.declares, ?_, ?_⟩
  · exact ((d.left h.point).mono (hwithout _)).not_held_bind (hbinding _ _) h.left
  · exact ((d.right h.point).mono (hwithout _)).not_held_bind (hbinding _ _) h.right

end Entering

theorem together_openScope (d : Discipline) {parent : Option ScopeId}
    (hparent : ∀ p, parent = some p → ∀ store : Store,
      .scope p ∈ store.reachable (Owner.values args ++ base)) :
    Together (d.point base (Owner.values args)) (Eval.openScope parent)
      (fun s => d.Entering base args s) (d.point base []) := by
  intro m n hat
  have hpresent : ∀ (others : List Owner) (store : Store) (p : ScopeId), parent = some p →
      .scope p ∈ store.present (Owner.values args ++ base ++ others) := fun _ store p hp =>
    Store.present_of_reachable
      (Store.reachable_mono (List.subset_append_left _ _) (hparent p hp store))
  rw [Eval.openScope_apply, Eval.openScope_apply, (d.agree hat).fresh]
  refine .inl ⟨m.heap.store.fresh, _, _, rfl, rfl,
    d.newScope hat fun p hp => hparent p hp m.heap.store, d.declares_new hat, ?_, ?_⟩
  · exact (d.left hat).not_held_newScope (hpresent _ _)
  · rw [← (d.agree hat).fresh]
    exact (d.right hat).not_held_newScope (hpresent _ _)

theorem together_bindParams (pairs : List (String × Value))
    (hpairs : ∀ pair ∈ pairs, pair.2 ∈ args) :
    Together (d.Entering base args s) (Eval.bindParams s pairs) (fun _ => d.Entering base args s)
      (d.Entering base args s) := by
  induction pairs with
  | nil => exact Together.pure fun _ _ h => h
  | cons pair rest ih =>
    refine Together.bind (Together.changeStore fun m n h => ?_) fun _ =>
      ih fun pair hpair => hpairs pair (List.mem_cons_of_mem _ hpair)
    have hid : .scope s ∈ m.heap.store.reachable (.scope s :: Owner.values args ++ base) :=
      Store.reachable_of_scope_mem List.mem_cons_self
    refine ((d.agree h.point).declare hid d.declares h.declares pair.1 pair.2 false).imp id
      fun hbound => ?_
    obtain ⟨hwrites, hm, hn⟩ := hbound
    exact ⟨_, _, hm, hn, h.bind (hpairs pair List.mem_cons_self) hwrites⟩

theorem together_orDrop {x : Eval Unit}
    (h : Together (d.Entering base args s) x (fun _ => d.Entering base args s)
      (d.Entering base args s)) :
    Together (d.Entering base args s) (Eval.orDrop s x)
      (fun _ m n => d.point base [.scope s] m n ∧ d.declares s) (d.point base []) := by
  intro m n hentering
  rcases h m n hentering with ⟨_, m', n', hm, hn, hrel⟩ | ⟨halt, m', n', hm, hn, hrel⟩
  · exact .inl ⟨(), m', n', by simp only [Eval.orDrop, hm], by simp only [Eval.orDrop, hn],
      hrel.drop, hrel.declares⟩
  · exact .inr ⟨halt, _, _, by simp only [Eval.orDrop, hm], by simp only [Eval.orDrop, hn],
      hrel.erase⟩

theorem together_enter (hf : .value (.function f) ∈ base) :
    Together (d.point base (Owner.values args)) (Eval.enter f args)
      (fun s m n => d.point base [.scope s] m n ∧ d.declares s) (d.point base []) := by
  have hclosure : ∀ p, some f.closure = some p → ∀ store : Store,
      .scope p ∈ store.reachable (Owner.values args ++ base) := by
    rintro p ⟨⟩ store
    have howned : Node.function f ∈ ownedNodes (Owner.values args ++ base) :=
      ⟨_, List.mem_append_right _ hf, rfl⟩
    exact Store.reachable_of_edge (Store.reachable_of_owned howned) (by simp)
  refine Together.bind (d.together_openScope hclosure) fun s => ?_
  refine Together.bind (together_orDrop (together_bindParams _ fun pair hpair => ?_)) fun _ => ?_
  · exact (List.of_mem_zip hpair).2
  · exact Together.pure fun _ _ h => h

/-! ## Calling -/

/-- A body is run with a handle to its scope among the owners, which is given up afterwards. -/
theorem together_inBody {body : Eval Value}
    (h : d.Keeps (.scope s :: base) [] body fun v => [v]) :
    Together (d.point base [.scope s]) (Eval.inBody s body)
      (fun v => d.point base (Owner.values [v])) (d.point base []) := by
  intro m n hat
  have hdeep : d.point base ([.scope s] ++ Owner.values []) { m with depth := m.depth + 1 }
      { n with depth := n.depth + 1 } := by
    rw [d.depth_eq hat]
    exact d.withDepth hat (m.depth + 1)
  have hleave : ∀ {result : List Value} {m' n' : Machine},
      d.point base (Owner.values result ++ [.scope s]) m' n' →
        d.point base (Owner.values result) (m'.leave s result) (n'.leave s result) :=
    fun hat' => d.leave (congr hat' fun o => by simp [or_comm])
  have hheld : Together (d.point base ([.scope s] ++ [])) (Eval.holding [.scope s] body)
      (fun v => d.point base (Owner.values [v] ++ [.scope s])) (d.point base [.scope s]) :=
    d.together_holding h
  rcases hheld _ _ hdeep with ⟨v, m', n', hm, hn, hrel⟩ | ⟨halt, m', n', hm, hn, hrel⟩
  · exact .inl ⟨v, _, _, by simp only [Eval.inBody, hm], by simp only [Eval.inBody, hn],
      hleave hrel⟩
  · have hleft : d.point base (Owner.values []) (m'.leave s []) (n'.leave s []) := hleave hrel
    exact .inr ⟨halt, _, _, by simp only [Eval.inBody, hm], by simp only [Eval.inBody, hn], hleft⟩

/-- Whether statements are executed in keeping with a discipline, in scopes that have a handle among
the owners and in which names may be declared. -/
def Executes {σ : Type} (d : Discipline) (execute : σ → ScopeId → Eval Value) : Prop :=
  ∀ stmt scope base, .scope scope ∈ base → d.declares scope →
    d.Keeps base [] (execute stmt scope) fun v => [v]

namespace Keeps

variable {run : Block Stmt → ScopeId → Eval Value}

theorem callFunction (hrun : d.Executes run) (hf : .value (.function f) ∈ base) :
    d.Keeps base args (Eval.callFunction run f args) fun v => [v] := by
  have hbody : d.Keeps base args (do
      let scope ← Eval.enter f args
      Eval.inBody scope (run f.body scope)) fun v => [v] := by
    refine Together.bind (together_enter hf) fun s m n hentered => ?_
    exact together_inBody (hrun f.body s _ List.mem_cons_self hentered.2) m n hentered.1
  unfold Eval.callFunction
  dsimp only
  split
  · exact fail_bind
  · refine Together.get (fun m n hat => by rw [d.limit_eq hat, d.depth_eq hat]) fun machine => ?_
    split
    · exact fail_bind
    · exact hbody

theorem callNative (g : Native) : d.Keeps base args (Eval.callNative args g) fun v => [v] := by
  cases g with
  | print => exact bind (write _) fun _ => plain rfl
  | println => exact bind (write _) fun _ => plain rfl
  | input =>
    unfold Eval.callNative
    cases args.head? with
    | none => exact read.of_result (by simp)
    | some prompt => exact bind (write _) fun _ => read.of_result (by simp)

/-- **Calling a value that is held on to keeps to a discipline, if running bodies does.** -/
theorem call {callee : Value} (hrun : d.Executes run) (hcallee : .value callee ∈ base) :
    d.Keeps base args (Eval.call run callee args) fun v => [v] := by
  cases callee with
  | function f => exact callFunction hrun hcallee
  | native g => exact callNative g
  | null => exact fail
  | boolean b => exact fail
  | number x => exact fail
  | text t => exact fail
  | object id fields => exact fail

end Keeps

end Scriptlet.Discipline
