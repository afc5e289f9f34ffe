import Scriptlet.Proofs.Evaluation.Discipline

/-!
# The primitive computations keep to every discipline

What a program can do to the machine directly: read, bind and assign names, take new identities, and
use the console. The scope it does so in has a handle among the owners.
-/

namespace Scriptlet

/-! ## What the computations do -/

namespace Eval

theorem changeStore_apply (change : Store → Except Fault Store) (m : Machine) :
    changeStore change m =
      match change m.heap.store with
      | .ok store => .ok () (m.withStore store)
      | .error fault => .error (.failure (Failure.placeless fault)) m := by
  have hget : changeStore change m =
      (match change m.heap.store with
      | .ok store => set (m.withStore store)
      | .error fault => fail fault : Eval Unit) m := rfl
  rw [hget]
  cases change m.heap.store <;> rfl

theorem lookup_apply (s : ScopeId) (name : String) (m : Machine) :
    lookup s name m =
      match m.heap.store.lookup s name with
      | .ok v => .ok v m
      | .error fault => .error (.failure (Failure.placeless fault)) m := by
  have hget : lookup s name m = ofExcept (m.heap.store.lookup s name) m := rfl
  rw [hget]
  cases m.heap.store.lookup s name <;> rfl

theorem freshId_apply (m : Machine) :
    freshId m = .ok m.heap.store.fresh (m.withStore m.heap.store.newId.2) := rfl

theorem openScope_apply (parent : Option ScopeId) (m : Machine) :
    openScope parent m =
      .ok m.heap.store.fresh (m.withStore (m.heap.store.newScope parent).2) := rfl

theorem write_apply (text : String) (m : Machine) :
    write text m =
      match (m.console.write text).1 with
      | .ok () => .ok () { m with console := (m.console.write text).2 }
      | .error reason => .error (.failure (Failure.placeless (.consoleFailure reason)))
          { m with console := (m.console.write text).2 } := by
  have hget : write text m =
      (match (m.console.write text).1 with
      | .ok () => return ()
      | .error reason => fail (.consoleFailure reason) : Eval Unit)
        { m with console := (m.console.write text).2 } := rfl
  rw [hget]
  cases (m.console.write text).1 <;> rfl

theorem read_apply (m : Machine) :
    read m =
      match m.console.read.1 with
      | .ok (some line) => .ok (.text line) { m with console := m.console.read.2 }
      | .ok none => .ok .null { m with console := m.console.read.2 }
      | .error reason => .error (.failure (Failure.placeless (.consoleFailure reason)))
          { m with console := m.console.read.2 } := by
  have hget : read m =
      (match m.console.read.1 with
      | .ok (some line) => return .text line
      | .ok none => return .null
      | .error reason => fail (.consoleFailure reason) : Eval Value)
        { m with console := m.console.read.2 } := rfl
  rw [hget]
  rcases m.console.read.1 with reason | (_ | line) <;> rfl

end Eval

/-! ## The store -/

theorem Together.changeStore {R : Machine → Machine → Prop} {change : Store → Except Fault Store}
    (h : ∀ m n, R m n →
      (∃ fault, change m.heap.store = .error fault ∧ change n.heap.store = .error fault) ∨
        ∃ a b, change m.heap.store = .ok a ∧ change n.heap.store = .ok b ∧
          R (m.withStore a) (n.withStore b)) :
    Together R (Eval.changeStore change) (fun _ => R) R := by
  intro m n hmn
  rw [Eval.changeStore_apply, Eval.changeStore_apply]
  rcases h m n hmn with ⟨fault, hm, hn⟩ | ⟨a, b, hm, hn, hrel⟩
  · rw [hm, hn]
    exact .inr ⟨_, m, n, rfl, rfl, hmn⟩
  · rw [hm, hn]
    exact .inl ⟨(), _, _, rfl, rfl, hrel⟩

namespace Discipline

variable {base hand : List Owner} {vs : List Value} {s : ScopeId} {v : Value}

/-- Binding a name in a scope to a value, both owned or in hand. -/
theorem together_declare (d : Discipline) (hs : .scope s ∈ hand ++ base) (hdeclares : d.declares s)
    (hv : ∀ store : Store, store.Knows (hand ++ base) v) (name : String) (constant : Bool) :
    Together (d.point base hand) (Eval.declare s name v constant) (fun _ => d.point base hand)
      (d.point base hand) := by
  refine Together.changeStore fun m n hat => ?_
  have hid : .scope s ∈ m.heap.store.reachable (hand ++ base) := Store.reachable_of_scope_mem hs
  refine ((d.agree hat).declare hid d.declares hdeclares name v constant).imp id fun hbound => ?_
  obtain ⟨hwrites, hm, hn⟩ := hbound
  exact ⟨_, _, hm, hn, d.bind hat hid hwrites (hv m.heap.store)⟩

/-- A new identity, for a new function or object over what is owned or in hand. -/
theorem together_freshId (d : Discipline) (make : Nat → Value)
    (hmake : ∀ (store : Store) (id : Nat) (r : Node), (make id).node? = some r →
      r.id = id ∧ ∀ q ∈ store.edges r, q ∈ store.reachable (hand ++ base)) :
    Together (d.point base hand) Eval.freshId (fun id => d.point base (.value (make id) :: hand))
      (d.point base hand) := by
  intro m n hat
  rw [Eval.freshId_apply, Eval.freshId_apply, (d.agree hat).fresh]
  refine .inl ⟨m.heap.store.fresh, _, _, rfl, rfl, d.newId hat fun r hr => ?_⟩
  exact hmake m.heap.store m.heap.store.fresh r hr

namespace Keeps

variable {d : Discipline}

theorem declare (hs : .scope s ∈ base) (hdeclares : d.declares s) (hv : v.Follows vs)
    (name : String) (constant : Bool) :
    d.Keeps base vs (Eval.declare s name v constant) fun _ => vs :=
  (d.together_declare (List.mem_append_right _ hs) hdeclares
    (fun store => hv store _ (store.knows_values base)) name constant).mono
      (fun _ _ hat => hat) (fun _ _ _ hat => hat) fun _ _ hat => drop hat

theorem assign (hs : .scope s ∈ base) (hv : v.Follows vs) (name : String) :
    d.Keeps base vs (Eval.assign s name v) fun _ => vs := by
  refine (Together.changeStore fun m n hat => ?_).mono (fun _ _ hat => hat)
    (fun _ _ _ hat => hat) fun _ _ hat => drop hat
  have hid : .scope s ∈ m.heap.store.reachable (Owner.values vs ++ base) :=
    Store.reachable_of_scope_mem (List.mem_append_right _ hs)
  refine ((d.agree hat).assign hid d.declares name v).imp id ?_
  intro hassign
  obtain ⟨owner, binding, howner, rfl, hwrites, hm, hn⟩ := hassign
  have hknows := hv m.heap.store _ (m.heap.store.knows_values base)
  exact ⟨_, _, hm, hn, d.bind hat howner hwrites hknows⟩

theorem lookup (hs : .scope s ∈ base) (name : String) :
    d.Keeps base vs (Eval.lookup s name) fun v => v :: vs := by
  intro m n hat
  have hid : .scope s ∈ m.heap.store.reachable (Owner.values vs ++ base) :=
    Store.reachable_of_scope_mem (List.mem_append_right _ hs)
  rw [Eval.lookup_apply, Eval.lookup_apply, (d.agree hat).lookup hid]
  cases hm : m.heap.store.lookup s name with
  | error fault => exact .inr ⟨_, m, n, rfl, rfl, drop hat⟩
  | ok v =>
    refine .inl ⟨v, m, n, rfl, rfl, d.of_owned hat ?_ ?_⟩
    · intro r hr
      obtain ⟨o, ho, hr⟩ := hr
      rcases List.mem_cons.mp ho with rfl | ho
      · exact Store.knows_of_lookup hid hm r hr
      · exact Store.reachable_of_owned ⟨o, List.mem_append_left _ ho, hr⟩
    · exact fun id hid => List.mem_append_left _ (List.mem_cons_of_mem _ hid)

theorem freshId (make : Nat → Value)
    (hmake : ∀ (store : Store) (id : Nat) (r : Node), (make id).node? = some r →
      r.id = id ∧ ∀ q ∈ store.edges r, q ∈ store.reachable (Owner.values vs ++ base)) :
    d.Keeps base vs Eval.freshId fun id => make id :: vs :=
  (d.together_freshId make hmake).mono (fun _ _ hat => hat) (fun _ _ _ hat => hat) fun _ _ hat =>
    drop hat

/-! ## The console -/

theorem write (text : String) : d.Keeps base vs (Eval.write text) fun _ => vs := by
  intro m n hat
  have hat' := d.withConsole hat (m.console.write text).2
  rw [Eval.write_apply, Eval.write_apply, d.console_eq hat]
  cases (m.console.write text).1 with
  | ok _ => exact .inl ⟨(), _, _, rfl, rfl, hat'⟩
  | error reason => exact .inr ⟨_, _, _, rfl, rfl, drop hat'⟩

theorem read : d.Keeps base vs Eval.read fun v => v :: vs := by
  intro m n hat
  have hat' := d.withConsole hat m.console.read.2
  have hplain : ∀ v : Value, v.node? = none → d.point base (Owner.values (v :: vs))
      { m with console := m.console.read.2 } { n with console := m.console.read.2 } := by
    intro v hv
    refine of_follows hat' fun w hw => ?_
    rcases List.mem_cons.mp hw with rfl | hw
    · exact Value.follows_of_plain hv
    · exact Value.follows_of_mem hw
  rw [Eval.read_apply, Eval.read_apply, d.console_eq hat]
  rcases m.console.read.1 with reason | (_ | line)
  · exact .inr ⟨_, _, _, rfl, rfl, drop hat'⟩
  · exact .inl ⟨.null, _, _, rfl, rfl, hplain .null rfl⟩
  · exact .inl ⟨.text line, _, _, rfl, rfl, hplain (.text line) rfl⟩

end Keeps

end Discipline

end Scriptlet
