import Scriptlet.Proofs.Evaluation.Kept
import Scriptlet.Proofs.Evaluation.Point

/-!
# How computations fail

When a computation that is put together from others fails (`Eval.Fails`): there is one rule for each
way of putting them together. The rules only tell the fault, not the place.

A depth limit that is exceeded is no fault of the operations on values, stores and consoles, so these
never report it; a call of a declared function does if it has enough arguments and the limit is reached
(`Eval.fails_call_of_full`).
-/

namespace Scriptlet

variable {α β : Type} {m m' : Machine} {fault : Fault} {limit : Nat}

/-! ## Failing -/

namespace Eval

/-- Whether a computation fails with a fault, at whatever place. -/
def Fails (x : Eval α) (m : Machine) (fault : Fault) : Prop :=
  ∃ span after, x m = .error (.failure ⟨fault, span⟩) after

section

variable {x : Eval α} {f : α → Eval β} {span : Span} {scope : ScopeId}

@[simp] theorem not_fails_pure {a : α} : ¬Fails (pure a : Eval α) m fault := by
  rintro ⟨_, _, h⟩
  cases h

@[simp] theorem not_fails_outOfSteps : ¬Fails (throw .outOfSteps : Eval α) m fault := by
  rintro ⟨_, _, h⟩
  cases h

@[simp] theorem fails_fail {other : Fault} : Fails (fail other : Eval α) m fault ↔ other = fault := by
  constructor
  · rintro ⟨_, _, h⟩
    cases h
    rfl
  · rintro rfl
    exact ⟨none, m, rfl⟩

@[simp] theorem fails_ofExcept {result : Except Fault α} :
    Fails (ofExcept result) m fault ↔ result = .error fault := by
  cases result with
  | ok a => simp [ofExcept]
  | error other => simp [ofExcept]

theorem fails_bind :
    Fails (x >>= f) m fault ↔ Fails x m fault ∨ ∃ a m', x m = .ok a m' ∧ Fails (f a) m' fault := by
  unfold Fails
  cases hx : x m with
  | ok a m' => simp [bind_of_ok hx]
  | error halt m' => simp [bind_of_error hx]

theorem fails_bind_of_fails (h : Fails x m fault) : Fails (x >>= f) m fault :=
  fails_bind.mpr (.inl h)

theorem fails_bind_of_ok {a : α} (hx : x m = .ok a m') :
    Fails (x >>= f) m fault ↔ Fails (f a) m' fault := by
  unfold Fails
  rw [bind_of_ok hx]

@[simp] theorem fails_map {g : α → β} : Fails (g <$> x) m fault ↔ Fails x m fault := by
  rw [map_eq_pure_bind, fails_bind]
  simp

@[simp] theorem fails_located : Fails (located span x) m fault ↔ Fails x m fault := by
  unfold Fails
  rcases hx : x m with ⟨a, m'⟩ | ⟨⟨other, place⟩ | _, m'⟩
  · simp [located_ok hx]
  · simp [located_failure hx, Failure.orAt]
  · simp [located_outOfSteps hx]

@[simp] theorem fails_holding {owners : List Owner} :
    Fails (holding owners x) m fault ↔ Fails x (m.holding owners) fault := by
  unfold Fails
  rcases hx : x (m.holding owners) with ⟨a, m'⟩ | ⟨halt, m'⟩
  · simp [holding_ok hx]
  · simp [holding_error hx]

@[simp] theorem fails_orDrop : Fails (orDrop scope x) m fault ↔ Fails x m fault := by
  unfold Fails
  rcases hx : x m with ⟨a, m'⟩ | ⟨halt, m'⟩
  · simp [orDrop_ok hx]
  · simp [orDrop_error hx]

@[simp] theorem fails_inBody {body : Eval Value} :
    Fails (inBody scope body) m fault ↔ Fails body (entered m scope) fault := by
  unfold Fails
  rcases hx : body (entered m scope) with ⟨a, m'⟩ | ⟨halt, m'⟩
  · simp [inBody_ok hx]
  · simp [inBody_error hx]

end

@[simp] theorem fails_changeStore {change : Store → Except Fault Store} :
    Fails (changeStore change) m fault ↔ change m.heap.store = .error fault := by
  unfold Fails
  rw [changeStore_apply]
  cases change m.heap.store <;> simp [Failure.placeless]

@[simp] theorem fails_lookup {scope : ScopeId} {name : String} :
    Fails (lookup scope name) m fault ↔ m.heap.store.lookup scope name = .error fault := by
  unfold Fails
  rw [lookup_apply]
  cases m.heap.store.lookup scope name <;> simp [Failure.placeless]

@[simp] theorem not_fails_freshId : ¬Fails freshId m fault := by
  rintro ⟨_, _, h⟩
  cases h

end Eval

/-! ## Faults that are not about depth -/

section Faults

variable {store : Store} {id : ScopeId} {name : String} {v w : Value}

theorem Store.lookup_ne_depth : store.lookup id name ≠ .error (.callDepthExceeded limit) := by
  unfold lookup
  split <;> simp

theorem Store.assign_ne_depth : store.assign id name v ≠ .error (.callDepthExceeded limit) := by
  unfold assign
  split
  · simp
  · split <;> simp

theorem Store.declare_ne_depth {constant : Bool} :
    store.declare id name v constant ≠ .error (.callDepthExceeded limit) := by
  unfold declare
  split <;> simp

theorem Value.binary_ne_depth {op : BinaryOp} :
    Value.binary op v w ≠ .error (.callDepthExceeded limit) := by
  unfold Value.binary
  split
  · unfold Value.arithmetic
    cases op <;> dsimp only <;> (try split) <;> simp
  · simp

theorem Value.unary_ne_depth {op : UnaryOp} :
    Value.unary op v ≠ .error (.callDepthExceeded limit) := by
  unfold Value.unary
  split <;> simp

theorem Value.memberKey_ne_depth : v.memberKey ≠ .error (.callDepthExceeded limit) := by
  unfold Value.memberKey
  split <;> simp

theorem Value.member_ne_depth : v.member name ≠ .error (.callDepthExceeded limit) := by
  unfold Value.member
  split
  · split <;> simp
  · simp

end Faults

/-! ## Lists, one after the other -/

namespace Eval

section

variable {evaluate : Expr → Eval Value} {execute : Stmt → Eval Value} {scope : ScopeId}

theorem arguments_cons (before : List Value) (arg : Expr) (rest : List Expr) :
    arguments evaluate before (arg :: rest) =
      arguments evaluate before [arg] >>= fun vs => arguments evaluate vs rest := by
  simp only [arguments, bind_assoc, pure_bind]

theorem properties_cons (span : Span) (before : Record Value) (property : String × Option Expr)
    (rest : List (String × Option Expr)) :
    properties evaluate scope span before (property :: rest) =
      properties evaluate scope span before [property] >>= fun fields =>
        properties evaluate scope span fields rest := by
  obtain ⟨key, _ | expr⟩ := property <;> simp only [properties, bind_assoc, pure_bind]

theorem sequence_cons (last : Value) (stmt : Stmt) (rest : List Stmt) :
    sequence execute last (stmt :: rest) =
      sequence execute last [stmt] >>= fun v => sequence execute v rest := by
  simp only [sequence, bind_assoc, pure_bind]

theorem declarators_cons (constant : Bool) (declarator : Declarator) (rest : List Declarator) :
    declarators evaluate scope constant (declarator :: rest) =
      declarators evaluate scope constant [declarator] >>= fun _ =>
        declarators evaluate scope constant rest := by
  obtain ⟨name, _ | expr, span⟩ := declarator <;>
    simp only [declarators, bind_assoc, pure_bind, bind_pure_unit]

theorem bindParams_cons (pair : String × Value) (rest : List (String × Value)) :
    bindParams scope (pair :: rest) =
      bindParams scope [pair] >>= fun _ => bindParams scope rest := by
  simp only [bindParams, bind_assoc, pure_bind]

theorem fails_argument {before : List Value} {arg : Expr} :
    Fails (arguments evaluate before [arg]) m fault ↔
      Fails (evaluate arg) (m.holding (before.map .value)) fault := by
  simp [arguments]

theorem fails_property {span : Span} {before : Record Value} {key : String} {e : Expr} :
    Fails (properties evaluate scope span before [(key, some e)]) m fault ↔
      Fails (evaluate e) (m.holding (before.map (.value ·.2))) fault := by
  simp [properties]

theorem fails_statement {last : Value} {stmt : Stmt} :
    Fails (sequence execute last [stmt]) m fault ↔
      Fails (execute stmt) (m.holding [.value last]) fault := by
  simp [sequence]

end

/-! ## Calls -/

section

variable {run : Block Stmt → ScopeId → Eval Value} {f : Function} {args : List Value}
  (hargs : f.params.length ≤ args.length)

include hargs

theorem fails_call (hdepth : m.depth < m.limit) :
    Fails (call run (.function f) args) m fault ↔
      Fails (do
        let scope ← enter f args
        inBody scope (run f.body scope)) m fault := by
  rw [call, callFunction_eq, if_neg (Nat.not_lt_of_le hargs)]
  exact fails_bind_of_ok (checkDepth_of_lt hdepth)

theorem fails_call_of_full (hdepth : m.limit ≤ m.depth) :
    Fails (call run (.function f) args) m fault ↔ .callDepthExceeded m.limit = fault := by
  rw [call, callFunction_eq, if_neg (Nat.not_lt_of_le hargs)]
  unfold Fails
  rw [bind_of_error (checkDepth_of_le hdepth)]
  simp [Failure.placeless]

end

theorem write_ne_depth {text : String} : ¬Fails (write text) m (.callDepthExceeded limit) := by
  rintro ⟨_, _, h⟩
  rw [write_apply] at h
  cases hwrite : (m.console.write text).1 <;> rw [hwrite] at h <;> cases h

theorem read_ne_depth : ¬Fails read m (.callDepthExceeded limit) := by
  rintro ⟨_, _, h⟩
  rw [read_apply] at h
  rcases hread : m.console.read.1 with _ | (_ | _) <;> rw [hread] at h <;> cases h

theorem callNative_ne_depth {g : Native} {args : List Value} :
    ¬Fails (callNative args g) m (.callDepthExceeded limit) := by
  cases g with
  | print => simp [callNative, write_ne_depth]
  | println => simp [callNative, write_ne_depth]
  | input =>
    cases hargs : args.head? <;>
      simp [callNative, hargs, fails_bind, write_ne_depth, read_ne_depth]

/-! ## Operands -/

theorem evaluate_first {e first : Expr} {rest : List Expr} (h : e.operands = first :: rest) :
    ∃ f : Nat → ScopeId → Value → Eval Value, ∀ steps scope,
      evaluate (steps + 1) e scope = evaluate steps first scope >>= f steps scope := by
  cases e with
  | assignment target =>
    cases target <;> cases h
    exact ⟨_, fun _ _ => rfl⟩
  | member owner property computed =>
    cases property <;> cases computed <;> cases h <;> exact ⟨_, fun _ _ => rfl⟩
  | _ => cases h <;> exact ⟨_, fun _ _ => rfl⟩

theorem evaluate_second {e first second : Expr} (h : e.operands = [first, second]) :
    ∃ f : Value → Value → Eval Value, ∀ steps scope,
      evaluate (steps + 1) e scope = evaluate steps first scope >>= fun v =>
        holding [.value v] (evaluate steps second scope) >>= f v := by
  cases e with
  | assignment target => cases target <;> cases h
  | member owner property computed =>
    cases property <;> cases computed <;> cases h <;> exact ⟨_, fun _ _ => rfl⟩
  | _ => cases h <;> exact ⟨_, fun _ _ => rfl⟩

end Eval

end Scriptlet
