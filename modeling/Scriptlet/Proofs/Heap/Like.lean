import Mathlib.Data.List.Sort
import Scriptlet.Heap.Store
import Scriptlet.Proofs.Likeness
import Scriptlet.Value.Operation

/-!
# Like values in like stores

Values are alike if they are the same but for the code of the functions in them, and that code is alike.
Stores are alike if they have the same scopes with like values in them. In particular all identities are
the same, and so is everything that is told by identities.

Whatever is done with like values and like stores has like results, or the same fault. What is required
of numbers has to last through arithmetic for that (`Likeness.Computes`).
-/

namespace Scriptlet

/-- Functions that are the same but for their code, which is alike. -/
structure Function.Like (ℓ : Likeness) (f f' : Function) : Prop where
  id : f'.id = f.id
  name : f'.name = f.name
  params : f'.params = f.params
  body : Block.Like (Stmt.Like ℓ) ℓ.span f.body f'.body
  closure : f'.closure = f.closure

/-- Like values. -/
inductive Value.Like (ℓ : Likeness) : Value → Value → Prop where
  | null : Like ℓ .null .null
  | boolean (b : Bool) : Like ℓ (.boolean b) (.boolean b)
  | number {n : Number} (hn : ℓ.number n) : Like ℓ (.number n) (.number n)
  | text (s : String) : Like ℓ (.text s) (.text s)
  | object {id : Nat} {fields fields' : List (String × Value)}
    (hfields : List.Forall₂ (Record.Like (Like ℓ)) fields fields') :
    Like ℓ (.object id fields) (.object id fields')
  | function {f f' : Function} (hf : f.Like ℓ f') : Like ℓ (.function f) (.function f')
  | native (f : Native) : Like ℓ (.native f) (.native f)

theorem Function.like_refl {ℓ : Likeness} (hℓ : ℓ.IsRefl) (f : Function) : f.Like ℓ f :=
  ⟨rfl, rfl, rfl, Stmt.like_refl_block hℓ f.body, rfl⟩

mutual

theorem Value.like_refl {ℓ : Likeness} (hℓ : ℓ.IsRefl) : ∀ v : Value, v.Like ℓ v
  | .null => .null
  | .boolean b => .boolean b
  | .number n => .number (hℓ.number n)
  | .text s => .text s
  | .object _ fields => .object (Value.like_refl_fields hℓ fields)
  | .function f => .function (f.like_refl hℓ)
  | .native f => .native f

theorem Value.like_refl_fields {ℓ : Likeness} (hℓ : ℓ.IsRefl) :
    ∀ fields : List (String × Value), List.Forall₂ (Record.Like (Value.Like ℓ)) fields fields
  | [] => .nil
  | (_, v) :: rest => .cons (.entry (v.like_refl hℓ)) (Value.like_refl_fields hℓ rest)

end

/-- What is required of numbers is kept by arithmetic. -/
structure Likeness.Computes (ℓ : Likeness) : Prop where
  arithmetic : ∀ {op : BinaryOp} {a b n : Number}, ℓ.number a → ℓ.number b →
    Value.arithmetic op a b = .ok (.number n) → ℓ.number n
  negate : ∀ {a : Number}, ℓ.number a → ℓ.number a.negate

/-- Related results, or the same fault, which is one of running. -/
inductive Fault.Rel {α β : Type} (R : α → β → Prop) : Except Fault α → Except Fault β → Prop where
  | ok {a : α} {b : β} (h : R a b) : Rel R (.ok a) (.ok b)
  | error {fault : Fault} (h : fault.phase = .running) : Rel R (.error fault) (.error fault)

variable {ℓ : Likeness}

/-! ## Records -/

namespace Record

variable {α β : Type} {R : α → β → Prop} {record : Record α} {record' : Record β}

theorem like_get? (h : List.Forall₂ (Record.Like R) record record') (name : String) :
    Option.Rel R (record.get? name) (record'.get? name) := by
  induction h with
  | nil => exact .none
  | cons hentry _ ih =>
    obtain ⟨hvalue⟩ := hentry
    rw [get?, get?]
    split
    · exact .some hvalue
    · exact ih

theorem like_put (h : List.Forall₂ (Record.Like R) record record') (name : String) {a : α} {b : β}
    (hab : R a b) : List.Forall₂ (Record.Like R) (put name a record) (put name b record') := by
  induction h with
  | nil => exact .cons (.entry hab) .nil
  | cons hentry hrest ih =>
    obtain ⟨hvalue⟩ := hentry
    rw [put, put]
    split
    · exact .cons (.entry hab) hrest
    · exact .cons (.entry hvalue) ih

theorem like_values (h : List.Forall₂ (Record.Like R) record record') :
    List.Forall₂ R (record.map (·.2)) (record'.map (·.2)) := by
  induction h with
  | nil => exact .nil
  | cons hentry _ ih =>
    obtain ⟨hvalue⟩ := hentry
    exact .cons hvalue ih

end Record

/-! ## Values -/

namespace Value

variable {v v' w w' : Value}

theorem Like.type (h : v.Like ℓ v') : v'.type = v.type := by
  cases h <;> rfl

theorem Like.isTruthy (h : v.Like ℓ v') : v'.isTruthy = v.isTruthy := by
  cases h <;> rfl

mutual

/-- Like values have the same text. -/
theorem Like.display : ∀ {v v' : Value}, v.Like ℓ v' → v'.display = v.display
  | _, _, .null => rfl
  | _, _, .boolean _ => rfl
  | _, _, .number _ => rfl
  | _, _, .text _ => rfl
  | _, _, .object .nil => rfl
  | .object _ (_ :: _), _, .object (.cons hfirst hrest) => by
    rw [Value.display, Value.display, displayFields_like (.cons hfirst hrest)] <;> exact List.cons_ne_nil _ _
  | _, _, .function hf => by rw [Value.display, Value.display, hf.name]
  | _, _, .native _ => rfl

theorem displayFields_like : ∀ {fields fields' : List (String × Value)},
    List.Forall₂ (Record.Like (Value.Like ℓ)) fields fields' →
      displayFields fields' = displayFields fields
  | [], [], .nil => rfl
  | (_, value) :: _, _ :: _, .cons (.entry hvalue) hrest => by
    have hinside := displayInside_like hvalue
    rw [displayFields, displayFields, hinside, displayFields_like hrest]

theorem displayInside_like : ∀ {v v' : Value}, v.Like ℓ v' → v'.displayInside = v.displayInside
  | _, _, .text _ => rfl
  | _, _, .null => rfl
  | _, _, .boolean _ => rfl
  | _, _, .number _ => rfl
  | .object .., _, .object hfields => by
    rw [displayInside, displayInside, Like.display (.object hfields)] <;> nofun
  | .function _, _, .function hf => by
    rw [displayInside, displayInside, Like.display (.function hf)] <;> nofun
  | _, _, .native _ => rfl

end

mutual

/-- Like values are equal to like values alike. -/
theorem Like.equal : ∀ {v v' w w' : Value}, v.Like ℓ v' → w.Like ℓ w' → v'.equal w' = v.equal w
  | .object .., _, _, _, .object hfields, hw => by
    cases hw with
    | object hothers =>
      rw [Value.equal, Value.equal, containedIn_like hothers hfields, hfields.length_eq,
        hothers.length_eq]
    | _ => simp only [Value.equal]
  | .function _, _, _, _, .function hf, hw => by
    cases hw with
    | function hg => rw [Value.equal, Value.equal, hf.id, hg.id]
    | _ => simp only [Value.equal]
  | .null, _, _, _, .null, hw => by cases hw <;> simp only [Value.equal]
  | .boolean _, _, _, _, .boolean _, hw => by cases hw <;> simp only [Value.equal]
  | .number _, _, _, _, .number _, hw => by cases hw <;> simp only [Value.equal]
  | .text _, _, _, _, .text _, hw => by cases hw <;> simp only [Value.equal]
  | .native _, _, _, _, .native _, hw => by cases hw <;> simp only [Value.equal]

theorem containedIn_like : ∀ {fields fields' others others' : List (String × Value)},
    List.Forall₂ (Record.Like (Value.Like ℓ)) others others' →
    List.Forall₂ (Record.Like (Value.Like ℓ)) fields fields' →
      containedIn others' fields' = containedIn others fields
  | [], [], _, _, _, .nil => rfl
  | (key, value) :: _, _ :: _, others, others', hothers, .cons (.entry hvalue) hrest => by
    rw [containedIn, containedIn, containedIn_like hothers hrest]
    have hget := Record.like_get? hothers key
    revert hget
    cases Record.get? others key <;> cases Record.get? others' key <;> rintro ⟨⟩
    · rfl
    · rename_i hother
      dsimp only
      rw [hvalue.equal hother]

end

theorem Like.number? (h : v.Like ℓ v') :
    v'.number? = v.number? ∧ ∀ n, v.number? = some n → ℓ.number n := by
  cases h with
  | number hn => exact ⟨rfl, fun n heq => Option.some.inj heq ▸ hn⟩
  | _ => exact ⟨rfl, fun n heq => by cases heq⟩

/-! ### Operations -/

/-- A result of arithmetic is no object and no function. -/
theorem like_of_arithmetic (hℓ : ℓ.Computes) {op : BinaryOp} {a b : Number} (ha : ℓ.number a)
    (hb : ℓ.number b) :
    Fault.Rel (Value.Like ℓ) (arithmetic op a b) (arithmetic op a b) := by
  cases hresult : arithmetic op a b with
  | ok v =>
    refine .ok ?_
    cases v with
    | number n => exact .number (hℓ.arithmetic ha hb hresult)
    | boolean b => exact .boolean b
    | _ => cases op <;> simp [arithmetic, ofDouble] at hresult <;> split at hresult <;> cases hresult
  | error fault =>
    refine .error ?_
    cases op <;> simp [arithmetic] at hresult <;> split at hresult <;> cases hresult <;> rfl

theorem Like.binary (hℓ : ℓ.Computes) (op : BinaryOp) (hv : v.Like ℓ v') (hw : w.Like ℓ w') :
    Fault.Rel (Value.Like ℓ) (v.binary op w) (v'.binary op w') := by
  obtain ⟨hleft, hleft'⟩ := hv.number?
  obtain ⟨hright, hright'⟩ := hw.number?
  rw [Value.binary, Value.binary, hleft, hright]
  split
  · rename_i a b ha hb
    exact like_of_arithmetic hℓ (hleft' a ha) (hright' b hb)
  · exact .ok .null

theorem Like.unary (hℓ : ℓ.Computes) (op : UnaryOp) (h : v.Like ℓ v') :
    Fault.Rel (Value.Like ℓ) (unary op v) (unary op v') := by
  have htype := h.type
  cases h with
  | number hn =>
    cases op with
    | plus => exact .ok (.number hn)
    | minus => exact .ok (.number (hℓ.negate hn))
    | not => exact .error rfl
  | boolean b =>
    cases op with
    | not => exact .ok (.boolean _)
    | _ => exact .error rfl
  | _ => cases op <;> exact .error rfl

theorem Like.logical (op : LogicalOp) (hv : v.Like ℓ v') (hw : w.Like ℓ w') :
    (logical op v w).Like ℓ (logical op v' w') := by
  cases op with
  | and =>
    rw [Value.logical, Value.logical, hv.equal hw]
    split
    · exact hv
    · exact .boolean false
  | or =>
    cases hv with
    | boolean b =>
      cases b with
      | true => exact .boolean true
      | false => exact hw
    | _ => exact hw

theorem Like.memberKey (h : v.Like ℓ v') : Fault.Rel (· = ·) v.memberKey v'.memberKey := by
  cases h with
  | text s => exact .ok rfl
  | number hn => exact .ok rfl
  | _ => exact .error rfl

theorem Like.member (h : v.Like ℓ v') (key : String) :
    Fault.Rel (Value.Like ℓ) (v.member key) (v'.member key) := by
  cases h with
  | object hfields =>
    rw [Value.member, Value.member]
    have hget := Record.like_get? hfields key
    revert hget
    cases Record.get? _ key <;> cases Record.get? _ key <;> rintro ⟨⟩
    · exact .error rfl
    · rename_i hmember
      exact .ok hmember
  | _ => exact .error rfl

end Value

/-! ## Stores -/

/-- Bindings of like values. -/
structure Binding.Like (ℓ : Likeness) (b b' : Binding) : Prop where
  value : b.value.Like ℓ b'.value
  constant : b'.constant = b.constant

/-- Scopes at the same place with like bindings. -/
structure Scope.Like (ℓ : Likeness) (scope scope' : Scope) : Prop where
  parent : scope'.parent = scope.parent
  bindings : List.Forall₂ (Record.Like (Binding.Like ℓ)) scope.bindings scope'.bindings

/-- The same scopes with like values in them. -/
structure Store.Like (ℓ : Likeness) (store store' : Store) : Prop where
  fresh : store'.fresh = store.fresh
  scope : ∀ id, Option.Rel (Scope.Like ℓ) (store.scope? id) (store'.scope? id)

namespace Store

variable {store store' : Store} {id : ScopeId} {name : String} {v v' : Value}

theorem like_empty : Store.Like ℓ empty empty := ⟨rfl, fun id => by simp⟩

theorem like_refl (hℓ : ℓ.IsRefl) (store : Store) : store.Like ℓ store := by
  refine ⟨rfl, fun id => ?_⟩
  cases store.scope? id with
  | none => exact .none
  | some scope =>
    refine .some ⟨rfl, List.forall₂_same.mpr fun entry _ => ?_⟩
    exact .entry ⟨entry.2.value.like_refl hℓ, rfl⟩

namespace Like

theorem setScope (h : store.Like ℓ store') {scope scope' : Scope} (hscope : scope.Like ℓ scope')
    (id : ScopeId) : (store.setScope id scope).Like ℓ (store'.setScope id scope') := by
  refine ⟨h.fresh, fun other => ?_⟩
  rw [scope?_setScope, scope?_setScope]
  split
  · exact .some hscope
  · exact h.scope other

theorem erase (h : store.Like ℓ store') (id : ScopeId) : (store.erase id).Like ℓ (store'.erase id) := by
  refine ⟨h.fresh, fun other => ?_⟩
  rw [scope?_erase, scope?_erase]
  split
  · exact .none
  · exact h.scope other

theorem newId (h : store.Like ℓ store') : store.newId.2.Like ℓ store'.newId.2 :=
  ⟨congrArg (· + 1) h.fresh, h.scope⟩

theorem newScope (h : store.Like ℓ store') (parent : Option ScopeId) :
    (store.newScope parent).2.Like ℓ (store'.newScope parent).2 := by
  have hid : store'.newId.1 = store.newId.1 := h.fresh
  rw [Store.newScope, Store.newScope]
  dsimp only
  rw [hid]
  exact h.newId.setScope ⟨rfl, .nil⟩ _

theorem bind (h : store.Like ℓ store') (id : ScopeId) (name : String) {binding binding' : Binding}
    (hbinding : binding.Like ℓ binding') :
    (store.bind id name binding).Like ℓ (store'.bind id name binding') := by
  have hscope := h.scope id
  rw [Store.bind, Store.bind]
  revert hscope
  cases store.scope? id <;> cases store'.scope? id <;> rintro ⟨⟩
  · exact h
  · rename_i scope scope' hscope
    have hput : Scope.Like ℓ { scope with bindings := Record.put name binding scope.bindings }
        { scope' with bindings := Record.put name binding' scope'.bindings } :=
      ⟨hscope.parent, Record.like_put hscope.bindings name hbinding⟩
    exact h.setScope hput id

theorem clear (h : store.Like ℓ store') (id : ScopeId) : (store.clear id).Like ℓ (store'.clear id) := by
  have hscope := h.scope id
  rw [Store.clear, Store.clear]
  revert hscope
  cases store.scope? id <;> cases store'.scope? id <;> rintro ⟨⟩
  · exact h
  · rename_i scope scope' hscope
    have hempty : Scope.Like ℓ { scope with bindings := [] } { scope' with bindings := [] } :=
      ⟨hscope.parent, .nil⟩
    exact h.setScope hempty id

/-! ### Names -/

theorem resolveWithin? (h : store.Like ℓ store') (name : String) (steps : Nat) (id : ScopeId) :
    Option.Rel (fun found found' => found'.1 = found.1 ∧ found.2.Like ℓ found'.2)
      (store.resolveWithin? name steps id) (store'.resolveWithin? name steps id) := by
  induction steps generalizing id with
  | zero => exact .none
  | succ steps ih =>
    have hscope := h.scope id
    rw [Store.resolveWithin?, Store.resolveWithin?]
    revert hscope
    cases store.scope? id <;> cases store'.scope? id <;> rintro ⟨⟩
    · exact .none
    · rename_i scope scope' hscope
      have hget := Record.like_get? hscope.bindings name
      dsimp only
      revert hget
      cases scope.bindings.get? name <;> cases scope'.bindings.get? name <;> rintro ⟨⟩
      · dsimp only
        rw [hscope.parent]
        cases scope.parent with
        | none => exact .none
        | some parent => exact ih parent
      · rename_i hbinding
        exact .some ⟨rfl, hbinding⟩

theorem lookup (h : store.Like ℓ store') (id : ScopeId) (name : String) :
    Fault.Rel (Value.Like ℓ) (store.lookup id name) (store'.lookup id name) := by
  have hfound := h.resolveWithin? name (id + 1) id
  rw [Store.lookup, Store.lookup, resolve?, resolve?]
  revert hfound
  cases store.resolveWithin? name (id + 1) id <;> cases store'.resolveWithin? name (id + 1) id <;>
    rintro ⟨⟩
  · exact .error rfl
  · rename_i hbinding
    exact .ok hbinding.2.value

theorem assign (h : store.Like ℓ store') (id : ScopeId) (name : String) (hv : v.Like ℓ v') :
    Fault.Rel (Store.Like ℓ) (store.assign id name v) (store'.assign id name v') := by
  have hfound := h.resolveWithin? name (id + 1) id
  rw [Store.assign, Store.assign, resolve?, resolve?]
  revert hfound
  cases store.resolveWithin? name (id + 1) id <;> cases store'.resolveWithin? name (id + 1) id <;>
    rintro ⟨⟩
  · exact .error rfl
  · rename_i found found' hbinding
    dsimp only
    rw [hbinding.1, hbinding.2.constant]
    split
    · exact .error rfl
    · exact .ok (h.bind _ name ⟨hv, rfl⟩)

theorem declare (h : store.Like ℓ store') (id : ScopeId) (name : String) (hv : v.Like ℓ v')
    (constant : Bool) :
    Fault.Rel (Store.Like ℓ) (store.declare id name v constant)
      (store'.declare id name v' constant) := by
  have hbindings : List.Forall₂ (Record.Like (Binding.Like ℓ)) (store.bindings id) (store'.bindings id) := by
    have hscope := h.scope id
    rw [Store.bindings, Store.bindings]
    revert hscope
    cases store.scope? id <;> cases store'.scope? id <;> rintro ⟨⟩
    · exact .nil
    · rename_i hscope
      exact hscope.bindings
  have hget := Record.like_get? hbindings name
  rw [Store.declare, Store.declare]
  revert hget
  cases (store.bindings id).get? name <;> cases (store'.bindings id).get? name <;> rintro ⟨⟩
  · exact .ok (h.bind id name ⟨hv, rfl⟩)
  · exact .error rfl

end Like

end Store

end Scriptlet
