import Scriptlet.Proofs.Evaluation.Setting

/-!
# How computations are composed

Whatever a program does is put together from few steps: it works on the store, or it writes or reads.
`Composed` lists these steps and the ways to put them together. It is indexed by what has to be known
on the way: the depth of calls, whether failures have their places, and what results are like. The
computations are families over the number of steps that they are given, so that a property may speak
of one number or of all.

Evaluating and executing code in a setting is composed in this sense (`Composed.program`). The proof is
by induction on the syntax and, since a call leads to syntax from elsewhere, on the depth that is left
below the limit. What is to be shown of all runs is then shown by induction on `Composed`, step by
step, without another look at the syntax.
-/

namespace Scriptlet

namespace Eval

variable {α : Type}

/-- A computation that works on the store and knows the depth and its limit. -/
def onStore (g : Store → Nat → Nat → Except Fault (α × Store)) : Eval α := fun m =>
  match g m.heap.store m.depth m.limit with
  | .ok (a, store) => .ok a (m.withStore store)
  | .error fault => .error (.failure (Failure.placeless fault)) m

theorem pure_eq_onStore (a : α) : (pure a : Eval α) = onStore fun store _ _ => .ok (a, store) := rfl

theorem fail_eq_onStore (fault : Fault) :
    (fail fault : Eval α) = onStore fun _ _ _ => .error fault := rfl

theorem ofExcept_eq_onStore (result : Except Fault α) :
    ofExcept result = onStore fun store _ _ => result.map (·, store) := by
  cases result <;> rfl

theorem freshId_eq_onStore : freshId = onStore fun store _ _ => .ok store.newId := rfl

theorem openScope_eq_onStore (parent : Option ScopeId) :
    openScope parent = onStore fun store _ _ => .ok (store.newScope parent) := rfl

theorem lookup_eq_onStore (scope : ScopeId) (name : String) :
    lookup scope name = onStore fun store _ _ => (store.lookup scope name).map (·, store) := by
  funext m
  rw [lookup_apply, onStore]
  cases m.heap.store.lookup scope name <;> rfl

theorem changeStore_eq_onStore (change : Store → Except Fault Store) :
    changeStore change = onStore fun store _ _ => (change store).map ((), ·) := by
  funext m
  rw [changeStore_apply, onStore]
  cases change m.heap.store <;> rfl

/-- Fails if there is no room for one more body below the depth limit. -/
def checkDepth : Eval Unit := onStore fun store depth limit =>
  if limit ≤ depth then .error (.callDepthExceeded limit) else .ok ((), store)

theorem checkDepth_of_lt {m : Machine} (h : m.depth < m.limit) : checkDepth m = .ok () m := by
  simp only [checkDepth, onStore, if_neg (Nat.not_le_of_lt h)]
  rfl

theorem checkDepth_of_le {m : Machine} (h : m.limit ≤ m.depth) :
    checkDepth m = .error (.failure (Failure.placeless (.callDepthExceeded m.limit))) m := by
  simp only [checkDepth, onStore, if_pos h]

theorem callFunction_eq (run : Block Stmt → ScopeId → Eval Value) (f : Function)
    (args : List Value) :
    callFunction run f args =
      (if args.length < f.params.length then
        fail (.arityMismatch f.name f.params.length args.length)
      else do
        checkDepth
        let scope ← enter f args
        inBody scope (run f.body scope)) := by
  unfold callFunction
  dsimp only
  split
  · rfl
  · funext m
    change (if m.limit ≤ m.depth then _ else _ : Eval Value) m = _
    simp only [Bind.bind, EStateM.bind, checkDepth, onStore]
    split <;> rfl

end Eval

/-- The computations that code in a setting can come to run, at some depth of calls. Failures have
their places if `placed` is true, and results satisfy `Q`. -/
inductive Composed (σ : Setting) :
    {α : Type} → (depth : Nat) → (placed : Bool) → (Nat → Eval α) → (Q : α → Prop) → Prop where
  | onStore {α : Type} {depth : Nat} {placed : Bool} {Q : α → Prop}
    {g : Store → Nat → Nat → Except Fault (α × Store)}
    (hg : ∀ store, σ.Encloses store →
      match g store depth σ.limit with
      | .ok (a, store) => Q a ∧ σ.Encloses store
      | .error _ => placed = false) :
    Composed σ depth placed (fun _ => Eval.onStore g) Q
  | write {depth : Nat} (text : String) :
    Composed σ depth false (fun _ => Eval.write text) fun _ => True
  | read {depth : Nat} : Composed σ depth false (fun _ => Eval.read) σ.Admits
  | bind {α β : Type} {depth : Nat} {placed : Bool} {Q : α → Prop} {R : β → Prop}
    {x : Nat → Eval α} {f : Nat → α → Eval β} (hx : Composed σ depth placed x Q)
    (hf : ∀ a, Q a → Composed σ depth placed (fun steps => f steps a) R) :
    Composed σ depth placed (fun steps => x steps >>= f steps) R
  | located {α : Type} {depth : Nat} {Q : α → Prop} {x : Nat → Eval α} {span : Span}
    (hspan : σ.place span) (hx : Composed σ depth false x Q) :
    Composed σ depth true (fun steps => Eval.located span (x steps)) Q
  | holding {α : Type} {depth : Nat} {placed : Bool} {Q : α → Prop} {x : Nat → Eval α}
    (owners : List Owner) (hx : Composed σ depth placed x Q) :
    Composed σ depth placed (fun steps => Eval.holding owners (x steps)) Q
  | orDrop {α : Type} {depth : Nat} {placed : Bool} {Q : α → Prop} {x : Nat → Eval α}
    (scope : ScopeId) (hx : Composed σ depth placed x Q) :
    Composed σ depth placed (fun steps => Eval.orDrop scope (x steps)) Q
  /-- A body runs one level deeper. -/
  | inBody {depth : Nat} {placed : Bool} {Q : Value → Prop} {x : Nat → Eval Value}
    (scope : ScopeId) (hx : Composed σ (depth + 1) placed x Q) :
    Composed σ depth placed (fun steps => Eval.inBody scope (x steps)) Q
  | loop {depth : Nat} {placed : Bool} {condition : Nat → Eval Bool} {body : Nat → Eval Unit}
    (hloops : σ.loops) (hcondition : Composed σ depth placed condition fun _ => True)
    (hbody : Composed σ depth placed body fun _ => True) :
    Composed σ depth placed
      (fun steps => Eval.repeatWhile (condition steps) (body steps) steps) fun _ => True
  /-- A computation that takes a step before it does anything. -/
  | step {α : Type} {depth : Nat} {placed : Bool} {Q : α → Prop} {x : Nat → Eval α}
    (hzero : x 0 = throw .outOfSteps)
    (hsucc : Composed σ depth placed (fun steps => x (steps + 1)) Q) : Composed σ depth placed x Q
  | weaken {α : Type} {depth : Nat} {placed placed' : Bool} {Q R : α → Prop} {x : Nat → Eval α}
    (hx : Composed σ depth placed x Q) (himp : ∀ a, Q a → R a)
    (hplaced : placed' = true → placed = true) : Composed σ depth placed' x R

namespace Composed

variable {α β : Type} {σ : Setting} {depth : Nat} {placed : Bool} {Q R : α → Prop}
  {x : Nat → Eval α} {v : Value} {s : ScopeId}

/-! ## Steps -/

/-- Failures that have their places may be taken for some that need not have any. -/
theorem placeless (h : Composed σ depth placed x Q) : Composed σ depth false x Q :=
  h.weaken (fun _ => id) nofun

theorem pure {a : α} (h : Q a) : Composed σ depth placed (fun _ => Pure.pure a) Q := by
  simp only [Eval.pure_eq_onStore]
  exact .onStore fun store hstore => ⟨h, hstore⟩

theorem map {f : α → β} {R : β → Prop} (h : Composed σ depth placed x Q)
    (hf : ∀ a, Q a → R (f a)) : Composed σ depth placed (fun steps => f <$> x steps) R := by
  simp only [map_eq_pure_bind]
  exact h.bind fun a ha => pure (hf a ha)

theorem fail (fault : Fault) : Composed σ depth false (fun _ => Eval.fail fault) Q := by
  simp only [Eval.fail_eq_onStore]
  exact .onStore fun store _ => rfl

theorem ofExcept {result : Except Fault α} (h : ∀ a, result = .ok a → Q a) :
    Composed σ depth false (fun _ => Eval.ofExcept result) Q := by
  simp only [Eval.ofExcept_eq_onStore]
  refine .onStore fun store hstore => ?_
  cases result with
  | error fault => rfl
  | ok a => exact ⟨h a rfl, hstore⟩

theorem lookup (hs : σ.scopes s) (name : String) :
    Composed σ depth false (fun _ => Eval.lookup s name) σ.Admits := by
  simp only [Eval.lookup_eq_onStore]
  refine .onStore fun store hstore => ?_
  cases hv : store.lookup s name with
  | error fault => rfl
  | ok v => exact ⟨hstore.lookup hs hv, hstore⟩

theorem changeStore {change : Store → Except Fault Store}
    (h : ∀ store new, σ.Encloses store → change store = .ok new → σ.Encloses new) :
    Composed σ depth false (fun _ => Eval.changeStore change) fun _ => True := by
  simp only [Eval.changeStore_eq_onStore]
  refine .onStore fun store hstore => ?_
  cases hnew : change store with
  | error fault => rfl
  | ok new => exact ⟨trivial, h store new hstore hnew⟩

theorem assign (hv : σ.Admits v) (s : ScopeId) (name : String) :
    Composed σ depth false (fun _ => Eval.assign s name v) fun _ => True :=
  changeStore fun _ _ hstore => hstore.assign hv

theorem declare (hv : σ.Admits v) (s : ScopeId) (name : String) (constant : Bool) :
    Composed σ depth false (fun _ => Eval.declare s name v constant) fun _ => True :=
  changeStore fun _ _ hstore => hstore.declare hv

theorem freshId : Composed σ depth placed (fun _ => Eval.freshId) fun _ => True := by
  simp only [Eval.freshId_eq_onStore]
  exact .onStore fun store hstore => ⟨trivial, hstore.newId⟩

theorem openScope {parent : Option ScopeId} (hparent : ∀ p, parent = some p → σ.scopes p) :
    Composed σ depth placed (fun _ => Eval.openScope parent) σ.scopes := by
  simp only [Eval.openScope_eq_onStore]
  exact .onStore fun store hstore => ⟨hstore.fresh _ (Nat.le_refl _), hstore.newScope hparent⟩

/-- Behind the check there is room for one more body. -/
theorem checkDepth : Composed σ depth false (fun _ => Eval.checkDepth) fun _ => depth < σ.limit := by
  refine .onStore fun store hstore => ?_
  by_cases h : σ.limit ≤ depth
  · simp only [if_pos h]
  · simp only [if_neg h]
    exact ⟨Nat.lt_of_not_le h, hstore⟩

/-! ## Calls -/

theorem callNative (args : List Value) (f : Native) :
    Composed σ depth false (fun _ => Eval.callNative args f) σ.Admits := by
  have hnull : Composed σ depth false (fun _ => (Pure.pure .null : Eval Value)) σ.Admits :=
    pure (Setting.admits_of_plain rfl)
  cases f with
  | print => exact (write _).bind fun _ _ => hnull
  | println => exact (write _).bind fun _ _ => hnull
  | input =>
    unfold Eval.callNative
    cases args.head? with
    | none => exact .read
    | some prompt => exact (write _).bind fun _ _ => .read

theorem bindParams (s : ScopeId) {pairs : List (String × Value)}
    (hpairs : ∀ pair ∈ pairs, σ.Admits pair.2) :
    Composed σ depth false (fun _ => Eval.bindParams s pairs) fun _ => True := by
  induction pairs with
  | nil => exact pure trivial
  | cons pair rest ih =>
    obtain ⟨hpair, hrest⟩ := List.forall_mem_cons.mp hpairs
    exact (declare hpair s pair.1 false).bind fun _ _ => ih hrest

theorem enter {f : Function} {args : List Value} (hclosure : σ.scopes f.closure)
    (hargs : ∀ arg ∈ args, σ.Admits arg) :
    Composed σ depth false (fun _ => Eval.enter f args) σ.scopes := by
  refine (openScope fun p hp => Option.some.inj hp ▸ hclosure).bind fun s hs => ?_
  refine (orDrop s (bindParams s fun pair hpair => ?_)).bind fun _ _ => pure hs
  exact hargs _ (List.of_mem_zip hpair).2

/-- Bodies of functions, one level deeper, if the limit admits that. -/
def Calls (σ : Setting) (depth : Nat) : Prop :=
  depth < σ.limit → ∀ body scope, body.Within σ.toCode → σ.scopes scope →
    Composed σ (depth + 1) true (fun steps => Eval.executeBlock steps body scope) σ.Admits

theorem callFunction (hcalls : Calls σ depth) {f : Function} {args : List Value}
    (hf : σ.Admits (.function f)) (hargs : ∀ arg ∈ args, σ.Admits arg) :
    Composed σ depth false (fun steps => Eval.callFunction (Eval.executeBlock steps) f args)
      σ.Admits := by
  obtain ⟨hbody, hclosure⟩ := hf f (.itself f)
  simp only [Eval.callFunction_eq]
  split
  · exact fail _
  · refine checkDepth.bind fun _ hdepth => (enter hclosure hargs).bind fun s hs => ?_
    exact .inBody s (hcalls hdepth f.body s hbody hs).placeless

theorem call (hcalls : Calls σ depth) {callee : Value} {args : List Value}
    (hcallee : σ.Admits callee) (hargs : ∀ arg ∈ args, σ.Admits arg) :
    Composed σ depth false (fun steps => Eval.call (Eval.executeBlock steps) callee args)
      σ.Admits := by
  cases callee with
  | function f => exact callFunction hcalls hcallee hargs
  | native f => exact callNative args f
  | null | boolean | number | text | object => exact fail _

/-! ## Lists of expressions and statements -/

section Lists

variable {evaluate : Nat → Expr → Eval Value} {execute : Nat → Stmt → Eval Value}

theorem arguments {before : List Value} (hbefore : ∀ v ∈ before, σ.Admits v) {args : List Expr}
    (hargs : ∀ arg ∈ args, Composed σ depth true (fun steps => evaluate steps arg) σ.Admits) :
    Composed σ depth true (fun steps => Eval.arguments (evaluate steps) before args)
      fun vs => ∀ v ∈ vs, σ.Admits v := by
  induction args generalizing before with
  | nil => exact pure hbefore
  | cons arg rest ih =>
    obtain ⟨harg, hrest⟩ := List.forall_mem_cons.mp hargs
    refine (holding _ harg).bind fun v hv => ih ?_ hrest
    exact List.forall_mem_append.mpr ⟨hbefore, List.forall_mem_singleton.mpr hv⟩

theorem properties (hs : σ.scopes s) {span : Span} (hspan : σ.place span) {before : Record Value}
    (hbefore : ∀ entry ∈ before, σ.Admits entry.2) {literal : List (String × Option Expr)}
    (hliteral : ∀ key expr, (key, some expr) ∈ literal →
      Composed σ depth true (fun steps => evaluate steps expr) σ.Admits) :
    Composed σ depth true (fun steps => Eval.properties (evaluate steps) s span before literal)
      fun fields => ∀ entry ∈ fields, σ.Admits entry.2 := by
  induction literal generalizing before with
  | nil => exact pure hbefore
  | cons property rest ih =>
    have hrest : ∀ key v, σ.Admits v → Composed σ depth true
        (fun steps => Eval.properties (evaluate steps) s span (Record.put key v before) rest)
        fun fields => ∀ entry ∈ fields, σ.Admits entry.2 := fun key v hv =>
      ih (Setting.admits_put hbefore hv key) fun key expr hmem =>
        hliteral key expr (List.mem_cons_of_mem _ hmem)
    obtain ⟨key, _ | expr⟩ := property
    · exact (located hspan (lookup hs key)).bind (hrest key)
    · exact (holding _ (hliteral key expr List.mem_cons_self)).bind (hrest key)

theorem sequence {last : Value} (hlast : σ.Admits last) {body : List Stmt}
    (hbody : ∀ stmt ∈ body, Composed σ depth true (fun steps => execute steps stmt) σ.Admits) :
    Composed σ depth true (fun steps => Eval.sequence (execute steps) last body) σ.Admits := by
  induction body generalizing last with
  | nil => exact pure hlast
  | cons stmt rest ih =>
    obtain ⟨hstmt, hrest⟩ := List.forall_mem_cons.mp hbody
    exact (holding _ hstmt).bind fun v hv => ih hv hrest

theorem declarators (constant : Bool) {declared : List Declarator}
    (hdeclared : ∀ declarator ∈ declared, declarator.Within σ.toCode)
    (heval : ∀ expr : Expr, expr.Within σ.toCode →
      Composed σ depth true (fun steps => evaluate steps expr) σ.Admits) :
    Composed σ depth true (fun steps => Eval.declarators (evaluate steps) s constant declared)
      fun _ => True := by
  induction declared with
  | nil => exact pure trivial
  | cons declarator rest ih =>
    obtain ⟨hfirst, hrest⟩ := List.forall_mem_cons.mp hdeclared
    have hdeclare : ∀ v, σ.Admits v → Composed σ depth true (fun steps => do
        Eval.located declarator.span (Eval.declare s declarator.name v constant)
        Eval.declarators (evaluate steps) s constant rest) fun _ => True := fun v hv =>
      (located hfirst.span (declare hv s _ constant)).bind fun _ _ => ih hrest
    unfold Eval.declarators
    dsimp only
    cases hinit : declarator.init with
    | some expr => exact (heval expr (hfirst.init expr hinit)).bind hdeclare
    | none => exact hdeclare .null (Setting.admits_of_plain rfl)

end Lists

/-! ## Expressions and statements -/

/-- One more step in front of the evaluation of an expression. -/
theorem evaluate_step {e : Expr}
    (h : Composed σ depth true (fun steps => Eval.evaluate (steps + 1) e s) σ.Admits) :
    Composed σ depth true (fun steps => Eval.evaluate steps e s) σ.Admits :=
  .step rfl h

theorem objectMember {span : Span} (hspan : σ.place span) {object : Value}
    (hobject : σ.Admits object) (key : String) :
    Composed σ depth true
      (fun _ => Eval.located span (Eval.ofExcept (object.member key))) σ.Admits :=
  located hspan (ofExcept fun _ hv => hobject.member hv)

/-- **Evaluating an expression of the code is composed**, given the bodies that it may call. -/
theorem expression (hcalls : Calls σ depth) (hs : σ.scopes s) {e : Expr} (he : e.Within σ.toCode) :
    Composed σ depth true (fun steps => Eval.evaluate steps e s) σ.Admits := by
  have hplain : ∀ v : Value, v.node? = none →
      Composed σ depth true (fun _ => (Pure.pure v : Eval Value)) σ.Admits := fun _ hv =>
    pure (Setting.admits_of_plain hv)
  induction he with
  | identifier hspan => exact evaluate_step (located hspan (lookup hs _))
  | number => exact evaluate_step (hplain _ rfl)
  | text => exact evaluate_step (hplain _ rfl)
  | null => exact evaluate_step (hplain _ rfl)
  | object hspan _ ih =>
    refine evaluate_step ((properties hs hspan (List.forall_mem_nil _) ih).bind fun fields hfields => ?_)
    exact freshId.bind fun id _ => pure (Setting.admits_object hfields)
  | @assignment target value span hspan _ _ _ ih =>
    refine evaluate_step ?_
    cases target with
    | identifier name place =>
      refine ih.bind fun v hv => ?_
      exact (located hspan (assign hv s name)).bind fun _ _ => pure hv
    | _ => exact located hspan (fail _)
  | binary hspan _ _ ihleft ihright =>
    refine evaluate_step (ihleft.bind fun left _ => (holding _ ihright).bind fun right _ => ?_)
    exact located hspan (ofExcept fun v hv => Setting.admits_of_plain (Value.node?_binary hv))
  | unary hspan _ ih =>
    refine evaluate_step (ih.bind fun operand _ => ?_)
    exact located hspan (ofExcept fun v hv => Setting.admits_of_plain (Value.node?_unary hv))
  | logical _ _ _ ihleft ihright =>
    refine evaluate_step (ihleft.bind fun left hleft => (holding _ ihright).bind fun right hright => ?_)
    exact pure (hleft.logical hright _)
  | @member object property computed span hspan _ hproperty ihobject ihproperty =>
    have hcomputed : Composed σ depth true (fun steps => do
        let object ← Eval.evaluate steps object s
        let value ← Eval.holding [.value object] (Eval.evaluate steps property s)
        let key ← Eval.located property.span (Eval.ofExcept value.memberKey)
        Eval.located span (Eval.ofExcept (object.member key))) σ.Admits := by
      refine ihobject.bind fun object hobject => (holding _ ihproperty).bind fun value _ => ?_
      refine (located hproperty.place (ofExcept (Q := fun _ => True) fun _ _ => trivial)).bind
        fun key _ => objectMember hspan hobject key
    refine evaluate_step ?_
    cases property with
    | identifier name place =>
      cases computed with
      | false => exact ihobject.bind fun object hobject => objectMember hspan hobject name
      | true => exact hcomputed
    | _ => exact hcomputed
  | call hspan _ _ ihcallee ihargs =>
    refine evaluate_step (ihcallee.bind fun callee hcallee => holding _ ?_)
    refine (arguments (List.forall_mem_nil _) ihargs).bind fun args hargs => ?_
    exact located hspan (call hcalls hcallee hargs)

/-- A block, given its statements. -/
theorem block {body : Block Stmt}
    (hbody : ∀ stmt ∈ body.body,
      Composed σ depth true (fun steps => Eval.execute steps stmt s) σ.Admits) :
    Composed σ depth true (fun steps => Eval.executeBlock steps body s) σ.Admits :=
  .step rfl (sequence (Setting.admits_of_plain rfl) hbody)

/-- **Executing a statement of the code is composed**, given the bodies that it may call. -/
theorem statement (hcalls : Calls σ depth) (hs : σ.scopes s) {stmt : Stmt}
    (hstmt : stmt.Within σ.toCode) :
    Composed σ depth true (fun steps => Eval.execute steps stmt s) σ.Admits := by
  have heval : ∀ e : Expr, e.Within σ.toCode →
      Composed σ depth true (fun steps => Eval.evaluate steps e s) σ.Admits := fun _ =>
    expression hcalls hs
  have hnull : Composed σ depth true (fun _ => (Pure.pure .null : Eval Value)) σ.Admits :=
    pure (Setting.admits_of_plain rfl)
  induction hstmt with
  | declaration hdeclarators =>
    exact .step rfl ((declarators _ hdeclarators heval).bind fun _ _ => hnull)
  | @function name params body span hspan hbody =>
    refine .step rfl (freshId.bind fun id _ => ?_)
    have hf : σ.Admits (.function ⟨id, name, params, body, s⟩) :=
      Setting.admits_function hbody hs
    exact (located hspan (declare hf s name true)).bind fun _ _ => hnull
  | @conditional condition consequent alternate span hcondition _ _ ihconsequent ihalternate =>
    refine .step rfl ((heval condition hcondition).bind fun v _ => ?_)
    split
    · exact block ihconsequent
    · cases alternate with
      | some alternate => exact ihalternate alternate rfl
      | none => exact hnull
  | @loop condition body span hloops hcondition _ ih =>
    have htest : Composed σ depth true
        (fun steps => Value.isTruthy <$> Eval.evaluate steps condition s) fun _ => True :=
      (heval condition hcondition).map fun _ _ => trivial
    have hround : Composed σ depth true (fun steps => discard (Eval.executeBlock steps body s))
        fun _ => True := (block ih).map fun _ _ => trivial
    exact .step rfl ((loop hloops htest hround).bind fun _ _ => hnull)
  | block _ ih => exact .step rfl (block ih)
  | expression hexpr => exact .step rfl (heval _ hexpr)

/-- Bodies may be called at every depth: each call leaves less below the limit. -/
theorem calls (σ : Setting) (depth : Nat) : Calls σ depth := by
  induction hroom : σ.limit - depth generalizing depth with
  | zero => exact fun hdepth => absurd hdepth (by omega)
  | succ room ih =>
    intro _ body s hbody hs
    exact block fun stmt hstmt => statement (ih (depth + 1) (by omega)) hs (hbody stmt hstmt)

/-- **Executing a program of the code is composed.** -/
theorem program {program : Program} (hprogram : ∀ stmt ∈ program, stmt.Within σ.toCode)
    (hs : σ.scopes s) :
    Composed σ depth true (fun steps => Eval.program steps program s) σ.Admits :=
  sequence (Setting.admits_of_plain rfl) fun stmt hstmt =>
    statement (calls σ depth) hs (hprogram stmt hstmt)

end Composed

end Scriptlet
