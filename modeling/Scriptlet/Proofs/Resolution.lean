import Scriptlet.Proofs.Evaluation.Primitive
import Scriptlet.Proofs.Heap.Component
import Scriptlet.Proofs.Heap.Workbench

/-!
# Which binding a name means

Looking a name up starts at a scope and goes to the parents as long as the name is not bound. So it
comes to a scope exactly if that is on the way up and nothing nearer binds the name
(`Store.LooksIn`), and the name means the first binding that is met (`Store.Nearest`).

**Theorem (`resolution_law`).** In a forest of scopes, reading a name gives the value of its nearest
binding, assigning replaces the value of that same binding, and declaring adds a binding to one
scope. What a later look-up sees of it is exactly what comes to that scope; every other look-up is as
before. A change that fails changes nothing.

The ways up are bounded by the names of the scopes they start from, but in a forest the bound makes
no difference (`resolve?_eq`). After that, a new binding is followed down the same recursion: where a
look-up comes to the scope it ends there, and elsewhere it goes the way it went
(`resolve?_bind`).
-/

namespace Scriptlet

namespace Store

variable {store new : Store} {d e a id owner : ScopeId} {x y : String} {v : Value}
  {binding : Binding}

/-! ## The way up -/

/-- Whether a scope is another one or encloses it. -/
def OnWayUp (store : Store) (d a : ScopeId) : Prop := a = d ∨ store.Encloses a d

/-- Whether looking a name up in one scope comes to another: it is on the way up, and no nearer scope
binds the name. -/
def LooksIn (store : Store) (x : String) (d a : ScopeId) : Prop :=
  store.OnWayUp d a ∧
    ∀ b, store.OnWayUp d b → store.Encloses a b → (store.bindings b).get? x = none

/-- Whether a binding is the nearest one of a name on the way up from a scope, and whose it is. -/
def Nearest (store : Store) (d : ScopeId) (x : String) (owner : ScopeId) (binding : Binding) :
    Prop :=
  store.LooksIn x d owner ∧ (store.bindings owner).get? x = some binding

theorem onWayUp_iff :
    store.OnWayUp d a ↔ a = d ∨ ∃ p ∈ (store.scope? d).bind Scope.parent, store.OnWayUp p a :=
  or_congr_right encloses_iff

/-- A look-up goes from a scope to its parent if the scope does not bind the name. -/
theorem looksIn_iff (h : store.Forest) :
    store.LooksIn x d a ↔ a = d ∨ (store.bindings d).get? x = none ∧
      ∃ p ∈ (store.scope? d).bind Scope.parent, store.LooksIn x p a := by
  constructor
  · intro hlooks
    obtain ⟨hup, hnearer⟩ := hlooks
    rcases hup with rfl | hencloses
    · exact .inl rfl
    · obtain ⟨p, hp, hup⟩ := encloses_iff.mp hencloses
      refine .inr ⟨hnearer d (.inl rfl) hencloses, p, hp, hup, fun b hb => ?_⟩
      exact hnearer b (onWayUp_iff.mpr (.inr ⟨p, hp, hb⟩))
  · intro hcases
    rcases hcases with rfl | ⟨hnone, p, hp, hup, hnearer⟩
    · refine ⟨.inl rfl, fun b hb hencloses => ?_⟩
      -- What encloses a scope is older, so nothing on its way up is inside it.
      have hlt := h.encloses_lt hencloses
      rcases hb with rfl | hb
      · exact absurd hlt (Nat.lt_irrefl _)
      · exact absurd (hlt.trans (h.encloses_lt hb)) (Nat.lt_irrefl _)
    · refine ⟨onWayUp_iff.mpr (.inr ⟨p, hp, hup⟩), fun b hb hencloses => ?_⟩
      rcases onWayUp_iff.mp hb with rfl | ⟨q, hq, hb⟩
      · exact hnone
      · cases Option.mem_unique hp hq
        exact hnearer b hb hencloses

/-! ## Finding the nearest binding -/

theorem resolveWithin?_succ (x : String) (steps : Nat) (d : ScopeId) :
    store.resolveWithin? x (steps + 1) d =
      match (store.bindings d).get? x with
      | some binding => some (d, binding)
      | none => ((store.scope? d).bind Scope.parent).bind (store.resolveWithin? x steps) := by
  rw [resolveWithin?, bindings]
  cases store.scope? d with
  | none => rfl
  | some scope => rfl

/-- The bound on the way up makes no difference. -/
theorem Forest.resolveWithin?_eq (h : store.Forest) (x : String) {steps : Nat} (hlt : d < steps) :
    store.resolveWithin? x steps d = store.resolve? d x := by
  induction d using Nat.strong_induction_on generalizing steps with
  | _ d ih =>
    obtain ⟨steps, rfl⟩ := Nat.exists_eq_succ_of_ne_zero (Nat.ne_zero_of_lt hlt)
    rw [resolve?, resolveWithin?_succ, resolveWithin?_succ]
    cases hget : (store.bindings d).get? x with
    | some binding => rfl
    | none =>
      cases hp : (store.scope? d).bind Scope.parent with
      | none => rfl
      | some p =>
        have hpd := h.parent_lt hp
        have hps : p < steps := hpd.trans_le (Nat.lt_succ_iff.mp hlt)
        exact (ih p hpd hps).trans (ih p hpd hpd).symm

/-- **A name means the binding of a scope itself, or else what it means in the parent.** -/
theorem Forest.resolve?_eq (h : store.Forest) (d : ScopeId) (x : String) :
    store.resolve? d x =
      match (store.bindings d).get? x with
      | some binding => some (d, binding)
      | none => ((store.scope? d).bind Scope.parent).bind (store.resolve? · x) := by
  rw [resolve?, resolveWithin?_succ]
  cases hget : (store.bindings d).get? x with
  | some binding => rfl
  | none =>
    cases hp : (store.scope? d).bind Scope.parent with
    | none => rfl
    | some p => exact h.resolveWithin?_eq x (h.parent_lt hp)

theorem Forest.resolve?_eq_some_iff (h : store.Forest) :
    store.resolve? d x = some (owner, binding) ↔ store.Nearest d x owner binding := by
  induction d using Nat.strong_induction_on with
  | _ d ih =>
    rw [h.resolve?_eq, Nearest, looksIn_iff h]
    cases hget : (store.bindings d).get? x with
    | some found =>
      constructor
      · intro heq
        cases heq
        exact ⟨.inl rfl, hget⟩
      · intro hnearest
        obtain ⟨rfl | ⟨hnone, -⟩, hbound⟩ := hnearest
        · rw [hget] at hbound
          cases hbound
          rfl
        · cases hnone
    | none =>
      rw [Option.bind_eq_some_iff]
      simp only [Option.mem_def, true_and]
      constructor
      · intro hfound
        obtain ⟨p, hp, hresolve⟩ := hfound
        obtain ⟨hlooks, hbound⟩ := (ih p (h.parent_lt hp)).mp hresolve
        exact ⟨.inr ⟨p, hp, hlooks⟩, hbound⟩
      · intro hnearest
        obtain ⟨rfl | ⟨p, hp, hlooks⟩, hbound⟩ := hnearest
        · simp [hget] at hbound
        · exact ⟨p, hp, (ih p (h.parent_lt hp)).mpr ⟨hlooks, hbound⟩⟩

theorem Forest.resolve?_eq_none_iff (h : store.Forest) :
    store.resolve? d x = none ↔ ∀ a, store.OnWayUp d a → (store.bindings a).get? x = none := by
  induction d using Nat.strong_induction_on with
  | _ d ih =>
    rw [h.resolve?_eq]
    cases hget : (store.bindings d).get? x with
    | some found =>
      simp only [reduceCtorEq, false_iff, not_forall]
      exact ⟨d, .inl rfl, by simp [hget]⟩
    | none =>
      simp only [Option.bind_eq_none_iff]
      constructor
      · intro hnone a hup
        rcases onWayUp_iff.mp hup with rfl | ⟨p, hp, hup⟩
        · exact hget
        · exact (ih p (h.parent_lt hp)).mp (hnone p hp) a hup
      · intro hnone p hp
        exact (ih p (h.parent_lt hp)).mpr fun a hup =>
          hnone a (onWayUp_iff.mpr (.inr ⟨p, hp, hup⟩))

/-! ## What a new binding changes -/

/-- A store with one binding of one scope written: every scope is where it was and has the bindings
that it had, but for this one. -/
structure Rebinds (new old : Store) (owner : ScopeId) (x : String) (binding : Binding) : Prop where
  fresh : new.fresh = old.fresh
  parent : ∀ id, (new.scope? id).map Scope.parent = (old.scope? id).map Scope.parent
  written : (new.bindings owner).get? x = some binding
  kept : ∀ id y, ¬(id = owner ∧ y = x) → (new.bindings id).get? y = (old.bindings id).get? y

theorem rebinds_bind (hholds : store.holds owner = true) (x : String) (binding : Binding) :
    (store.bind owner x binding).Rebinds store owner x binding := by
  obtain ⟨scope, hscope⟩ := holds_iff.mp hholds
  refine ⟨fresh_bind _ _ _ _, fun id => ?_, ?_, fun id y hother => ?_⟩
  · rw [scope?_bind]
    split
    · rename_i heq
      subst heq
      simp [Function.comp_def]
    · rfl
  · simp [bindings, scope?_bind, hscope, Record.get?_put]
  · rw [bindings, bindings, scope?_bind]
    split
    · rename_i heq
      subst heq
      have hname : ¬x = y := fun hxy => hother ⟨rfl, hxy.symm⟩
      simp [hscope, Record.get?_put, hname]
    · rfl

namespace Rebinds

theorem bind_parent (h : new.Rebinds store owner x binding) (id : ScopeId) :
    (new.scope? id).bind Scope.parent = (store.scope? id).bind Scope.parent := by
  have hparent := h.parent id
  cases hnew : new.scope? id <;> cases hold : store.scope? id <;> simp_all

theorem forest (h : new.Rebinds store owner x binding) (hforest : store.Forest) : new.Forest := by
  intro id scope hs p hp
  refine hforest.parent_lt ?_
  rw [← h.bind_parent id, hs]
  exact hp

/-- **A look-up that comes to the scope ends there; every other one ends where it did.** -/
theorem resolve?_eq (h : new.Rebinds store owner x binding) (hforest : store.Forest)
    (d : ScopeId) :
    (store.LooksIn x d owner → new.resolve? d x = some (owner, binding)) ∧
      ∀ y, ¬(y = x ∧ store.LooksIn x d owner) → new.resolve? d y = store.resolve? d y := by
  induction d using Nat.strong_induction_on with
  | _ d ih =>
    refine ⟨fun hlooks => ?_, fun y hother => ?_⟩
    · rw [(h.forest hforest).resolve?_eq, h.bind_parent]
      by_cases hd : d = owner
      · subst hd
        rw [h.written]
      · rcases (looksIn_iff hforest).mp hlooks with heq | ⟨hnone, p, hp, hlooks⟩
        · exact absurd heq.symm hd
        · rw [h.kept d x fun hboth => hd hboth.1, hnone]
          simpa [Option.mem_def.mp hp] using (ih p (hforest.parent_lt hp)).1 hlooks
    · have hget : (new.bindings d).get? y = (store.bindings d).get? y := by
        refine h.kept d y fun hboth => hother ⟨hboth.2, ?_⟩
        rw [hboth.1]
        exact (looksIn_iff hforest).mpr (.inl rfl)
      rw [(h.forest hforest).resolve?_eq, hforest.resolve?_eq, h.bind_parent, hget]
      cases hfound : (store.bindings d).get? y with
      | some found => rfl
      | none =>
        cases hp : (store.scope? d).bind Scope.parent with
        | none => rfl
        | some p =>
          refine (ih p (hforest.parent_lt hp)).2 y fun hboth => hother ⟨hboth.1, ?_⟩
          obtain ⟨rfl, hlooks⟩ := hboth
          exact (looksIn_iff hforest).mpr (.inr ⟨hfound, p, hp, hlooks⟩)

theorem lookup_eq (h : new.Rebinds store owner x binding) (hforest : store.Forest) (d : ScopeId) :
    (store.LooksIn x d owner → new.lookup d x = .ok binding.value) ∧
      ∀ y, ¬(y = x ∧ store.LooksIn x d owner) → new.lookup d y = store.lookup d y := by
  obtain ⟨hends, helse⟩ := h.resolve?_eq hforest d
  refine ⟨fun hlooks => ?_, fun y hother => ?_⟩
  · rw [lookup, hends hlooks]
  · rw [lookup, lookup, helse y hother]

end Rebinds

/-! ## Reading, assigning, declaring -/

theorem Forest.lookup_eq_ok_iff (h : store.Forest) :
    store.lookup d x = .ok v ↔ ∃ owner binding, store.Nearest d x owner binding ∧
      binding.value = v := by
  simp only [← h.resolve?_eq_some_iff]
  rw [lookup]
  cases store.resolve? d x with
  | none => simp
  | some found =>
    obtain ⟨owner, binding⟩ := found
    simp

theorem Forest.lookup_eq_error_iff (h : store.Forest) {fault : Fault} :
    store.lookup d x = .error fault ↔ fault = .undeclaredVariable x ∧
      ∀ a, store.OnWayUp d a → (store.bindings a).get? x = none := by
  rw [← h.resolve?_eq_none_iff, lookup]
  cases store.resolve? d x with
  | none => simp [eq_comm]
  | some found => simp

theorem Forest.assign_eq_error_iff (h : store.Forest) {fault : Fault} :
    store.assign e x v = .error fault ↔
      (fault = .undeclaredVariable x ∧ store.lookup e x = .error (.undeclaredVariable x)) ∨
      (fault = .constAssignment x ∧
        ∃ owner binding, store.Nearest e x owner binding ∧ binding.constant = true) := by
  simp only [← h.resolve?_eq_some_iff]
  rw [assign, lookup]
  cases store.resolve? e x with
  | none => simp [eq_comm (a := fault)]
  | some found =>
    obtain ⟨owner, binding⟩ := found
    cases hconstant : binding.constant <;> simp [hconstant, eq_comm (a := fault)]

theorem holds_of_get? (hget : (store.bindings owner).get? x = some binding) :
    store.holds owner = true := by
  cases hscope : store.scope? owner with
  | none => simp [bindings, hscope, Record.get?] at hget
  | some scope => exact holds_iff.mpr ⟨scope, hscope⟩

/-- Assigning writes the nearest binding, which is no constant. -/
theorem Forest.rebinds_assign (h : store.Forest) (hnew : store.assign e x v = .ok new) :
    ∃ owner binding, store.Nearest e x owner binding ∧ binding.constant = false ∧
      new.Rebinds store owner x { binding with value := v } := by
  rw [assign] at hnew
  cases hfound : store.resolve? e x with
  | none => simp [hfound] at hnew
  | some found =>
    obtain ⟨owner, binding⟩ := found
    have hnearest := h.resolve?_eq_some_iff.mp hfound
    simp only [hfound] at hnew
    split at hnew
    · cases hnew
    · rename_i hvariable
      cases hnew
      exact ⟨owner, binding, hnearest, by simpa using hvariable,
        rebinds_bind (holds_of_get? hnearest.2) x _⟩

theorem declare_eq_error_iff {constant : Bool} {fault : Fault} :
    store.declare e x v constant = .error fault ↔
      fault = .duplicateDeclaration x ∧ ∃ binding, (store.bindings e).get? x = some binding := by
  rw [declare]
  cases (store.bindings e).get? x with
  | none => simp
  | some binding => simp [eq_comm (a := fault)]

theorem rebinds_declare {constant : Bool} (hholds : store.holds e = true)
    (hnew : store.declare e x v constant = .ok new) : new.Rebinds store e x ⟨v, constant⟩ := by
  rw [declare] at hnew
  cases hget : (store.bindings e).get? x with
  | none =>
    simp only [hget] at hnew
    cases hnew
    exact rebinds_bind hholds x _
  | some binding => simp [hget] at hnew

/-! ## The law -/

/-- What reading, assigning and declaring a name in a scope come to. -/
structure ResolutionLaw (store : Store) (e : ScopeId) (x : String) (v : Value) (constant : Bool) :
    Prop where
  /-- Reading gives the value of the nearest binding, -/
  lookup_ok : ∀ w, store.lookup e x = .ok w ↔
    ∃ owner binding, store.Nearest e x owner binding ∧ binding.value = w
  /-- and fails if there is none on the way up. -/
  lookup_error : ∀ fault, store.lookup e x = .error fault ↔ fault = .undeclaredVariable x ∧
    ∀ a, store.OnWayUp e a → (store.bindings a).get? x = none
  /-- Assigning fails where reading does, and if the nearest binding is a constant. -/
  assign_error : ∀ fault, store.assign e x v = .error fault ↔
    (fault = .undeclaredVariable x ∧ store.lookup e x = .error (.undeclaredVariable x)) ∨
    (fault = .constAssignment x ∧
      ∃ owner binding, store.Nearest e x owner binding ∧ binding.constant = true)
  /-- Otherwise it replaces the value of that binding, which changes the look-ups that end there. -/
  assign_ok : ∀ new, store.assign e x v = .ok new →
    ∃ owner binding, store.Nearest e x owner binding ∧ binding.constant = false ∧
      new.Rebinds store owner x { binding with value := v } ∧
      ∀ d, (store.Nearest d x owner binding → new.lookup d x = .ok v) ∧
        ∀ y, ¬(y = x ∧ store.Nearest d x owner binding) → new.lookup d y = store.lookup d y
  /-- Declaring fails if the scope itself binds the name. -/
  declare_error : ∀ fault, store.declare e x v constant = .error fault ↔
    fault = .duplicateDeclaration x ∧ ∃ binding, (store.bindings e).get? x = some binding
  /-- Otherwise it adds a binding, which changes the look-ups that come to the scope. -/
  declare_ok : ∀ new, store.declare e x v constant = .ok new →
    new.Rebinds store e x ⟨v, constant⟩ ∧
      ∀ d, (store.LooksIn x d e → new.lookup d x = .ok v) ∧
        ∀ y, ¬(y = x ∧ store.LooksIn x d e) → new.lookup d y = store.lookup d y
  /-- What fails changes nothing. -/
  failed : ∀ (m m' : Machine) (halt : Halt),
    Eval.lookup e x m = .error halt m' ∨ Eval.assign e x v m = .error halt m' ∨
      Eval.declare e x v constant m = .error halt m' → m' = m

theorem eq_of_changeStore_error {change : Store → Except Fault Store} {m m' : Machine} {halt : Halt}
    (herror : Eval.changeStore change m = .error halt m') : m' = m := by
  rw [Eval.changeStore_apply] at herror
  split at herror
  · cases herror
  · cases herror
    rfl

/-- **In every forest of scopes, names are read, assigned and declared as the law says.** -/
theorem resolution_law (h : store.Forest) (hholds : store.holds e = true) (x : String) (v : Value)
    (constant : Bool) : store.ResolutionLaw e x v constant where
  lookup_ok _ := h.lookup_eq_ok_iff
  lookup_error _ := h.lookup_eq_error_iff
  assign_error _ := h.assign_eq_error_iff
  assign_ok new hnew := by
    obtain ⟨owner, binding, hnearest, hvariable, hrebinds⟩ := h.rebinds_assign hnew
    refine ⟨owner, binding, hnearest, hvariable, hrebinds, fun d => ?_⟩
    have hends : store.Nearest d x owner binding ↔ store.LooksIn x d owner :=
      ⟨And.left, fun hlooks => ⟨hlooks, hnearest.2⟩⟩
    simpa only [hends] using hrebinds.lookup_eq h d
  declare_error _ := declare_eq_error_iff
  declare_ok new hnew := ⟨rebinds_declare hholds hnew, (rebinds_declare hholds hnew).lookup_eq h⟩
  failed m m' halt hfailed := by
    rcases hfailed with hlookup | hassign | hdeclare
    · rw [Eval.lookup_apply] at hlookup
      split at hlookup
      · cases hlookup
      · cases hlookup
        rfl
    · exact eq_of_changeStore_error hassign
    · exact eq_of_changeStore_error hdeclare

/-- A variable that hides a constant: assigning from below writes the variable, and who reads the
constant goes on reading it. -/
theorem resolution_law_shadowed :
    let store := (Workbench.empty.after [.newScope "root" none, .newScope "outer" (some "root"),
      .newScope "inner" (some "outer"), .declare "root" "x" (.literal (.text "c")) true,
      .declare "outer" "x" (.literal (.text "v")) false]).heap.store
    store.Forest ∧ store.holds 2 = true ∧ ∃ new, store.assign 2 "x" .null = .ok new ∧
      new.lookup 1 "x" = .ok .null ∧ new.lookup 0 "x" = store.lookup 0 "x" := by
  intro store
  have hforest : store.Forest := (Workbench.history_after [.newScope "root" none,
    .newScope "outer" (some "root"), .newScope "inner" (some "outer"),
    .declare "root" "x" (.literal (.text "c")) true,
    .declare "outer" "x" (.literal (.text "v")) false]
    (by simp [Command.Plain, Command.specs, ValueSpec.Plain, Value.node?])).sound.parent_lt
  have hholds : store.holds 2 = true := by decide +kernel
  have hassigns : (store.assign 2 "x" .null).isOk = true := by decide +kernel
  cases hnew : store.assign 2 "x" .null with
  | error fault => simp [hnew, Except.isOk, Except.toBool] at hassigns
  | ok new =>
    obtain ⟨owner, binding, hnearest, -, -, hlookups⟩ :=
      (resolution_law hforest hholds "x" .null false).assign_ok new hnew
    have howner : (store.resolve? 2 "x").map Prod.fst = some 1 := by decide +kernel
    obtain rfl : owner = 1 := by simpa [hforest.resolve?_eq_some_iff.mpr hnearest] using howner
    refine ⟨hforest, hholds, new, rfl, (hlookups 1).1 ⟨(looksIn_iff hforest).mpr (.inl rfl),
      hnearest.2⟩, (hlookups 0).2 "x" fun hboth => ?_⟩
    rcases hboth.2.1.1 with heq | hencloses
    · cases heq
    · exact absurd (hforest.encloses_lt hencloses) (by decide)

end Store

end Scriptlet
