import Scriptlet.Proofs.Bindings
import Scriptlet.Proofs.Evaluation.Kept

/-!
# What happens before the body of a call

A call of a declared function has its body run in a scope that is made for it. Before that it can
fail in three ways only: there are fewer arguments than parameters, there is no room for another body
below the depth limit, or two parameters have the same name (`Eval.Refuses`), in this order. The last
comes about because parameters are bound one after the other like any other name.

**Theorem (`Session.calls_enter`).** A call stops at the entry exactly for one of these reasons, and
then no scope has changed. Otherwise the body runs in a new scope in the scope of the declaration,
where each parameter is a variable bound to the argument at its position, and nothing else is bound.

To stop at the entry is to end in the same way whatever running a body does (`Eval.StopsAtEntry`).
-/

namespace Scriptlet

open Record (names)

/-! ## Binding parameters -/

/-- A store with one scope of an earlier one replaced. -/
structure Store.Replaces (new old : Store) (s : ScopeId) (scope : Scope) : Prop where
  fresh : new.fresh = old.fresh
  scope : new.scope? s = some scope
  others : ∀ other, other ≠ s → new.scope? other = old.scope? other

namespace Eval

variable {m : Machine} {s : ScopeId} {parent : Option ScopeId} {bound : Record Binding}
  {pairs : List (String × Value)} {name : String} {v : Value} {f : Function} {args : List Value}

/-- The bindings of parameters to arguments. -/
def parameters (pairs : List (String × Value)) : Record Binding :=
  pairs.map fun pair => (pair.1, ⟨pair.2, false⟩)

theorem declare_of_new (hscope : m.heap.store.scope? s = some ⟨parent, bound⟩)
    (hnew : name ∉ names bound) :
    ∃ store, declare s name v false m = .ok () (m.withStore store) ∧
      store.Replaces m.heap.store s ⟨parent, bound ++ [(name, ⟨v, false⟩)]⟩ := by
  have hbound : m.heap.store.bindings s = bound := by simp [Store.bindings, hscope]
  have hget : bound.get? name = none := Record.get?_eq_none_iff.mpr hnew
  refine ⟨m.heap.store.bind s name ⟨v, false⟩, ?_, Store.fresh_bind _ _ _ _, ?_, ?_⟩
  · rw [declare, changeStore_apply, Store.declare, hbound, hget]
  · simp [Store.scope?_bind, hscope, Record.put_of_get?_eq_none hget]
  · intro other hother
    rw [Store.scope?_bind, if_neg (Ne.symm hother)]

theorem declare_of_bound (hscope : m.heap.store.scope? s = some ⟨parent, bound⟩)
    (hbound : name ∈ names bound) :
    declare s name v false m =
      .error (.failure (Failure.placeless (.duplicateDeclaration name))) m := by
  have hbindings : m.heap.store.bindings s = bound := by simp [Store.bindings, hscope]
  have hget : bound.get? name ≠ none := fun hnone => Record.get?_eq_none_iff.mp hnone hbound
  obtain ⟨binding, hget⟩ := Option.ne_none_iff_exists'.mp hget
  rw [declare, changeStore_apply, Store.declare, hbindings, hget]

theorem bindParams_append (s : ScopeId) (pairs rest : List (String × Value)) :
    bindParams s (pairs ++ rest) = (do bindParams s pairs; bindParams s rest) := by
  induction pairs with
  | nil => rfl
  | cons pair pairs ih => simp only [List.cons_append, bindParams, ih, bind_assoc]

/-- **Distinct parameters are all bound.** -/
theorem bindParams_of_nodup (hscope : m.heap.store.scope? s = some ⟨parent, bound⟩)
    (hnodup : (names bound ++ pairs.map Prod.fst).Nodup) :
    ∃ store, bindParams s pairs m = .ok () (m.withStore store) ∧
      store.Replaces m.heap.store s ⟨parent, bound ++ parameters pairs⟩ := by
  induction pairs generalizing m bound with
  | nil =>
    exact ⟨m.heap.store, rfl, rfl, by simpa [parameters] using hscope, fun _ _ => rfl⟩
  | cons pair rest ih =>
    have hnew : pair.1 ∉ names bound := by
      intro hmem
      exact (List.nodup_append.mp hnodup).2.2 _ hmem _ List.mem_cons_self rfl
    obtain ⟨store, hdeclare, hfresh, hbound, hothers⟩ := declare_of_new (v := pair.2) hscope hnew
    have hrest : (names (bound ++ [(pair.1, (⟨pair.2, false⟩ : Binding))]) ++
        rest.map Prod.fst).Nodup := by
      simpa [names] using hnodup
    obtain ⟨last, hbind, hlast⟩ := ih (m := m.withStore store) hbound hrest
    refine ⟨last, (bind_of_ok hdeclare).trans hbind, hlast.fresh.trans hfresh, ?_, ?_⟩
    · simpa [parameters] using hlast.scope
    · exact fun other hother => (hlast.others other hother).trans (hothers other hother)

/-- **A repeated parameter is reported.** -/
theorem bindParams_of_repeated (hscope : m.heap.store.scope? s = some ⟨parent, bound⟩)
    (hnodup : (names bound ++ pairs.map Prod.fst).Nodup)
    (hrepeated : name ∈ names bound ++ pairs.map Prod.fst) (rest : List (String × Value)) :
    ∃ store scope, store.Replaces m.heap.store s scope ∧
      bindParams s (pairs ++ (name, v) :: rest) m =
        .error (.failure (Failure.placeless (.duplicateDeclaration name))) (m.withStore store) := by
  obtain ⟨store, hbind, hstore⟩ := bindParams_of_nodup hscope hnodup
  refine ⟨store, _, hstore, ?_⟩
  have hbound : name ∈ names (bound ++ parameters pairs) := by
    simpa [names, parameters] using hrepeated
  rw [bindParams_append]
  refine (bind_of_ok hbind).trans (bind_of_error ?_)
  exact declare_of_bound (m := m.withStore store) hstore.scope hbound

/-! ## Entering -/

theorem scope?_newScope_fresh (store : Store) (parent : Option ScopeId) :
    (store.newScope parent).2.scope? store.fresh = some ⟨parent, []⟩ := by
  rw [Store.scope?_newScope, if_pos rfl]

theorem scope?_newScope_of_ne (store : Store) (parent : Option ScopeId) {other : ScopeId}
    (hother : other ≠ store.fresh) : (store.newScope parent).2.scope? other = store.scope? other := by
  rw [Store.scope?_newScope, if_neg (Ne.symm hother)]

/-- **With distinct parameters and enough arguments, a scope is made in which just the parameters are
bound.** -/
theorem enter_of_nodup (hargs : f.params.length ≤ args.length) (hnodup : f.params.Nodup) :
    ∃ store, enter f args m = .ok m.heap.store.fresh (m.withStore store) ∧
      store.fresh = m.heap.store.fresh + 1 ∧
      store.scope? m.heap.store.fresh =
        some ⟨some f.closure, parameters (f.params.zip args)⟩ ∧
      ∀ other, other ≠ m.heap.store.fresh → store.scope? other = m.heap.store.scope? other := by
  have hnames : (names ([] : Record Binding) ++ (f.params.zip args).map Prod.fst).Nodup := by
    simpa [names, List.map_fst_zip hargs] using hnodup
  obtain ⟨store, hbind, hstore⟩ := bindParams_of_nodup
    (m := m.withStore (m.heap.store.newScope (some f.closure)).2)
    (scope?_newScope_fresh m.heap.store (some f.closure)) hnames
  refine ⟨store, ?_, hstore.fresh, hstore.scope, fun other hother => ?_⟩
  · exact (bind_of_ok (openScope_apply _ _)).trans (bind_of_ok (orDrop_ok hbind))
  · exact (hstore.others other hother).trans (scope?_newScope_of_ne _ _ hother)

/-- **A repeated parameter is reported, and the scope that was made is gone.** -/
theorem enter_of_repeated (hargs : f.params.length ≤ args.length) {before rest : List String}
    (hparams : f.params = before ++ name :: rest) (hnodup : before.Nodup) (hname : name ∈ before) :
    ∃ store, enter f args m =
        .error (.failure (Failure.placeless (.duplicateDeclaration name))) (m.withStore store) ∧
      store.scope? m.heap.store.fresh = none ∧
      ∀ other, other ≠ m.heap.store.fresh → store.scope? other = m.heap.store.scope? other := by
  have hfirsts := (List.map_fst_zip hargs).trans hparams
  obtain ⟨pairs, others, hzip, hbefore, hothers⟩ := List.map_eq_append_iff.mp hfirsts
  obtain ⟨⟨key, v⟩, last, rfl, hkey, -⟩ := List.map_eq_cons_iff.mp hothers
  obtain rfl : key = name := hkey
  have hdistinct : (names ([] : Record Binding) ++ pairs.map Prod.fst).Nodup := by
    simpa [names, hbefore] using hnodup
  have hrepeated : key ∈ names ([] : Record Binding) ++ pairs.map Prod.fst := by
    simpa [names, hbefore] using hname
  obtain ⟨store, scope, hstore, hbind⟩ := bindParams_of_repeated (v := v)
    (m := m.withStore (m.heap.store.newScope (some f.closure)).2)
    (scope?_newScope_fresh m.heap.store (some f.closure)) hdistinct hrepeated last
  rw [← hzip] at hbind
  refine ⟨store.erase m.heap.store.fresh, ?_, ?_, fun other hother => ?_⟩
  · exact (bind_of_ok (openScope_apply _ _)).trans (bind_of_error (orDrop_error hbind))
  · rw [Store.scope?_erase, if_pos rfl]
  · rw [Store.scope?_erase, if_neg (Ne.symm hother)]
    exact (hstore.others other hother).trans (scope?_newScope_of_ne _ _ hother)

/-! ## Calling -/

/-- Why a call of a declared function stops at its entry, with the fault. -/
inductive Refuses (f : Function) (args : List Value) (m : Machine) : Fault → Prop where
  | fewArguments (h : args.length < f.params.length) :
    Refuses f args m (.arityMismatch f.name f.params.length args.length)
  | depthReached (hargs : f.params.length ≤ args.length) (h : m.limit ≤ m.depth) :
    Refuses f args m (.callDepthExceeded m.limit)
  /-- The first parameter with the name of an earlier one. -/
  | repeatedParameter (hargs : f.params.length ≤ args.length) (hdepth : m.depth < m.limit)
    {before rest : List String} {name : String} (hparams : f.params = before ++ name :: rest)
    (hnodup : before.Nodup) (hname : name ∈ before) : Refuses f args m (.duplicateDeclaration name)

/-- Whether a call ends with a fault whatever running a body does, and with which machine. -/
def StopsAtEntry (f : Function) (args : List Value) (m : Machine) (fault : Fault)
    (after : Machine) : Prop :=
  ∀ run, callFunction run f args m = .error (.failure (Failure.placeless fault)) after

/-- Whether a call runs the body in some scope, on some machine. -/
def RunsBody (f : Function) (args : List Value) (m : Machine) (scope : ScopeId)
    (opened : Machine) : Prop :=
  ∀ run, callFunction run f args m = inBody scope (run f.body scope) opened

theorem exists_repeated {names : List String} (h : ¬names.Nodup) :
    ∃ before name rest, names = before ++ name :: rest ∧ before.Nodup ∧ name ∈ before := by
  induction names using List.reverseRecOn with
  | nil => exact absurd List.nodup_nil h
  | append_singleton names last ih =>
    by_cases hnodup : names.Nodup
    · refine ⟨names, last, [], rfl, hnodup, ?_⟩
      by_contra hlast
      refine h (List.nodup_append.mpr ⟨hnodup, List.nodup_singleton last, ?_⟩)
      rintro a ha b hb rfl
      exact hlast (List.mem_singleton.mp hb ▸ ha)
    · obtain ⟨before, name, rest, rfl, hbefore, hname⟩ := ih hnodup
      exact ⟨before, name, rest ++ [last], by simp, hbefore, hname⟩

/-- **With distinct parameters, enough arguments and room below the limit, the body runs.** -/
theorem runsBody_of_nodup (hargs : f.params.length ≤ args.length) (hdepth : m.depth < m.limit)
    (hnodup : f.params.Nodup) :
    ∃ store, RunsBody f args m m.heap.store.fresh (m.withStore store) ∧
      store.scope? m.heap.store.fresh =
        some ⟨some f.closure, parameters (f.params.zip args)⟩ ∧
      ∀ other, other ≠ m.heap.store.fresh → store.scope? other = m.heap.store.scope? other := by
  obtain ⟨store, henter, -, hscope, hothers⟩ := enter_of_nodup (m := m) hargs hnodup
  refine ⟨store, fun run => ?_, hscope, hothers⟩
  rw [callFunction_eq, if_neg (Nat.not_lt_of_le hargs)]
  exact (bind_of_ok (checkDepth_of_lt hdepth)).trans (bind_of_ok henter)

/-- **For every stated reason the call stops at the entry.** -/
theorem Refuses.stopsAtEntry {fault : Fault} (h : Refuses f args m fault)
    (hfresh : m.heap.store.scope? m.heap.store.fresh = none) :
    ∃ after, StopsAtEntry f args m fault after ∧
      ∀ id, after.heap.store.scope? id = m.heap.store.scope? id := by
  cases h with
  | fewArguments hfew =>
    refine ⟨m, fun run => ?_, fun _ => rfl⟩
    rw [callFunction_eq, if_pos hfew]
    rfl
  | depthReached hargs hdepth =>
    refine ⟨m, fun run => ?_, fun _ => rfl⟩
    rw [callFunction_eq, if_neg (Nat.not_lt_of_le hargs)]
    exact bind_of_error (checkDepth_of_le hdepth)
  | repeatedParameter hargs hdepth hparams hnodup hname =>
    obtain ⟨store, henter, hgone, hothers⟩ := enter_of_repeated (m := m) hargs hparams hnodup hname
    refine ⟨m.withStore store, fun run => ?_, fun id => ?_⟩
    · rw [callFunction_eq, if_neg (Nat.not_lt_of_le hargs)]
      exact (bind_of_ok (checkDepth_of_lt hdepth)).trans (bind_of_error henter)
    · by_cases hid : id = m.heap.store.fresh
      · subst hid
        exact hgone.trans hfresh.symm
      · exact hothers id hid

/-- What a call comes to: it is refused, or its parameters are distinct, the arguments suffice and
there is room. -/
theorem refuses_or_enters (f : Function) (args : List Value) (m : Machine) :
    (∃ fault, Refuses f args m fault) ∨
      f.params.length ≤ args.length ∧ m.depth < m.limit ∧ f.params.Nodup := by
  by_cases hargs : f.params.length ≤ args.length
  · by_cases hdepth : m.depth < m.limit
    · by_cases hnodup : f.params.Nodup
      · exact .inr ⟨hargs, hdepth, hnodup⟩
      · obtain ⟨before, name, rest, hparams, hbefore, hname⟩ := exists_repeated hnodup
        exact .inl ⟨_, .repeatedParameter hargs hdepth hparams hbefore hname⟩
    · exact .inl ⟨_, .depthReached hargs (Nat.le_of_not_lt hdepth)⟩
  · exact .inl ⟨_, .fewArguments (Nat.lt_of_not_le hargs)⟩

/-- A body can always be run without failing, so a call that runs it does not stop at the entry. -/
theorem not_stopsAtEntry_of_runsBody {scope : ScopeId} {opened after : Machine} {fault : Fault}
    (hruns : RunsBody f args m scope opened) : ¬StopsAtEntry f args m fault after := by
  intro hstops
  have hok : inBody scope (pure .null) opened =
      .ok .null ({ entered opened scope with owners := opened.owners }.leave scope [.null]) :=
    inBody_ok rfl
  have hsame := (hruns fun _ _ => pure .null).symm.trans (hstops fun _ _ => pure .null)
  rw [hok] at hsame
  cases hsame

end Eval

namespace Session

open Eval

/-- **A call stops at the entry exactly for a stated reason, and then no scope has changed.
Otherwise its body runs in a new scope in the scope of the declaration, where each parameter is a
variable bound to the argument at its position and nothing else is bound.** -/
theorem calls_enter (console : Console) (limit : Nat) :
    (∀ row : List Step, (start console limit).Legal row →
      ((start console limit).after row).working.SoundWith []) ∧
    ∀ (m : Machine) (f : Function) (args : List Value), m.SoundWith args →
      (∀ fault, (∃ after, StopsAtEntry f args m fault after) ↔ Refuses f args m fault) ∧
      (∀ fault after, StopsAtEntry f args m fault after →
        ∀ id, after.heap.store.scope? id = m.heap.store.scope? id) ∧
      ((∀ fault, ¬Refuses f args m fault) →
        ∃ scope store, RunsBody f args m scope (m.withStore store) ∧
          m.heap.store.scope? scope = none ∧
          store.scope? scope = some ⟨some f.closure, parameters (f.params.zip args)⟩ ∧
          ∀ other, other ≠ scope → store.scope? other = m.heap.store.scope? other) := by
  refine ⟨fun row => sound_working console limit, fun m f args hsound => ?_⟩
  have hfresh : m.heap.store.scope? m.heap.store.fresh = none := by
    by_contra hsome
    obtain ⟨scope, hscope⟩ := Option.ne_none_iff_exists'.mp hsome
    exact Nat.lt_irrefl _ (hsound.id_lt _ (Store.present_of_scope hscope))
  have hunique : ∀ fault after, StopsAtEntry f args m fault after →
      Refuses f args m fault ∧ ∀ id, after.heap.store.scope? id = m.heap.store.scope? id := by
    intro fault after hstops
    rcases refuses_or_enters f args m with ⟨reason, hrefuses⟩ | ⟨hargs, hdepth, hnodup⟩
    · obtain ⟨stopped, hreason, hsame⟩ := hrefuses.stopsAtEntry hfresh
      have heq := (hstops fun _ _ => pure .null).symm.trans (hreason fun _ _ => pure .null)
      cases heq
      exact ⟨hrefuses, hsame⟩
    · obtain ⟨store, hruns, -⟩ := runsBody_of_nodup hargs hdepth hnodup
      exact absurd hstops (not_stopsAtEntry_of_runsBody hruns)
  refine ⟨fun fault => ⟨?_, ?_⟩, fun fault after hstops => (hunique fault after hstops).2, ?_⟩
  · intro hexists
    obtain ⟨after, hstops⟩ := hexists
    exact (hunique fault after hstops).1
  · intro hrefuses
    obtain ⟨after, hstops, -⟩ := hrefuses.stopsAtEntry hfresh
    exact ⟨after, hstops⟩
  · intro hnone
    rcases refuses_or_enters f args m with ⟨fault, hrefuses⟩ | ⟨hargs, hdepth, hnodup⟩
    · exact absurd hrefuses (hnone fault)
    · obtain ⟨store, hruns, hscope, hothers⟩ := runsBody_of_nodup hargs hdepth hnodup
      exact ⟨_, store, hruns, hfresh, hscope, hothers⟩

/-- The parameters of the function that a name means in the root scope. -/
def params? (s : Session) (name : String) : Option (List String) :=
  match s.working.heap.store.lookup 0 name with
  | .ok (.function f) => some f.params
  | _ => none

theorem exists_of_params? {s : Session} {name : String} {params : List String}
    (h : s.params? name = some params) :
    ∃ f, s.working.heap.store.lookup 0 name = .ok (.function f) ∧ f.params = params := by
  unfold params? at h
  split at h
  · rename_i f hlookup
    exact ⟨f, hlookup, Option.some.inj h⟩
  · cases h

/-- A call with an argument too many. -/
theorem calls_enter_pair :
    let s := (start (Console.ofLines []) defaultDepthLimit).after [.evaluate "def f(a, b) { a }"]
    let args : List Value := [.text "x", .null, .boolean true]
    s.working.SoundWith args ∧
      ∃ f scope store, s.working.heap.store.lookup 0 "f" = .ok (.function f) ∧
        RunsBody f args s.working scope (s.working.withStore store) ∧
        s.working.heap.store.scope? scope = none ∧ store.scope? scope =
          some ⟨some f.closure, [("a", ⟨.text "x", false⟩), ("b", ⟨.null, false⟩)]⟩ := by
  intro s args
  have hlegal : (start (Console.ofLines []) defaultDepthLimit).Legal
      [.evaluate "def f(a, b) { a }"] := legal_of_plain _ (by simp [Step.args])
  obtain ⟨hsessions, hcalls⟩ := calls_enter (Console.ofLines []) defaultDepthLimit
  have hbase : s.working.SoundWith [] := hsessions _ hlegal
  have hparams : s.params? "f" = some ["a", "b"] := by decide +kernel
  have hroom : s.working.depth < s.working.limit := by decide +kernel
  clear_value s
  have hsound : s.working.SoundWith args := by
    refine Store.Sound.of_owned hbase fun n hn => ?_
    obtain ⟨o, ho, hnode⟩ := hn
    rcases List.mem_append.mp ho with harg | howned
    · simp only [args, Owner.values, List.map_cons, List.map_nil, List.mem_cons,
        List.not_mem_nil, or_false] at harg
      rcases harg with rfl | rfl | rfl <;> cases hnode
    · exact Store.present_of_owned ⟨o, List.mem_append_right _ howned, hnode⟩
  obtain ⟨f, hlookup, hparams⟩ := exists_of_params? hparams
  have hnone : ∀ fault, ¬Refuses f args s.working fault := by
    intro fault hrefuses
    cases hrefuses with
    | fewArguments hfew => simp [hparams, args] at hfew
    | depthReached _ hdepth => exact absurd hroom (Nat.not_lt_of_le hdepth)
    | repeatedParameter _ _ hnames _ hname =>
      have hnodup : f.params.Nodup := by simp [hparams]
      rw [hnames] at hnodup
      exact (List.nodup_append.mp hnodup).2.2 _ hname _ List.mem_cons_self rfl
  obtain ⟨scope, store, hruns, hnew, hscope, -⟩ := (hcalls s.working f args hsound).2.2 hnone
  refine ⟨hsound, f, scope, store, hlookup, hruns, hnew, ?_⟩
  simpa [hparams, args, parameters] using hscope

/-- Two parameters of one name: the call stops at the entry, with enough arguments and room. -/
theorem stops_at_repeated_parameter :
    let s := (start (Console.ofLines []) defaultDepthLimit).after [.evaluate "def f(a, a) { 1 }"]
    let args : List Value := [.text "x", .null]
    ∃ f after, s.working.heap.store.lookup 0 "f" = .ok (.function f) ∧
      f.params.length ≤ args.length ∧ s.working.depth < s.working.limit ∧
      StopsAtEntry f args s.working (.duplicateDeclaration "a") after := by
  intro s args
  have hparams : s.params? "f" = some ["a", "a"] := by decide +kernel
  have hroom : s.working.depth < s.working.limit := by decide +kernel
  have hfresh : (s.working.heap.store.scope? s.working.heap.store.fresh).isNone = true := by
    decide +kernel
  clear_value s
  obtain ⟨f, hlookup, hparams⟩ := exists_of_params? hparams
  have hargs : f.params.length ≤ args.length := by simp [hparams, args]
  have hrefuses : Refuses f args s.working (.duplicateDeclaration "a") :=
    .repeatedParameter hargs hroom (show f.params = ["a"] ++ "a" :: [] from hparams)
      (List.nodup_singleton "a") List.mem_cons_self
  obtain ⟨after, hstops, -⟩ := hrefuses.stopsAtEntry (Option.isNone_iff_eq_none.mp hfresh)
  exact ⟨f, after, hlookup, hargs, hroom, hstops⟩

end Session

end Scriptlet
