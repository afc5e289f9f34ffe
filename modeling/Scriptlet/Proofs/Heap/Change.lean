import Scriptlet.Proofs.Heap.Sweep

/-!
# Changing a store

What a run does to a store without the collector: it gives out identities, makes scopes and binds
names. Each of these keeps a store sound as long as it is done with scopes and values that exist.

Two stores that agree on what some owners lead to keep doing so: names mean the same in both
(`Agree.resolve?`), each change is the same in both if it is done with what the owners lead to, and
collecting in either of them goes unnoticed (`Agree.collected_left`, `Agree.collected_right`).
-/

namespace Scriptlet.Store

variable {store first second : Store} {owners owners' : List Owner} {n m : Node} {id : ScopeId}

/-! ## Other owners -/

theorem present_subset_of_owned (h : ownedNodes owners' ⊆ store.present owners) :
    store.present owners' ⊆ store.present owners :=
  present_subset h (fun _ _ => present_of_scope) fun _ hn _ hm => present_of_edge hn hm

/-- A store stays sound for owners of what exists already. -/
theorem Sound.of_owned (h : store.Sound owners)
    (howned : ownedNodes owners' ⊆ store.present owners) : store.Sound owners' := by
  have hsub := present_subset_of_owned howned
  exact ⟨fun n hn m hm => h.eq_of_id n (hsub hn) m (hsub hm), fun n hn => h.id_lt n (hsub hn),
    fun id hid => h.scope_exists id (hsub hid), h.parent_lt⟩

theorem ownedNodes_cons (o : Owner) (owners : List Owner) :
    ownedNodes (o :: owners) = {n | o.node? = some n} ∪ ownedNodes owners := by
  ext n
  simp [ownedNodes]

theorem ownedNodes_append (owners owners' : List Owner) :
    ownedNodes (owners ++ owners') = ownedNodes owners ∪ ownedNodes owners' := by
  ext n
  simp [ownedNodes, or_and_right, exists_or]

/-! ## New identities -/

@[simp] theorem edges_newId (store : Store) (n : Node) : store.newId.2.edges n = store.edges n := by
  cases n <;> rfl

/-- A new function or object over what exists. -/
theorem Sound.newId (h : store.Sound owners) {v : Value}
    (hnew : ∀ n, v.node? = some n → n.id = store.fresh ∧
      ∀ m ∈ store.edges n, m ∈ store.present owners) :
    store.newId.2.Sound (.value v :: owners) := by
  have hvalue : ∀ n, v.node? = some n → n.isValue = true := by
    intro n hn
    cases v <;> simp [Value.node?] at hn <;> subst hn <;> rfl
  have hsub : store.newId.2.present (.value v :: owners) ⊆
      {n | v.node? = some n ∨ n ∈ store.present owners} := by
    refine present_subset ?_ (fun id scope hs => .inr (present_of_scope hs)) ?_
    · rw [ownedNodes_cons]
      intro n hn
      rcases hn with hn | hn
      · exact .inl hn
      · exact .inr (present_of_owned hn)
    · intro n hn m hm
      rcases hn with hn | hn
      · exact .inr ((hnew n hn).2 m (by simpa using hm))
      · exact .inr (present_of_edge hn (by simpa using hm))
  refine ⟨fun n hn m hm hid => ?_, fun n hn => ?_, fun id hid => ?_, h.parent_lt⟩
  · rcases hsub hn with hn | hn <;> rcases hsub hm with hm | hm
    · exact Option.some.inj (hn.symm.trans hm)
    · exact absurd (h.id_lt m hm) (by rw [← hid, (hnew n hn).1]; exact Nat.lt_irrefl _)
    · exact absurd (h.id_lt n hn) (by rw [hid, (hnew m hm).1]; exact Nat.lt_irrefl _)
    · exact h.eq_of_id n hn m hm hid
  · rcases hsub hn with hn | hn
    · exact (hnew n hn).1 ▸ Nat.lt_succ_self _
    · exact Nat.lt_succ_of_lt (h.id_lt n hn)
  · rcases hsub hid with hn | hn
    · simpa [Node.isValue] using hvalue _ hn
    · exact h.scope_exists id hn

/-! ## New scopes -/

theorem edges_newScope_of_ne (parent : Option ScopeId) (hne : n ≠ .scope store.fresh) :
    (store.newScope parent).2.edges n = store.edges n := by
  cases n with
  | function f => rfl
  | object id fields => rfl
  | scope id =>
    have hid : store.fresh ≠ id := fun heq => hne (heq ▸ rfl)
    rw [edges, edges, scope?_newScope, if_neg hid]

theorem mem_edges_newScope (parent : Option ScopeId) :
    m ∈ (store.newScope parent).2.edges (.scope store.fresh) ↔
      ∃ p, parent = some p ∧ m = .scope p := by
  simp [edges, Scope.mem_edges, Scope.values]

/-- What exists besides a new scope existed before. -/
theorem present_newScope_subset {parent : Option ScopeId}
    (hparent : ∀ p, parent = some p → .scope p ∈ store.present owners)
    (howned : ownedNodes owners' ⊆ {n | n = .scope store.fresh ∨ n ∈ store.present owners}) :
    (store.newScope parent).2.present owners' ⊆
      {n | n = .scope store.fresh ∨ n ∈ store.present owners} := by
  refine present_subset howned ?_ ?_
  · intro id scope hs
    rw [scope?_newScope] at hs
    split at hs
    · rename_i heq
      exact .inl (heq ▸ rfl)
    · exact .inr (present_of_scope hs)
  · rintro n hn m hm
    by_cases heq : n = .scope store.fresh
    · subst heq
      obtain ⟨p, hp, rfl⟩ := (mem_edges_newScope parent).mp hm
      exact .inr (hparent p hp)
    · rw [edges_newScope_of_ne parent heq] at hm
      exact .inr (present_of_edge (hn.resolve_left heq) hm)

theorem Sound.newScope (h : store.Sound owners) {parent : Option ScopeId}
    (hparent : ∀ p, parent = some p → .scope p ∈ store.present owners) :
    (store.newScope parent).2.Sound (.scope store.fresh :: owners) := by
  have hne : ∀ n ∈ store.present owners, n ≠ .scope store.fresh := by
    rintro n hn rfl
    exact absurd (h.id_lt _ hn) (Nat.lt_irrefl _)
  have hsub : (store.newScope parent).2.present (.scope store.fresh :: owners) ⊆
      {n | n = .scope store.fresh ∨ n ∈ store.present owners} := by
    refine present_newScope_subset hparent ?_
    rw [ownedNodes_cons]
    exact fun n hn => hn.imp (fun hn => (Option.some.inj hn).symm) present_of_owned
  refine ⟨fun n hn m hm hid => ?_, fun n hn => ?_, fun id hid => ?_, fun id scope hs p hp => ?_⟩
  · rcases hsub hn with rfl | hn <;> rcases hsub hm with rfl | hm
    · rfl
    · exact absurd (h.id_lt m hm) (by rw [← hid]; exact Nat.lt_irrefl _)
    · exact absurd (h.id_lt n hn) (by rw [hid]; exact Nat.lt_irrefl _)
    · exact h.eq_of_id n hn m hm hid
  · rcases hsub hn with rfl | hn
    · exact Nat.lt_succ_self _
    · exact Nat.lt_succ_of_lt (h.id_lt n hn)
  · rw [scope?_newScope]
    rcases hsub hid with heq | hn
    · rw [if_pos (Node.scope.inj heq).symm]
      exact ⟨_, rfl⟩
    · have hid : store.fresh ≠ id := fun heq => hne _ hn (heq ▸ rfl)
      rw [if_neg hid]
      exact h.scope_exists id hn
  · rw [scope?_newScope] at hs
    split at hs
    · rename_i heq
      cases hs
      exact heq ▸ h.id_lt _ (hparent p hp)
    · exact h.parent_lt id scope hs p hp

/-- What is reachable with a handle to a new scope, besides that scope, was reachable before. -/
theorem Sound.reachable_newScope_subset (h : store.Sound owners) {parent : Option ScopeId}
    (hparent : ∀ p, parent = some p → .scope p ∈ store.reachable owners) :
    (store.newScope parent).2.reachable (.scope store.fresh :: owners) ⊆
      {n | n = .scope store.fresh ∨ n ∈ store.reachable owners} := by
  refine reachable_subset ?_ ?_
  · rw [ownedNodes_cons]
    exact fun n hn => hn.imp (fun hn => (Option.some.inj hn).symm) reachable_of_owned
  · intro n hn m hm
    rcases hn with rfl | hn
    · obtain ⟨p, hp, rfl⟩ := (mem_edges_newScope parent).mp hm
      exact .inr (hparent p hp)
    · have hlt := h.id_lt n (present_of_reachable hn)
      have hne : n ≠ .scope store.fresh := fun heq => absurd hlt (heq ▸ Nat.lt_irrefl _)
      rw [edges_newScope_of_ne parent hne] at hm
      exact .inr (reachable_of_edge hn hm)

/-- Nothing holds on to a new scope yet. -/
theorem Sound.not_held_newScope (h : store.Sound owners) {parent : Option ScopeId}
    (hparent : ∀ p, parent = some p → .scope p ∈ store.present owners) :
    .scope store.fresh ∉ (store.newScope parent).2.handles owners := by
  have hnew := h.newScope hparent
  have hsub : owners ⊆ .scope store.fresh :: owners := fun _ ho => List.mem_cons_of_mem _ ho
  have hold : .scope store.fresh ∉ store.present owners := fun hn =>
    absurd (h.id_lt _ hn) (Nat.lt_irrefl _)
  have hpresent : (store.newScope parent).2.present owners ⊆
      {n | n = .scope store.fresh ∨ n ∈ store.present owners} :=
    present_newScope_subset hparent fun _ hn => .inr (present_of_owned hn)
  rw [mem_handles (hnew.mono hsub)]
  intro hcases
  rcases hcases with howned | ⟨m, hm, hedge⟩
  · exact hold (present_of_owned howned)
  · by_cases heq : m = .scope store.fresh
    · subst heq
      obtain ⟨p, hp, heq⟩ := (mem_edges_newScope parent).mp hedge
      cases heq
      exact hold (hparent _ hp)
    · rw [edges_newScope_of_ne parent heq] at hedge
      exact hold (present_of_edge ((hpresent hm).resolve_left heq) hedge)

/-! ## Bindings -/

theorem mem_values_bind {scope : Scope} {name : String} {binding : Binding} {v : Value}
    (hv : v ∈ Scope.values { scope with bindings := Record.put name binding scope.bindings }) :
    v = binding.value ∨ v ∈ scope.values := by
  obtain ⟨entry, hentry, rfl⟩ := List.mem_map.mp hv
  rcases Record.mem_of_mem_put hentry with rfl | hentry
  · exact .inl rfl
  · exact .inr (List.mem_map_of_mem hentry)

/-- Binding a name adds at most a hold on the bound value. -/
theorem mem_edges_bind {name : String} {binding : Binding}
    (hm : m ∈ (store.bind id name binding).edges n) :
    m ∈ store.edges n ∨ binding.value.node? = some m := by
  cases n with
  | function f => exact .inl hm
  | object other fields => exact .inl hm
  | scope other =>
    obtain ⟨scope, hs, hm⟩ := mem_edges_scope.mp hm
    rw [scope?_bind] at hs
    split at hs
    · rename_i heq
      subst heq
      obtain ⟨before, hbefore, rfl⟩ := Option.map_eq_some_iff.mp hs
      rcases Scope.mem_edges.mp hm with ⟨v, hv, hnode⟩ | hp
      · rcases mem_values_bind hv with rfl | hv
        · exact .inr hnode
        · have hedge := Scope.mem_edges.mpr (.inl ⟨v, hv, hnode⟩)
          exact .inl (mem_edges_scope.mpr ⟨before, hbefore, hedge⟩)
      · exact .inl (mem_edges_scope.mpr ⟨before, hbefore, Scope.mem_edges.mpr (.inr hp)⟩)
    · exact .inl (mem_edges_scope.mpr ⟨scope, hs, hm⟩)

theorem bind_scope {name : String} {binding : Binding} {other : ScopeId} {scope : Scope}
    (hs : (store.bind id name binding).scope? other = some scope) :
    ∃ before, store.scope? other = some before ∧ scope.parent = before.parent := by
  rw [scope?_bind] at hs
  split at hs
  · rename_i heq
    subst heq
    obtain ⟨before, hbefore, rfl⟩ := Option.map_eq_some_iff.mp hs
    exact ⟨before, hbefore, rfl⟩
  · exact ⟨scope, hs, rfl⟩

theorem present_bind_subset {name : String} {binding : Binding}
    (hv : ∀ n, binding.value.node? = some n → n ∈ store.present owners) :
    (store.bind id name binding).present owners ⊆ store.present owners := by
  refine present_subset (fun _ => present_of_owned) (fun other scope hs => ?_) fun n hn m hm => ?_
  · obtain ⟨before, hbefore, -⟩ := bind_scope hs
    exact present_of_scope hbefore
  · exact (mem_edges_bind hm).elim (present_of_edge hn) (hv m)

theorem reachable_bind_subset {name : String} {binding : Binding}
    (hv : ∀ n, binding.value.node? = some n → n ∈ store.reachable owners) :
    (store.bind id name binding).reachable owners ⊆ store.reachable owners :=
  reachable_subset (fun _ => reachable_of_owned) fun _ hn m hm =>
    (mem_edges_bind hm).elim (reachable_of_edge hn) (hv m)

theorem Sound.bind (h : store.Sound owners) {name : String} {binding : Binding}
    (hv : ∀ n, binding.value.node? = some n → n ∈ store.present owners) :
    (store.bind id name binding).Sound owners := by
  have hsub : (store.bind id name binding).present owners ⊆ store.present owners :=
    present_bind_subset hv
  refine ⟨fun n hn m hm => h.eq_of_id n (hsub hn) m (hsub hm), fun n hn => ?_, fun other hid => ?_,
    fun other scope hs p hp => ?_⟩
  · rw [fresh_bind]
    exact h.id_lt n (hsub hn)
  · obtain ⟨before, hbefore⟩ := h.scope_exists other (hsub hid)
    rw [scope?_bind]
    split
    · rename_i heq
      subst heq
      rw [hbefore]
      exact ⟨_, rfl⟩
    · exact ⟨before, hbefore⟩
  · obtain ⟨before, hbefore, hparent⟩ := bind_scope hs
    exact h.parent_lt other before hbefore p (hparent ▸ hp)

theorem Sound.clear (h : store.Sound owners) (id : ScopeId) : (store.clear id).Sound owners := by
  refine (Reduces.clear store id).sound h (fun _ ho => ho) fun other hother => ?_
  have hpresent := (Reduces.clear store id).present_subset (fun _ ho => ho) hother
  obtain ⟨scope, hs⟩ := h.scope_exists other hpresent
  rw [scope?_clear]
  split
  · rename_i heq
    subst heq
    rw [hs]
    exact ⟨_, rfl⟩
  · exact ⟨scope, hs⟩

/-- Binding a name holds on to no scope. -/
theorem Sound.not_held_bind (h : store.Sound owners) {name : String} {binding : Binding}
    (hv : ∀ n, binding.value.node? = some n → n ∈ store.present owners) {s : ScopeId}
    (hs : .scope s ∉ store.handles owners) :
    .scope s ∉ (store.bind id name binding).handles owners := by
  rw [mem_handles h] at hs
  rw [mem_handles (h.bind hv)]
  intro hcases
  rcases hcases with howned | ⟨m, hm, hedge⟩
  · exact hs (.inl howned)
  · rcases mem_edges_bind hedge with hedge | hnode
    · exact hs (.inr ⟨m, present_bind_subset hv hm, hedge⟩)
    · cases hvalue : binding.value <;> simp [hvalue, Value.node?] at hnode

/-! ## Agreement -/

namespace Agree

theorem of_owned (h : Agree owners first second)
    (howned : ownedNodes owners' ⊆ first.reachable owners) : Agree owners' first second :=
  ⟨h.fresh, fun id hid =>
    h.scope id (reachable_subset howned (fun _ hn _ hm => reachable_of_edge hn hm) hid)⟩

theorem collected_left (h : Agree owners first second) {new : Store}
    (hnew : Collected owners new first) : Agree owners new second := by
  refine ⟨h.fresh.trans hnew.fresh.symm, fun id hid => ?_⟩
  have hfirst := hnew.reachable_eq ▸ hid
  rw [h.scope id hfirst, hnew.keeps id hfirst]

theorem collected_right (h : Agree owners first second) {new : Store}
    (hnew : Collected owners new second) : Agree owners first new := by
  refine ⟨hnew.fresh.trans h.fresh, fun id hid => ?_⟩
  rw [hnew.keeps id (h.reachable_eq ▸ hid), h.scope id hid]

/-- What an owner of something new leads to. -/
theorem reachable_newId_subset {v : Value}
    (hv : ∀ n, v.node? = some n → ∀ m ∈ store.edges n, m ∈ store.reachable owners) :
    store.newId.2.reachable (.value v :: owners) ⊆
      {n | v.node? = some n ∨ n ∈ store.reachable owners} := by
  refine reachable_subset ?_ ?_
  · rw [ownedNodes_cons]
    exact fun n hn => hn.imp id reachable_of_owned
  · intro n hn m hm
    rcases hn with hn | hn
    · exact .inr (hv n hn m (by simpa using hm))
    · exact .inr (reachable_of_edge hn (by simpa using hm))

theorem newId (h : Agree owners first second) {v : Value}
    (hv : ∀ n, v.node? = some n → ∀ m ∈ first.edges n, m ∈ first.reachable owners) :
    Agree (.value v :: owners) first.newId.2 second.newId.2 := by
  refine ⟨congrArg (· + 1) h.fresh, fun id hid => ?_⟩
  rcases reachable_newId_subset hv hid with hnode | hid
  · cases v <;> simp [Value.node?] at hnode
  · exact h.scope id hid

/-- What is new over one store is new over the other. -/
theorem new_right (h : Agree owners first second) {v : Value}
    (hv : ∀ n, v.node? = some n → n.id = first.fresh ∧
      ∀ m ∈ first.edges n, m ∈ first.reachable owners) :
    ∀ n, v.node? = some n → n.id = second.fresh ∧
      ∀ m ∈ second.edges n, m ∈ second.reachable owners := by
  intro n hn
  obtain ⟨hid, hedges⟩ := hv n hn
  refine ⟨hid.trans h.fresh.symm, fun m hm => h.reachable_eq ▸ hedges m ?_⟩
  have hvalue : n.isValue = true := by
    cases v <;> simp [Value.node?] at hn <;> subst hn <;> rfl
  rwa [edges_of_isValue hvalue] at hm

theorem newScope (h : Agree owners first second) (hsound : first.Sound owners)
    {parent : Option ScopeId} (hparent : ∀ p, parent = some p → .scope p ∈ first.reachable owners) :
    Agree (.scope first.fresh :: owners) (first.newScope parent).2 (second.newScope parent).2 := by
  refine ⟨congrArg (· + 1) h.fresh, fun id hid => ?_⟩
  rw [scope?_newScope, scope?_newScope, h.fresh]
  rcases hsound.reachable_newScope_subset hparent hid with heq | hid
  · rw [if_pos (Node.scope.inj heq).symm, if_pos (Node.scope.inj heq).symm]
  · rw [h.scope id hid]

theorem bind (h : Agree owners first second) (hid : .scope id ∈ first.reachable owners)
    {name : String} {binding : Binding}
    (hv : ∀ n, binding.value.node? = some n → n ∈ first.reachable owners) :
    Agree owners (first.bind id name binding) (second.bind id name binding) := by
  refine ⟨by rw [fresh_bind, fresh_bind, h.fresh], fun other hother => ?_⟩
  rw [scope?_bind, scope?_bind, h.scope id hid, h.scope other (reachable_bind_subset hv hother)]

/-! ## Names -/

theorem resolveWithin? (h : Agree owners first second) (name : String) (steps : Nat)
    (hid : .scope id ∈ first.reachable owners) :
    second.resolveWithin? name steps id = first.resolveWithin? name steps id := by
  induction steps generalizing id with
  | zero => rfl
  | succ steps ih =>
    rw [Store.resolveWithin?, Store.resolveWithin?, h.scope id hid]
    cases hs : first.scope? id with
    | none => rfl
    | some scope =>
      cases hname : scope.bindings.get? name with
      | some binding => simp [hname]
      | none =>
        cases hp : scope.parent with
        | none => simp [hname, hp]
        | some p =>
          have hparent : .scope p ∈ first.reachable owners := reachable_of_edge hid
            (mem_edges_scope.mpr ⟨scope, hs, Scope.mem_edges.mpr (.inr ⟨p, hp, rfl⟩)⟩)
          simpa [hname, hp] using ih hparent

/-- A name means the same in both stores. -/
theorem resolve? (h : Agree owners first second) (hid : .scope id ∈ first.reachable owners)
    (name : String) : second.resolve? id name = first.resolve? id name :=
  h.resolveWithin? name (id + 1) hid

theorem lookup (h : Agree owners first second) (hid : .scope id ∈ first.reachable owners)
    (name : String) : second.lookup id name = first.lookup id name := by
  rw [Store.lookup, Store.lookup, h.resolve? hid]

end Agree

/-- The way up from a scope leads to the one that binds the name. -/
theorem leads_of_resolve {name : String} {owner : ScopeId} {binding : Binding}
    (hresolve : store.resolve? id name = some (owner, binding)) :
    Leads store.edges (.scope id) (.scope owner) ∧
      (store.bindings owner).get? name = some binding := by
  have hup : ∀ (steps : Nat) (id : ScopeId),
      store.resolveWithin? name steps id = some (owner, binding) →
        Leads store.edges (.scope id) (.scope owner) ∧
          (store.bindings owner).get? name = some binding := by
    intro steps
    induction steps with
    | zero => simp [resolveWithin?]
    | succ steps ih =>
      intro id hresolve
      rw [resolveWithin?] at hresolve
      cases hs : store.scope? id with
      | none => simp [hs] at hresolve
      | some scope =>
        cases hname : scope.bindings.get? name with
        | some found =>
          simp only [hs, hname, Option.some.injEq, Prod.mk.injEq] at hresolve
          obtain ⟨rfl, rfl⟩ := hresolve
          exact ⟨.refl, by simpa [bindings, hs] using hname⟩
        | none =>
          cases hp : scope.parent with
          | none => simp [hs, hname, hp] at hresolve
          | some p =>
            obtain ⟨hleads, hget⟩ := ih p (by simpa [hs, hname, hp] using hresolve)
            have hedge : .scope p ∈ store.edges (.scope id) :=
              mem_edges_scope.mpr ⟨scope, hs, Scope.mem_edges.mpr (.inr ⟨p, hp, rfl⟩)⟩
            exact ⟨.head hedge hleads, hget⟩
  exact hup (id + 1) id hresolve

theorem mem_edges_of_binding {name : String} {binding : Binding}
    (hget : (store.bindings id).get? name = some binding) (hm : binding.value.node? = some m) :
    m ∈ store.edges (.scope id) := by
  cases hs : store.scope? id with
  | none => simp [bindings, hs, Record.get?] at hget
  | some scope =>
    have hmem : (name, binding) ∈ scope.bindings :=
      Record.mem_of_get?_eq_some (by simpa [bindings, hs] using hget)
    refine mem_edges_scope.mpr ⟨scope, hs, Scope.mem_edges.mpr (.inl ⟨binding.value, ?_, hm⟩)⟩
    exact List.mem_map_of_mem hmem

/-- The way up from a scope stays within what the owners lead to. -/
theorem reachable_of_resolve {name : String} {owner : ScopeId} {binding : Binding}
    (hid : .scope id ∈ store.reachable owners)
    (hresolve : store.resolve? id name = some (owner, binding)) :
    .scope owner ∈ store.reachable owners ∧
      ∀ n, binding.value.node? = some n → n ∈ store.reachable owners := by
  obtain ⟨hleads, hget⟩ := leads_of_resolve hresolve
  obtain ⟨r, hr, hid⟩ := hid
  have howner : .scope owner ∈ store.reachable owners := ⟨r, hr, hid.trans hleads⟩
  exact ⟨howner, fun n hn => reachable_of_edge howner (mem_edges_of_binding hget hn)⟩

/-- Whether some owners lead to a value. A value without identity needs no owner. -/
def Knows (store : Store) (owners : List Owner) (v : Value) : Prop :=
  ∀ n, v.node? = some n → n ∈ store.reachable owners

theorem knows_of_mem {v : Value} (h : .value v ∈ owners) : store.Knows owners v :=
  fun _ hn => reachable_of_owned ⟨_, h, hn⟩

theorem knows_of_plain {v : Value} (h : v.node? = none) : store.Knows owners v :=
  fun n hn => by simp [h] at hn

theorem knows_of_lookup {name : String} {v : Value} (hid : .scope id ∈ store.reachable owners)
    (hv : store.lookup id name = .ok v) : store.Knows owners v := by
  unfold lookup at hv
  split at hv
  · rename_i owner binding hresolve
    cases hv
    exact (reachable_of_resolve hid hresolve).2
  · simp at hv

/-- Owners may be exchanged for values that they lead to. -/
theorem owned_values_subset {vs : List Value} (hvs : ∀ v ∈ vs, store.Knows owners v)
    (hsub : owners' ⊆ owners) :
    ownedNodes (vs.map .value ++ owners') ⊆ store.reachable owners := by
  rw [ownedNodes_append]
  intro n hn
  rcases hn with ⟨o, ho, hn⟩ | hn
  · obtain ⟨v, hv, rfl⟩ := List.mem_map.mp ho
    exact hvs v hv n hn
  · exact owned_subset_reachable hsub hn

/-! ## What may be bound -/

/-- What a program may bind in a scope: a name that is new there, if it may declare names in this
scope, or a variable again, to another value. -/
inductive Writes (store : Store) (declares : ScopeId → Prop) (id : ScopeId) (name : String) :
    Binding → Prop where
  | declare (hdeclares : declares id) (hnew : (store.bindings id).get? name = none) (v : Value)
    (constant : Bool) : Writes store declares id name ⟨v, constant⟩
  | assign {old : Binding} (hold : (store.bindings id).get? name = some old)
    (hvariable : old.constant = false) (v : Value) :
    Writes store declares id name { old with value := v }

/-- Declaring fails in both stores or binds the name in both, and it was new. -/
theorem Agree.declare (h : Agree owners first second) (hid : .scope id ∈ first.reachable owners)
    (declares : ScopeId → Prop) (hdeclares : declares id) (name : String) (v : Value)
    (constant : Bool) :
    (∃ fault, first.declare id name v constant = .error fault ∧
        second.declare id name v constant = .error fault) ∨
      first.Writes declares id name ⟨v, constant⟩ ∧
        first.declare id name v constant = .ok (first.bind id name ⟨v, constant⟩) ∧
          second.declare id name v constant = .ok (second.bind id name ⟨v, constant⟩) := by
  have hbindings : second.bindings id = first.bindings id := by
    rw [bindings, bindings, h.scope id hid]
  unfold Store.declare
  rw [hbindings]
  cases hname : (first.bindings id).get? name with
  | some binding => exact .inl ⟨_, rfl, rfl⟩
  | none => exact .inr ⟨.declare hdeclares hname v constant, rfl, rfl⟩

/-- Assigning fails in both stores or binds the name in both, in a scope on the way up that has it
as a variable. -/
theorem Agree.assign (h : Agree owners first second) (hid : .scope id ∈ first.reachable owners)
    (declares : ScopeId → Prop) (name : String) (v : Value) :
    (∃ fault, first.assign id name v = .error fault ∧ second.assign id name v = .error fault) ∨
      ∃ owner binding, .scope owner ∈ first.reachable owners ∧ binding.value = v ∧
        first.Writes declares owner name binding ∧
        first.assign id name v = .ok (first.bind owner name binding) ∧
          second.assign id name v = .ok (second.bind owner name binding) := by
  unfold Store.assign
  rw [h.resolve? hid]
  cases hresolve : first.resolve? id name with
  | none => exact .inl ⟨_, rfl, rfl⟩
  | some found =>
    obtain ⟨owner, binding⟩ := found
    cases hconstant : binding.constant with
    | true => exact .inl ⟨.constAssignment name, by simp [hconstant], by simp [hconstant]⟩
    | false =>
      have hwrites : first.Writes declares owner name { binding with value := v } :=
        .assign (leads_of_resolve hresolve).2 hconstant v
      exact .inr ⟨owner, { binding with value := v }, (reachable_of_resolve hid hresolve).1, rfl,
        hwrites, by simp [hconstant], by simp [hconstant]⟩

end Scriptlet.Store
