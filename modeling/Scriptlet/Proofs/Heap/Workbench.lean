import Scriptlet.Heap.Workbench
import Scriptlet.Proofs.Heap.History

/-!
# The workbench makes histories

Each command of the workbench is a row of moves, so the heap on the bench has a history with the
handles to it (`Workbench.history_after`). Parts of commands work with values that have no handle
yet; these are in hand, and own as well.
-/

namespace Scriptlet

open Store (ownedNodes)

namespace Workbench

variable {α β : Type} {bench : Workbench} {vs ws : List Value} {id : ScopeId}

/-! ## Parts of commands -/

/-- What a part of a command ends with, if it is not refused. -/
def Ensures (before : Workbench → Prop) (work : Work α) (after : α → Workbench → Prop) : Prop :=
  ∀ bench, before bench → ∀ a bench', work bench = .ok (a, bench') → after a bench'

namespace Ensures

variable {before : Workbench → Prop} {work : Work α} {after after' : α → Workbench → Prop}

theorem bind {next : α → Work β} {final : β → Workbench → Prop}
    (hwork : Ensures before work after) (hnext : ∀ a, Ensures (after a) (next a) final) :
    Ensures before (work >>= next) final := by
  intro bench hbench b bench' hrun
  have hstep : (work >>= next) bench = (work bench >>= fun result => next result.1 result.2) := rfl
  rw [hstep] at hrun
  cases hfirst : work bench with
  | error refusal => simp [hfirst, Bind.bind, Except.bind] at hrun
  | ok result =>
    obtain ⟨a, middle⟩ := result
    rw [hfirst] at hrun
    exact hnext a middle (hwork bench hbench a middle hfirst) b bench' hrun

theorem pure {a : α} (h : ∀ bench, before bench → after a bench) :
    Ensures before (Pure.pure a) after := by
  intro bench hbench b bench' hrun
  cases hrun
  exact h bench hbench

theorem refuse {refusal : Refusal} : Ensures before (throw refusal : Work α) after := by
  intro bench _ a bench' hrun
  cases hrun

theorem modify {f : Workbench → Workbench} {after : Unit → Workbench → Prop}
    (h : ∀ bench, before bench → after () (f bench)) :
    Ensures before (modify f : Work Unit) after := by
  intro bench hbench a bench' hrun
  cases hrun
  exact h bench hbench

/-- A part that looks at the bench first. -/
theorem get {next : Workbench → Work α}
    (h : ∀ bench, before bench → Ensures (· = bench) (next bench) after) :
    Ensures before (MonadState.get >>= next) after := by
  intro bench hbench a bench' hrun
  exact h bench hbench bench rfl a bench' hrun

/-- A part that goes on only without a fault. -/
theorem checked {result : Except Fault α} {next : α → Work β} {final : β → Workbench → Prop}
    (h : ∀ a, result = .ok a → Ensures before (next a) final) :
    Ensures before (checked result >>= next) final := by
  cases result with
  | ok a => exact h a rfl
  | error fault =>
    intro bench _ b bench' hrun
    cases hrun

theorem mono {before' : Workbench → Prop} (h : Ensures before work after)
    (hbefore : ∀ bench, before' bench → before bench)
    (hafter : ∀ a bench, after a bench → after' a bench) : Ensures before' work after' :=
  fun bench hbench a bench' hrun => hafter a bench' (h bench (hbefore bench hbench) a bench' hrun)

end Ensures

/-! ## Handles and what is in hand -/

theorem mem_owners {o : Owner} :
    o ∈ bench.owners ↔ (∃ entry ∈ bench.scopes, .scope entry.2 = o) ∨
      ∃ entry ∈ bench.values, .value entry.2 = o := by
  simp [owners]

/-- A bench whose heap has a history with the handles and some values in hand. -/
def InHand (vs : List Value) (bench : Workbench) : Prop :=
  Heap.History True (vs.map .value ++ bench.owners) bench.heap

/-- What is in hand may be exchanged for what it or the handles lead to. -/
theorem InHand.exchange (h : InHand vs bench)
    (hws : ∀ w ∈ ws, bench.heap.store.Knows (vs.map .value ++ bench.owners) w) :
    InHand ws bench :=
  Heap.History.own h (Store.owned_values_subset hws (List.subset_append_right _ _))

theorem InHand.of_subset (h : InHand vs bench) (hws : ws ⊆ vs) : InHand ws bench :=
  h.exchange fun _ hw => Store.knows_of_mem (List.mem_append_left _ (List.mem_map_of_mem (hws hw)))

/-- Any handles to what has a handle or is in hand may be the owners instead. -/
theorem InHand.of_handles {owners : List Owner} (h : InHand vs bench)
    (howners : owners ⊆ vs.map .value ++ bench.owners) : Heap.History True owners bench.heap :=
  Heap.History.own h (Store.owned_subset_reachable howners)

theorem ensures_scope {before : Workbench → Prop} (handle : String) :
    Ensures before (scope handle) fun id bench => before bench ∧ .scope id ∈ bench.owners := by
  refine Ensures.get fun bench hbench => ?_
  cases hscope : bench.scopes.get? handle with
  | none => exact Ensures.refuse
  | some id =>
    refine Ensures.pure ?_
    rintro _ rfl
    exact ⟨hbench, mem_owners.mpr (.inl ⟨_, Record.mem_of_get?_eq_some hscope, rfl⟩)⟩

theorem ensures_borrowedScopes {before : Workbench → Prop} (handles : List String) :
    Ensures before (borrowedScopes handles) fun ids bench =>
      before bench ∧ ids.map .scope ⊆ bench.owners := by
  unfold borrowedScopes
  induction handles generalizing before with
  | nil => exact Ensures.pure fun bench hbench => ⟨hbench, List.nil_subset _⟩
  | cons handle rest ih =>
    rw [List.mapM_cons]
    refine Ensures.bind (ensures_scope handle) fun id => ?_
    refine Ensures.bind ih fun ids => Ensures.pure fun bench hbench => ?_
    obtain ⟨⟨hbench, hid⟩, hids⟩ := hbench
    exact ⟨hbench, List.cons_subset.mpr ⟨hid, hids⟩⟩

end Workbench

/-! ## Making values -/

mutual

/-- Whether the literals in a specification have no identity. -/
def ValueSpec.Plain : ValueSpec → Prop
  | .literal v => v.node? = none
  | .handle _ | .function _ _ => True
  | .object fields => ValueSpec.FieldsPlain fields

/-- Whether the literals in the properties of an object have no identity. -/
def ValueSpec.FieldsPlain : List (String × ValueSpec) → Prop
  | [] => True
  | (_, spec) :: rest => spec.Plain ∧ ValueSpec.FieldsPlain rest

end

/-- The values that a command writes. -/
def Command.specs : Command → List ValueSpec
  | .keep _ spec | .declare _ _ spec _ | .assign _ _ spec | .display spec => [spec]
  | .equal left right => [left, right]
  | _ => []

/-- Whether the literals in a command have no identity. -/
def Command.Plain (command : Command) : Prop := ∀ spec ∈ command.specs, spec.Plain

namespace Workbench

variable {bench : Workbench} {vs : List Value} {id : ScopeId}

mutual

theorem ensures_make (spec : ValueSpec) (hplain : spec.Plain) (vs : List Value) :
    Ensures (InHand vs) (make spec) fun v => InHand (v :: vs) := by
  cases spec with
  | literal v =>
    unfold make
    refine Ensures.pure fun bench h => h.exchange fun w hw => ?_
    rcases List.mem_cons.mp hw with rfl | hw
    · rw [ValueSpec.Plain] at hplain
      exact Store.knows_of_plain hplain
    · exact Store.knows_of_mem (List.mem_append_left _ (List.mem_map_of_mem hw))
  | handle name =>
    unfold make
    refine Ensures.get fun bench h => ?_
    cases hname : bench.values.get? name with
    | none => exact Ensures.refuse
    | some v =>
      refine Ensures.pure ?_
      rintro _ rfl
      refine h.exchange fun w hw => Store.knows_of_mem ?_
      rcases List.mem_cons.mp hw with rfl | hw
      · refine List.mem_append_right _ (mem_owners.mpr (.inr ⟨(name, w), ?_, rfl⟩))
        exact Record.mem_of_get?_eq_some hname
      · exact List.mem_append_left _ (List.mem_map_of_mem hw)
  | function name closure =>
    unfold make
    refine Ensures.bind (ensures_scope closure) fun closure => ?_
    have hfresh : Ensures (fun bench => InHand vs bench ∧ .scope closure ∈ bench.owners) freshId
        fun id => InHand (.function ⟨id, name, [], ⟨[], ⟨0, 0, 0, 0⟩⟩, closure⟩ :: vs) := by
      intro bench hbench id bench' hrun
      obtain ⟨h, hclosure⟩ := hbench
      cases hrun
      refine Heap.History.newId h fun n hn => ?_
      cases hn
      refine ⟨rfl, fun m hm => ?_⟩
      obtain rfl := List.mem_singleton.mp hm
      exact Store.reachable_of_scope_mem (List.mem_append_right _ hclosure)
    exact Ensures.bind hfresh fun id => Ensures.pure fun bench h => h
  | object fields =>
    unfold make
    rw [ValueSpec.Plain] at hplain
    refine Ensures.bind (ensures_makeFields fields hplain vs []) fun made => ?_
    have hfresh : Ensures (InHand (made.map (·.2) ++ vs)) freshId
        fun id => InHand (.object id made :: (made.map (·.2) ++ vs)) := by
      intro bench h id bench' hrun
      cases hrun
      refine Heap.History.newId h fun n hn => ?_
      cases hn
      refine ⟨rfl, fun m hm => ?_⟩
      obtain ⟨field, hfield, hnode⟩ := List.mem_filterMap.mp hm
      refine Store.reachable_of_owned ⟨.value field.2, ?_, hnode⟩
      exact List.mem_append_left _ (List.mem_map_of_mem
        (List.mem_append_left _ (List.mem_map_of_mem hfield)))
    refine Ensures.bind hfresh fun id => Ensures.pure fun bench h => h.of_subset ?_
    exact List.cons_subset_cons _ (List.subset_append_right _ _)

theorem ensures_makeFields (fields : List (String × ValueSpec))
    (hplain : ValueSpec.FieldsPlain fields) (vs : List Value) (made : Record Value) :
    Ensures (InHand (made.map (·.2) ++ vs)) (makeFields made fields)
      fun made => InHand (made.map (·.2) ++ vs) := by
  cases fields with
  | nil =>
    unfold makeFields
    exact Ensures.pure fun bench h => h
  | cons field rest =>
    obtain ⟨key, spec⟩ := field
    rw [ValueSpec.FieldsPlain] at hplain
    unfold makeFields
    refine Ensures.bind (ensures_make spec hplain.1 _) fun v => ?_
    refine (ensures_makeFields rest hplain.2 vs (Record.put key v made)).mono (fun bench h => ?_)
      fun _ _ h => h
    refine h.of_subset fun w hw => ?_
    rcases List.mem_append.mp hw with hw | hw
    · rcases List.mem_cons.mp (Record.values_put_subset made key v hw) with rfl | hw
      · exact List.mem_cons_self
      · exact List.mem_cons_of_mem _ (List.mem_append_left _ hw)
    · exact List.mem_cons_of_mem _ (List.mem_append_right _ hw)

end

/-! ## Commands -/

theorem owners_put_value_subset (bench : Workbench) (handle : String) (v : Value) :
    { bench with values := Record.put handle v bench.values }.owners ⊆
      .value v :: bench.owners := by
  intro o ho
  rcases mem_owners.mp ho with howned | ⟨entry, hentry, rfl⟩
  · exact List.mem_cons_of_mem _ (mem_owners.mpr (.inl howned))
  · rcases Record.mem_of_mem_put hentry with rfl | hentry
    · exact List.mem_cons_self
    · exact List.mem_cons_of_mem _ (mem_owners.mpr (.inr ⟨entry, hentry, rfl⟩))

theorem owners_put_scope_subset (bench : Workbench) (handle : String) (id : ScopeId)
    (made : List (String × ScopeId)) :
    { bench with scopes := Record.put handle id bench.scopes, made }.owners ⊆
      .scope id :: bench.owners := by
  intro o ho
  rcases mem_owners.mp ho with ⟨entry, hentry, rfl⟩ | howned
  · rcases Record.mem_of_mem_put hentry with rfl | hentry
    · exact List.mem_cons_self
    · exact List.mem_cons_of_mem _ (mem_owners.mpr (.inl ⟨entry, hentry, rfl⟩))
  · exact List.mem_cons_of_mem _ (mem_owners.mpr (.inr howned))

theorem owners_drop_scope_subset (bench : Workbench) (handle : String) :
    { bench with scopes := bench.scopes.drop handle }.owners ⊆ bench.owners := by
  intro o ho
  rcases mem_owners.mp ho with ⟨entry, hentry, rfl⟩ | howned
  · exact mem_owners.mpr (.inl ⟨entry, List.mem_of_mem_filter hentry, rfl⟩)
  · exact mem_owners.mpr (.inr howned)

theorem owners_drop_value_subset (bench : Workbench) (handle : String) :
    { bench with values := bench.values.drop handle }.owners ⊆ bench.owners := by
  intro o ho
  rcases mem_owners.mp ho with howned | ⟨entry, hentry, rfl⟩
  · exact mem_owners.mpr (.inl howned)
  · exact mem_owners.mpr (.inr ⟨entry, List.mem_of_mem_filter hentry, rfl⟩)

/-- The collector runs with one more handle to each borrowed scope, which goes afterwards. -/
theorem ensures_runCollector {before : Workbench → Prop} {borrowed : List ScopeId}
    {run : List Owner → List ScopeId → Heap → Heap}
    (h : ∀ bench, before bench → Heap.History True (borrowed.map .scope ++ bench.owners)
      (run (borrowed.map .scope ++ bench.owners) borrowed bench.heap)) :
    Ensures before (runCollector borrowed run) fun _ => InHand [] := by
  refine Ensures.modify fun bench hbench => Heap.History.own (h bench hbench) ?_
  exact Store.owned_subset_reachable (List.subset_append_right _ _)

theorem mem_reachable_of_handle (h : .scope id ∈ bench.owners) :
    .scope id ∈ bench.heap.store.reachable (vs.map .value ++ bench.owners) :=
  Store.reachable_of_scope_mem (List.mem_append_right _ h)

/-- A change to the store may use up what is in hand. -/
theorem ensures_setStore {v : Value} {store : Store}
    (h : Heap.History True (.value v :: bench.owners) { bench.heap with store }) :
    Ensures (· = bench) (setStore store) fun _ => InHand [] := by
  refine Ensures.modify ?_
  rintro _ rfl
  exact Heap.History.own h (Store.owned_subset_reachable (List.subset_cons_self _ _))

theorem ensures_newScope (handle : String) (parent : Option String) :
    Ensures (InHand []) (perform (.newScope handle parent)) fun _ => InHand [] := by
  have hparent : Ensures (InHand []) (parent.mapM scope) fun parent bench =>
      InHand [] bench ∧ ∀ p, parent = some p → .scope p ∈ bench.owners := by
    cases parent with
    | none => exact Ensures.pure fun bench h => ⟨h, by simp⟩
    | some parent =>
      refine Ensures.bind (ensures_scope parent) fun id => Ensures.pure fun bench h => ⟨h.1, ?_⟩
      intro p hp
      cases hp
      exact h.2
  refine Ensures.bind hparent fun parent => Ensures.get fun bench h => ?_
  have hnew : Ensures (· = bench) (setStore (bench.heap.store.newScope parent).2) fun _ after =>
      Heap.History True (.scope bench.heap.store.fresh :: after.owners) after.heap := by
    refine Ensures.modify ?_
    rintro _ rfl
    exact Heap.History.newScope h.1 parent fun p hp => Store.reachable_of_scope_mem (h.2 p hp)
  refine Ensures.bind hnew fun _ => Ensures.bind (Ensures.modify fun after h => ?_) fun _ =>
    Ensures.pure fun bench h => h
  exact Heap.History.own h
    (Store.owned_subset_reachable (owners_put_scope_subset after handle _ _))

theorem ensures_lookup (handle name : String) (keep : Option String) :
    Ensures (InHand []) (perform (.lookup handle name keep)) fun _ => InHand [] := by
  refine Ensures.bind (ensures_scope handle) fun id => Ensures.get fun bench h => ?_
  refine Ensures.checked fun v hv => ?_
  have hid : .scope id ∈ bench.heap.store.reachable bench.owners :=
    Store.reachable_of_scope_mem h.2
  cases keep with
  | none =>
    refine Ensures.pure ?_
    rintro _ rfl
    exact h.1
  | some handle =>
    refine Ensures.bind (Ensures.modify ?_) fun _ => Ensures.pure fun bench h => h
    rintro bench rfl
    have hv : InHand [v] bench := h.1.exchange fun w hw =>
      List.mem_singleton.mp hw ▸ Store.knows_of_lookup hid hv
    exact hv.of_handles (owners_put_value_subset bench handle v)

theorem ensures_release (handle : String) (keep : Bool) (borrowed : List String) :
    Ensures (InHand []) (perform (.release handle keep borrowed)) fun _ => InHand [] := by
  refine Ensures.bind (ensures_scope handle) fun id => ?_
  refine Ensures.bind (ensures_borrowedScopes borrowed) fun borrowed => ?_
  have hgive : ∀ bench, (InHand [] bench ∧ .scope id ∈ bench.owners) ∧
      borrowed.map .scope ⊆ bench.owners → ∀ owners, owners ⊆ bench.owners →
        Heap.History True (.scope id :: (borrowed.map .scope ++ owners)) bench.heap := by
    intro bench hbench owners howners
    obtain ⟨⟨h, hid⟩, hborrowed⟩ := hbench
    exact h.of_handles (List.cons_subset.mpr ⟨hid, List.append_subset.mpr ⟨hborrowed, howners⟩⟩)
  have hrelease : Ensures
      (fun bench =>
        Heap.History True (.scope id :: (borrowed.map .scope ++ bench.owners)) bench.heap)
      (runCollector borrowed fun owners borrowed heap => heap.release owners borrowed id)
      fun _ => InHand [] :=
    ensures_runCollector fun bench h => Heap.History.release h borrowed
  cases keep with
  | true =>
    refine Ensures.bind (hrelease.mono (fun bench h => ?_) fun _ _ h => h) fun _ =>
      Ensures.pure fun bench h => h
    exact hgive bench h _ (List.Subset.refl _)
  | false =>
    refine Ensures.bind (Ensures.modify fun bench h => ?_) fun _ =>
      Ensures.bind hrelease fun _ => Ensures.pure fun bench h => h
    exact hgive bench h _ (owners_drop_scope_subset bench handle)

theorem ensures_collect (borrowed : List String) :
    Ensures (InHand []) (perform (.collect borrowed)) fun _ => InHand [] := by
  refine Ensures.bind (ensures_borrowedScopes borrowed) fun borrowed => ?_
  refine Ensures.bind (ensures_runCollector fun bench h => ?_) fun _ =>
    Ensures.pure fun bench h => h
  refine Heap.History.collect (h.1.of_handles ?_) borrowed
  exact List.append_subset.mpr ⟨h.2, List.Subset.refl _⟩

/-- **Each command is a row of moves.** -/
theorem ensures_perform (command : Command) (hplain : command.Plain) :
    Ensures (InHand []) (perform command) fun _ => InHand [] := by
  have hmake : ∀ spec ∈ command.specs, ∀ vs, Ensures (InHand vs) (make spec) fun v =>
      InHand (v :: vs) := fun spec hspec => ensures_make spec (hplain spec hspec)
  cases command with
  | newScope handle parent => exact ensures_newScope handle parent
  | keep handle spec =>
    refine Ensures.bind (hmake spec List.mem_cons_self []) fun v => ?_
    refine Ensures.bind (Ensures.modify fun bench h => ?_) fun _ => Ensures.pure fun bench h => h
    exact h.of_handles (owners_put_value_subset bench handle v)
  | declare handle name spec constant =>
    refine Ensures.bind (hmake spec List.mem_cons_self []) fun v => ?_
    refine Ensures.bind (ensures_scope handle) fun id => Ensures.get fun bench h => ?_
    refine Ensures.checked fun store hstore => ?_
    have hnext := Heap.History.declare h.1 (mem_reachable_of_handle h.2)
      (Store.knows_of_mem List.mem_cons_self) name constant hstore
    exact Ensures.bind (ensures_setStore hnext) fun _ => Ensures.pure fun bench h => h
  | assign handle name spec =>
    refine Ensures.bind (hmake spec List.mem_cons_self []) fun v => ?_
    refine Ensures.bind (ensures_scope handle) fun id => Ensures.get fun bench h => ?_
    refine Ensures.checked fun store hstore => ?_
    have hnext := Heap.History.assign h.1 (mem_reachable_of_handle h.2)
      (Store.knows_of_mem List.mem_cons_self) name hstore
    exact Ensures.bind (ensures_setStore hnext) fun _ => Ensures.pure fun bench h => h
  | lookup handle name keep => exact ensures_lookup handle name keep
  | contains handle name | values handle =>
    refine Ensures.bind (ensures_scope handle) fun id => Ensures.get fun bench h => Ensures.pure ?_
    rintro _ rfl
    exact h.1
  | clear handle =>
    refine Ensures.bind (ensures_scope handle) fun id => Ensures.get fun bench h => ?_
    refine Ensures.bind (Ensures.modify ?_) fun _ => Ensures.pure fun bench h => h
    rintro _ rfl
    exact Heap.History.clear h.1 id
  | equal left right =>
    refine Ensures.bind (hmake left List.mem_cons_self []) fun v => ?_
    refine Ensures.bind (hmake right (by simp [Command.specs]) [v]) fun w => ?_
    exact Ensures.pure fun bench h => h.of_subset (List.nil_subset _)
  | display spec =>
    refine Ensures.bind (hmake spec List.mem_cons_self []) fun v => ?_
    exact Ensures.pure fun bench h => h.of_subset (List.nil_subset _)
  | dropScope handle =>
    refine Ensures.get fun bench h => Ensures.bind (Ensures.modify ?_) fun _ =>
      Ensures.pure fun bench h => h
    rintro bench rfl
    exact h.of_handles (owners_drop_scope_subset bench handle)
  | dropValue handle =>
    refine Ensures.get fun bench h => Ensures.bind (Ensures.modify ?_) fun _ =>
      Ensures.pure fun bench h => h
    rintro bench rfl
    exact h.of_handles (owners_drop_value_subset bench handle)
  | release handle keep borrowed => exact ensures_release handle keep borrowed
  | collect borrowed => exact ensures_collect borrowed

/-! ## Rows of commands -/

/-- The bench after some commands. -/
def after (bench : Workbench) (commands : List Command) : Workbench :=
  commands.foldl (fun bench command => (bench.step command).2) bench

theorem history_step (h : Heap.History True bench.owners bench.heap) (command : Command)
    (hplain : command.Plain) :
    Heap.History True (bench.step command).2.owners (bench.step command).2.heap := by
  unfold step
  cases hrun : perform command bench with
  | error refusal => exact h
  | ok result =>
    obtain ⟨reply, next⟩ := result
    exact Heap.History.sweep (ensures_perform command hplain bench h reply next hrun)

/-- **Whatever is done at the workbench, the heap on it has a history with the handles.** -/
theorem history_after (commands : List Command) (hplain : ∀ command ∈ commands, command.Plain) :
    Heap.History True (empty.after commands).owners (empty.after commands).heap := by
  have hfold : ∀ bench : Workbench, Heap.History True bench.owners bench.heap →
      Heap.History True (bench.after commands).owners (bench.after commands).heap := by
    induction commands with
    | nil => exact fun _ h => h
    | cons command rest ih =>
      intro bench h
      have hrest := ih fun other hother => hplain other (List.mem_cons_of_mem _ hother)
      exact hrest _ (history_step h command (hplain command List.mem_cons_self))
  exact hfold empty Heap.History.empty

end Workbench

end Scriptlet
