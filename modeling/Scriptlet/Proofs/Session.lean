import Scriptlet.Proofs.Evaluation.Run
import Scriptlet.Session

/-!
# Sessions and the collector

Between two steps of a session the owners are its root scope and the values it holds. Two sessions
are `Between` the same steps if they hold the same and their machines cannot be told apart through
that. Each step that programs are made of takes such sessions to such sessions and answers the same
(`Session.together_perform`), while a collection in one of them goes unnoticed. So what a session
shows does not depend on when and what is collected (`Session.observe_keepingAll`).
-/

namespace Scriptlet.Session

open Store (ownedNodes)

variable {s t : Session} {vs ws : List Value} {α : Type} {x : Eval α} {result : α → List Value}

/-! ## Two sessions -/

/-- Two sessions that cannot be told apart, with some values in hand. -/
structure Between (hand : List Value) (s t : Session) : Prop where
  root : t.root = s.root
  held : t.held = s.held
  watched : t.watched = s.watched
  point : At [] (Owner.values hand ++ s.owners) s.machine t.machine

namespace Between

theorem owners_eq (h : Between vs s t) : t.owners = s.owners := by
  rw [owners, owners, h.root, h.held]

/-- What is in hand may be exchanged for what it or the session leads to. -/
theorem of_owned (h : Between vs s t)
    (howned : ∀ w ∈ ws, s.machine.heap.store.Knows (Owner.values vs ++ s.owners) w) :
    Between ws s t := by
  refine { h with point := h.point.of_owned ?_ fun id hid => by simpa [Owner.values] using hid }
  rw [List.append_nil]
  exact Store.owned_values_subset howned (List.subset_append_right _ _)

theorem of_subset (h : Between vs s t) (hws : ws ⊆ vs) : Between ws s t :=
  h.of_owned fun _ hw =>
    Store.knows_of_mem (List.mem_append_left _ (List.mem_map_of_mem (hws hw)))

theorem drop (h : Between vs s t) : Between [] s t := h.of_subset (List.nil_subset vs)

/-- The session may hold other values, if they are held already or in hand. -/
theorem hold (h : Between vs s t) {held : Record Value}
    (hheld : ∀ entry ∈ held, entry.2 ∈ vs ∨ entry ∈ s.held) (hws : ws ⊆ vs) :
    Between ws { s with held } { t with held } := by
  refine { root := h.root, held := rfl, watched := h.watched, point := h.point.of_owned ?_ ?_ }
  · rw [List.append_nil]
    refine Store.owned_subset_reachable fun o ho => ?_
    rcases List.mem_append.mp ho with ho | ho
    · exact List.mem_append_left _ (List.map_subset _ hws ho)
    · rcases List.mem_append.mp ho with ho | ho
      · exact List.mem_append_right _ (List.mem_append_left _ ho)
      · obtain ⟨entry, hentry, rfl⟩ := List.mem_map.mp ho
        rcases hheld entry hentry with hv | hentry
        · exact List.mem_append_left _ (List.mem_map_of_mem hv)
        · exact List.mem_append_right _ (List.mem_append_right _ (List.mem_map_of_mem hentry))
  · intro id hid
    simpa [Owner.values, owners] using hid

end Between

/-! ## Parts of steps -/

theorem together_runMachine {before : Session → Session → Prop}
    (h : ∀ s t, before s t → Between vs s t ∧ Steady s.owners vs x result) :
    Together before (runMachine x) (fun a => Between (result a)) (Between []) := by
  intro s t hbefore
  obtain ⟨hst, hsteady⟩ := h s t hbefore
  have hx : Together (At (s.owners ++ []) (Owner.values vs)) x
      (fun a => At (s.owners ++ []) (Owner.values (result a))) (At (s.owners ++ []) []) := by
    rw [List.append_nil]
    exact hsteady
  have hpoint : At [] (s.owners ++ Owner.values vs) s.machine t.machine := by
    refine { hst.point with heaps := hst.point.heaps.congr fun o => ?_ }
    simp only [List.append_nil, List.mem_append, or_comm]
  rcases At.discipline.together_holding hx _ _ hpoint with ⟨a, m, n, hm, hn, hrel⟩ | ⟨halt, m, n, hm, hn, hrel⟩
  · refine .inl ⟨a, { s with machine := m }, { t with machine := n }, ?_, ?_,
      { hst with point := hrel }⟩
    · simp only [runMachine, hm]
    · simp only [runMachine, hst.owners_eq, hn]
  · refine .inr ⟨.halt halt, { s with machine := m }, { t with machine := n }, ?_, ?_,
      { hst with point := hrel }⟩
    · simp only [runMachine, hm]
    · simp only [runMachine, hst.owners_eq, hn]

theorem rootScope_apply (s : Session) :
    rootScope s =
      match s.root with
      | some root => .ok root s
      | none => .error .noRoot s := by
  have hget : rootScope s =
      (match s.root with
      | some root => return root
      | none => throw .noRoot : Work ScopeId) s := rfl
  rw [hget]
  cases s.root <;> rfl

theorem together_rootScope :
    Together (Between vs) rootScope (fun root s t => Between vs s t ∧ .scope root ∈ s.owners)
      (Between []) := by
  intro s t hst
  rw [rootScope_apply, rootScope_apply, hst.root]
  cases hroot : s.root with
  | none => exact .inr ⟨.noRoot, s, t, rfl, rfl, hst.drop⟩
  | some root => exact .inl ⟨root, s, t, rfl, rfl, hst, by simp [owners, hroot]⟩

theorem find_held_apply (name : String) (s : Session) :
    find (.held name) s =
      match s.held.get? name with
      | some value => .ok value s
      | none => .error .notHeld s := by
  have hget : find (.held name) s =
      (match s.held.get? name with
      | some value => return value
      | none => throw .notHeld : Work Value) s := rfl
  rw [hget]
  cases s.held.get? name <;> rfl

theorem together_find (source : Source) :
    Together (Between vs) (find source) (fun v => Between (v :: vs)) (Between []) := by
  cases source with
  | named name =>
    refine Together.bind together_rootScope fun root => ?_
    exact together_runMachine fun s t hst => ⟨hst.1, .lookup hst.2 name⟩
  | held name =>
    intro s t hst
    rw [find_held_apply, find_held_apply, hst.held]
    cases hname : s.held.get? name with
    | none => exact .inr ⟨.notHeld, s, t, rfl, rfl, hst.drop⟩
    | some v =>
      refine .inl ⟨v, s, t, rfl, rfl, hst.of_owned fun w hw => Store.knows_of_mem ?_⟩
      rcases List.mem_cons.mp hw with rfl | hw
      · have howned : Owner.value w ∈ s.held.map (.value ·.2) :=
          List.mem_map_of_mem (Record.mem_of_get?_eq_some hname)
        exact List.mem_append_right _ (List.mem_append_right _ howned)
      · exact List.mem_append_left _ (List.mem_map_of_mem hw)

theorem together_keep (name : String) {v : Value} (hv : v ∈ vs) (hws : ws ⊆ vs) :
    Together (Between vs) (keep name v) (fun _ => Between ws) (Between []) := by
  refine Together.modify fun s t hst => ?_
  rw [hst.held]
  refine hst.hold (fun entry hentry => ?_) hws
  rcases Record.mem_of_mem_put hentry with rfl | hentry
  · exact .inl hv
  · exact .inr hentry

/-! ## Steps -/

/-- The values that a step brings along. -/
def Step.args : Step → List Value
  | .call _ args _ => args
  | _ => []

/-- Whether a step does nothing but collect. -/
def Step.collects : Step → Bool
  | .collect => true
  | _ => false

/-- Whether a step gives up the root scope. -/
def Step.releases : Step → Bool
  | .releaseRoot => true
  | _ => false

/-- **A step that does not collect answers the same in sessions that cannot be told apart.** -/
theorem together_perform (step : Step) (hcollects : step.collects = false)
    (hreleases : step.releases = false) :
    Together (Between step.args) (perform step) (fun _ => Between []) (Between []) := by
  cases step with
  | evaluate source =>
    refine Together.bind together_rootScope fun root => ?_
    cases parse source with
    | error failure => exact Together.throw fun s t hst => hst.1.drop
    | ok program =>
      have hrun : ∀ s t, (Between [] s t ∧ .scope root ∈ s.owners) → Between [] s t ∧
          Steady s.owners [] (Eval.program ampleSteps program root) fun v => [v] :=
        fun s t hst => ⟨hst.1, Steady.program ampleSteps program hst.2⟩
      exact Together.map (together_runMachine hrun) fun _ _ _ hst => hst.drop
  | call callee args holdAs =>
    refine Together.bind (together_find callee) fun callee => ?_
    have hcall : ∀ s t, Between (callee :: args) s t → Between ([callee] ++ args) s t ∧
        Steady s.owners ([callee] ++ args) (Eval.holding (Owner.values [callee])
          (Eval.call (Eval.executeBlock ampleSteps) callee args)) fun v => [v] ++ [callee] :=
      fun s t hst => ⟨hst, .holding (At.discipline.call ampleSteps List.mem_cons_self args)⟩
    refine Together.bind (together_runMachine hcall) fun v => ?_
    cases holdAs with
    | none => exact Together.pure fun s t hst => hst.drop
    | some name =>
      refine Together.bind (together_keep name List.mem_cons_self (List.nil_subset _)) fun _ => ?_
      exact Together.pure fun s t hst => hst
  | hold value name =>
    refine Together.bind (together_find value) fun v => ?_
    refine Together.bind (together_keep name List.mem_cons_self (List.nil_subset _)) fun _ => ?_
    exact Together.pure fun s t hst => hst
  | unhold name =>
    intro s t hst
    refine .inl ⟨.unheld (s.held.get? name).isSome, _, { t with held := s.held.drop name }, rfl,
      ?_, ?_⟩
    · rw [← hst.held]
      rfl
    · exact hst.hold (fun entry hentry => .inr (List.mem_of_mem_filter hentry)) (List.nil_subset _)
  | watch value name =>
    refine Together.bind (together_find value) fun v => ?_
    cases v with
    | function f =>
      refine Together.bind (Together.modify fun s t hst => ?_) fun _ =>
        Together.pure fun s t hst => hst
      exact { hst.drop with watched := by rw [hst.watched] }
    | _ => exact Together.throw fun s t hst => hst.drop
  | collect => simp [Step.collects] at hcollects
  | releaseRoot => simp [Step.releases] at hreleases

/-! ## Rows of steps -/

/-- The session after some steps. -/
def after (session : Session) : List Step → Session
  | [] => session
  | step :: rest => after (session.step step).2.2 rest

/-- What the steps that do not collect answer and write. -/
def observe (session : Session) : List Step → List (Except Trouble Answer × String)
  | [] => []
  | step :: rest =>
    let (answer, output, next) := session.step step
    if step.collects then next.observe rest else (answer, output) :: next.observe rest

/-- Whether each step brings only values that the session leads to then, or that have no
identity. -/
def Legal (session : Session) : List Step → Prop
  | [] => True
  | step :: rest =>
    (∀ v ∈ step.args, session.machine.heap.store.Knows session.owners v) ∧
      (session.step step).2.2.Legal rest

/-- Values without identity may be brought along at any time. -/
theorem legal_of_plain (steps : List Step)
    (hplain : ∀ step ∈ steps, ∀ v ∈ step.args, v.node? = none) : s.Legal steps := by
  induction steps generalizing s with
  | nil => trivial
  | cons step rest ih =>
    exact ⟨fun v hv => Store.knows_of_plain (hplain step List.mem_cons_self v hv),
      ih fun other hother => hplain other (List.mem_cons_of_mem _ hother)⟩

/-- The same session with a collector that never empties a scope. -/
def keepingAll (session : Session) : Session :=
  { session with machine := { session.machine with heap := session.machine.heap.keepingAll } }

theorem Between.quiet (h : Between vs s t) : Between vs s.quiet t.quiet :=
  { h with point := h.point.withConsole Console.forget }

/-- A step leaves sessions that cannot be told apart as such, and answers the same. -/
theorem between_step (step : Step) (hcollects : step.collects = false)
    (hreleases : step.releases = false) (h : Between [] s.quiet t.quiet)
    (hargs : ∀ v ∈ step.args, s.machine.heap.store.Knows s.owners v) :
    (t.step step).1 = (s.step step).1 ∧ (t.step step).2.1 = (s.step step).2.1 ∧
      Between [] (s.step step).2.2 (t.step step).2.2 := by
  have hready : Between step.args s.quiet t.quiet := h.of_owned fun v hv => hargs v hv
  rcases together_perform step hcollects hreleases _ _ hready with
    ⟨answer, s', t', hs, ht, hrel⟩ | ⟨trouble, s', t', hs, ht, hrel⟩
  · simp only [Session.step, hs, ht]
    exact ⟨trivial, by rw [hrel.point.console], hrel⟩
  · simp only [Session.step, hs, ht]
    exact ⟨trivial, by rw [hrel.point.console], hrel⟩

/-- **A collection in one of the sessions goes unnoticed.** -/
theorem between_collect (h : Between [] s.quiet t.quiet) :
    Between [] (s.step .collect).2.2.quiet t.quiet := by
  have hheaps : Heap.Alike s.owners s.machine.heap t.machine.heap := by
    have hboth := h.point.heaps
    rw [List.append_nil] at hboth
    exact hboth
  refine { h with point := { h.point with heaps := ?_ } }
  rw [List.append_nil]
  exact hheaps.collect_left

theorem observe_cons (step : Step) (rest : List Step) :
    s.observe (step :: rest) =
      if step.collects then (s.step step).2.2.observe rest
      else ((s.step step).1, (s.step step).2.1) :: (s.step step).2.2.observe rest := rfl

theorem between_observe (steps : List Step) (hroot : ∀ step ∈ steps, step.releases = false)
    (h : Between [] s.quiet t.quiet) (hlegal : s.Legal steps) :
    t.observe (steps.filter (!·.collects)) = s.observe steps := by
  induction steps generalizing s t with
  | nil => rfl
  | cons step rest ih =>
    have hrest : ∀ step ∈ rest, step.releases = false := fun step hstep =>
      hroot step (List.mem_cons_of_mem _ hstep)
    obtain ⟨hargs, hlegal⟩ := hlegal
    rw [observe_cons]
    cases hcollects : step.collects with
    | true =>
      have hstep : step = .collect := by
        cases step <;> simp_all [Step.collects]
      subst hstep
      have hnext := ih hrest (between_collect h) hlegal
      simpa [Step.collects] using hnext
    | false =>
      obtain ⟨hanswer, houtput, hnext⟩ :=
        between_step step hcollects (hroot step List.mem_cons_self) h hargs
      have hfilter : (step :: rest).filter (!·.collects) = step :: rest.filter (!·.collects) := by
        simp [hcollects]
      rw [hfilter, observe_cons, hcollects, hanswer, houtput, ih hrest hnext.quiet hlegal]

/-! ## Orderly sessions -/

/-- What every session keeps to between two steps. -/
structure Orderly (s : Session) : Prop where
  owners : s.machine.owners = []
  heap : Heap.History False s.owners s.machine.heap
  reclaims : s.machine.heap.reclaims = true

theorem Orderly.between (h : s.Orderly) : Between [] s s where
  root := rfl
  held := rfl
  watched := rfl
  point := ⟨h.owners, h.owners, rfl, rfl, rfl,
    by simpa [Owner.values] using .refl h.heap h.reclaims⟩

theorem Between.orderly (h : Between [] s t) : s.Orderly :=
  ⟨h.point.left, by simpa [Owner.values] using h.point.heaps.left, h.point.heaps.reclaims⟩

theorem orderly_start (console : Console) (limit : Nat) : (start console limit).Orderly := by
  obtain ⟨root, machine, hroot, hat⟩ := rootScope_start console limit
  rw [start, hroot]
  exact ⟨hat.left, by simpa [Session.owners] using hat.heaps.left, hat.heaps.reclaims⟩

/-- Giving up the root scope, and the collection after it. -/
theorem step_releaseRoot {root : ScopeId} (hroot : s.root = some root) :
    (s.step .releaseRoot).2.2 = { s.quiet with
      root := none
      machine := { s.quiet.machine with
        heap := (s.machine.heap.release (s.held.map (.value ·.2)) [] root).collect
          (s.held.map (.value ·.2)) [] } } := by
  simp only [Session.step, perform, bind, EStateM.bind, rootScope_apply, quiet, hroot]
  rfl

theorem owners_of_root {root : ScopeId} (hroot : s.root = some root) :
    s.owners = .scope root :: s.held.map (.value ·.2) := by
  simp [owners, hroot]

theorem Orderly.step (h : s.Orderly) (step : Step)
    (hargs : ∀ v ∈ step.args, s.machine.heap.store.Knows s.owners v) :
    (s.step step).2.2.Orderly := by
  cases hcollects : step.collects with
  | true =>
    have hstep : step = .collect := by
      cases step <;> simp_all [Step.collects]
    subst hstep
    exact ⟨h.owners, h.heap.collect [], h.reclaims⟩
  | false =>
    cases hreleases : step.releases with
    | false => exact (between_step step hcollects hreleases h.between.quiet hargs).2.2.orderly
    | true =>
      have hstep : step = .releaseRoot := by
        cases step <;> simp_all [Step.releases]
      subst hstep
      cases hroot : s.root with
      | none =>
        have hstep : (s.step .releaseRoot).2.2 = s.quiet := by
          simp only [Session.step, perform, bind, EStateM.bind, rootScope_apply, quiet, hroot]
        rw [hstep]
        exact ⟨h.owners, h.heap, h.reclaims⟩
      | some root =>
        rw [step_releaseRoot hroot]
        have hheap := h.heap
        rw [owners_of_root hroot] at hheap
        exact ⟨h.owners, (hheap.release []).collect [], Heap.reclaims_release.trans h.reclaims⟩

theorem Orderly.after (h : s.Orderly) (steps : List Step) (hlegal : s.Legal steps) :
    (s.after steps).Orderly := by
  induction steps generalizing s with
  | nil => exact h
  | cons step rest ih => exact ih (h.step step hlegal.1) hlegal.2

/-! ## Programs do not see the collector -/

/-- **Whatever is collected, and whenever, a session shows the same.** -/
theorem observe_keepingAll (console : Console) (limit : Nat) (steps : List Step)
    (hroot : ∀ step ∈ steps, step.releases = false) (hlegal : (start console limit).Legal steps) :
    (start console limit).keepingAll.observe (steps.filter (!·.collects)) =
      (start console limit).observe steps := by
  have hstart := (orderly_start console limit).between.quiet
  refine between_observe steps hroot { hstart with point := ?_ } hlegal
  exact { hstart.point with
    heaps := { hstart.point.heaps with right := hstart.point.heaps.right.keepAll } }

/-- A counter goes on counting after a collection. -/
theorem observe_keepingAll_counter :
    let program := "def make() { declare i = 0 def count() { i = i + 1 } count } declare c = make()"
    let session := start (Console.ofLines []) defaultDepthLimit
    let count := Step.call (.named "c") [] none
    session.keepingAll.observe [.evaluate program, count, count] =
      session.observe [.evaluate program, count, .collect, count] := by
  intro program session count
  refine observe_keepingAll _ _ [.evaluate program, count, .collect, count] ?_ ?_
  · simp [count, Step.releases]
  · exact legal_of_plain _ (by simp [count, Step.args])

end Scriptlet.Session
