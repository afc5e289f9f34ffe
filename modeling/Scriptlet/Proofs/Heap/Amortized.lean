import Mathlib.Algebra.BigOperators.Ring.List
import Mathlib.Algebra.Order.BigOperators.Group.List
import Mathlib.Algebra.Order.Ring.Nat
import Mathlib.Data.List.Induction
import Scriptlet.Heap.Collector

/-!
# What collections cost

Giving up a handle may start a collection, which scans all candidates again. Handles are given up one
after the other here, and in between anything may have happened to the heap.

**Theorem (`passes_amortized`).** There are always fewer candidates than the threshold, which is never
below 64. A collection starts when there are as many candidates as the threshold, and at least half of
them have been remembered since the collection before. So all collections together scan at most twice as
many candidates as there were scopes to remember.

The invariant (`Paced`) is that the candidates are those that the last collection left, at most half of
the threshold, and behind them the scopes remembered since. It does not matter what a scan decides: the
threshold is set from what it leaves. Every scope is remembered since one collection only, so the scopes
that the collections are charged to are all different entries of one list.
-/

namespace Scriptlet.Heap

/-! ## Giving up handles -/

/-- A handle to a scope that is given up in some state of the store, with whoever else holds on to
something then, and the scopes that are borrowed. -/
structure GivenUp where
  store : Store
  owners : List Owner
  borrowed : List ScopeId
  scope : ScopeId

/-- The heap after a handle is given up. -/
def give (heap : Heap) (handle : GivenUp) : Heap :=
  { heap with store := handle.store }.release handle.owners handle.borrowed handle.scope

/-- The store that a scan would look at, without the scopes that are gone by then. -/
def GivenUp.swept (handle : GivenUp) : Store := handle.store.sweep (.scope handle.scope :: handle.owners)

/-- Whether a scope is live when the handle to it is given up: somebody else holds on to it, and it is
not freed. -/
def outlives (heap : Heap) (handle : GivenUp) : Bool :=
  handle.store.isOwned handle.owners handle.scope && handle.swept.isOwned handle.owners handle.scope &&
    (free? heap.reclaims handle.owners handle.borrowed handle.swept handle.scope).isNone

variable {heap : Heap} {handle : GivenUp}

/-- The heap as a collection would find it, with one more candidate. -/
def remembering (heap : Heap) (handle : GivenUp) : Heap :=
  { heap with store := handle.swept, candidates := heap.candidates ++ [handle.scope] }

/-- A live scope becomes a candidate, and one candidate too many starts a collection. -/
theorem give_of_outlives (h : heap.outlives handle = true) :
    heap.give handle =
      if heap.threshold ≤ (heap.remembering handle).candidates.length then
        (heap.remembering handle).collect handle.owners handle.borrowed
      else heap.remembering handle := by
  simp only [outlives, Bool.and_eq_true, Option.isNone_iff_eq_none] at h
  obtain ⟨⟨howned, hswept⟩, hfree⟩ := h
  rw [give, release, howned, if_neg (by simp)]
  dsimp only
  rw [← GivenUp.swept, hswept, if_neg (by simp), hfree]
  rfl

/-- Nothing but the store changes when the scope is gone or freed. -/
theorem give_of_not_outlives (h : heap.outlives handle = false) :
    ∃ store, heap.give handle = { heap with store } := by
  rw [give, release]
  dsimp only
  split
  · exact ⟨_, rfl⟩
  split
  · exact ⟨_, rfl⟩
  split
  · exact ⟨_, rfl⟩
  · rename_i howned hswept hfree
    simp_all [outlives, GivenUp.swept]

/-! ## A record of what was done -/

/-- One collection: the threshold then, the candidates that were scanned, and which scopes had been
remembered since the collection before. -/
structure Pass where
  threshold : Nat
  scanned : List ScopeId
  recent : List ScopeId

/-- The scopes that were remembered, all of them and those since the last collection, and the
collections. -/
structure Log where
  remembered : List ScopeId
  recent : List ScopeId
  passes : List Pass

/-- The log after a handle is given up. -/
def Log.give (log : Log) (heap : Heap) (handle : GivenUp) : Log :=
  if heap.outlives handle then
    let remembered := log.remembered ++ [handle.scope]
    let recent := log.recent ++ [handle.scope]
    let candidates := (heap.remembering handle).candidates
    if heap.threshold ≤ candidates.length then
      ⟨remembered, [], log.passes ++ [⟨heap.threshold, candidates, recent⟩]⟩
    else ⟨remembered, recent, log.passes⟩
  else log

/-- What giving up a handle comes to, for the heap and for the log: the scope is gone or freed; or it is
remembered, and there is room for more; or it is remembered, and a collection starts. -/
inductive Gives (heap : Heap) (log : Log) (handle : GivenUp) : Heap → Log → Prop where
  | gone (store : Store) (houtlives : heap.outlives handle = false) :
    Gives heap log handle { heap with store } log
  | remembered (houtlives : heap.outlives handle = true)
    (hroom : (heap.remembering handle).candidates.length < heap.threshold) :
    Gives heap log handle (heap.remembering handle)
      ⟨log.remembered ++ [handle.scope], log.recent ++ [handle.scope], log.passes⟩
  | collected (houtlives : heap.outlives handle = true)
    (hfull : heap.threshold ≤ (heap.remembering handle).candidates.length) :
    Gives heap log handle ((heap.remembering handle).collect handle.owners handle.borrowed)
      ⟨log.remembered ++ [handle.scope], [], log.passes ++
        [⟨heap.threshold, (heap.remembering handle).candidates, log.recent ++ [handle.scope]⟩]⟩

/-- The log tells what is done to the heap. -/
theorem gives (heap : Heap) (log : Log) (handle : GivenUp) :
    Gives heap log handle (heap.give handle) (log.give heap handle) := by
  cases houtlives : heap.outlives handle with
  | false =>
    obtain ⟨store, hstore⟩ := give_of_not_outlives houtlives
    rw [hstore, Log.give, houtlives]
    exact .gone store houtlives
  | true =>
    rw [give_of_outlives houtlives, Log.give, houtlives, if_pos rfl]
    dsimp only
    split
    · rename_i hfull
      exact .collected houtlives hfull
    · rename_i hroom
      exact .remembered houtlives (Nat.lt_of_not_le hroom)

/-- A new heap after some handles are given up, with the log. -/
def giveAll (handles : List GivenUp) : Heap × Log :=
  handles.foldl (fun (heap, log) handle => (heap.give handle, log.give heap handle))
    (Heap.empty, ⟨[], [], []⟩)

/-! ## The pace of collections -/

/-- A collection that was due: there were as many candidates as the threshold, and at least half of them
were new. -/
structure Pass.Due (pass : Pass) : Prop where
  full : pass.scanned.length = pass.threshold
  recent : pass.recent <:+ pass.scanned
  half : pass.scanned.length ≤ 2 * pass.recent.length

/-- The state between two handles. -/
structure Paced (heap : Heap) (log : Log) : Prop where
  least : leastThreshold ≤ heap.threshold
  below : heap.candidates.length < heap.threshold
  /-- What the last collection left is at most half of the threshold. -/
  left : ∃ left, heap.candidates = left ++ log.recent ∧ 2 * left.length ≤ heap.threshold
  passes : ∀ pass ∈ log.passes, pass.Due
  /-- No scope is charged twice. -/
  charged : log.remembered = log.passes.flatMap Pass.recent ++ log.recent

namespace Paced

variable {log : Log}

theorem empty : Paced Heap.empty ⟨[], [], []⟩ where
  least := Nat.le_refl _
  below := by decide
  left := ⟨[], rfl, by decide⟩
  passes := by simp
  charged := rfl

/-- A collection makes room for as many scopes as it leaves, whatever these are. -/
theorem collect {passes : List Pass} {remembered : List ScopeId} (owners : List Owner)
    (borrowed : List ScopeId) (hpasses : ∀ pass ∈ passes, pass.Due)
    (hcharged : remembered = passes.flatMap Pass.recent) :
    Paced (heap.collect owners borrowed) ⟨remembered, [], passes⟩ where
  least := Nat.le_max_right _ _
  below := by
    have hleast : 0 < leastThreshold := by decide
    simp only [Heap.collect]
    omega
  left := ⟨_, (List.append_nil _).symm, Nat.le_max_left _ _⟩
  passes := hpasses
  charged := by rw [List.append_nil, hcharged]

/-- The collection that one more candidate starts. -/
theorem due (h : Paced heap log)
    (hfull : heap.threshold ≤ (heap.remembering handle).candidates.length) :
    Pass.Due ⟨heap.threshold, (heap.remembering handle).candidates, log.recent ++ [handle.scope]⟩ := by
  obtain ⟨left, hcandidates, hleft⟩ := h.left
  have hbelow := h.below
  have hlength : (heap.remembering handle).candidates.length = heap.threshold := by
    rw [remembering, List.length_append, List.length_singleton] at hfull ⊢
    omega
  refine ⟨hlength, ⟨left, by rw [remembering, hcandidates, List.append_assoc]⟩, ?_⟩
  simp only [remembering, hcandidates, List.length_append, List.length_singleton] at hlength ⊢
  omega

/-- **Giving up a handle keeps the pace.** -/
theorem give {heap' : Heap} {log' : Log} (h : Paced heap log) (hgives : Gives heap log handle heap' log') :
    Paced heap' log' := by
  cases hgives with
  | gone => exact { h with }
  | remembered _ hroom =>
    obtain ⟨left, hcandidates, hleft⟩ := h.left
    refine ⟨h.least, hroom, ⟨left, ?_, hleft⟩, h.passes, ?_⟩
    · rw [remembering, hcandidates, List.append_assoc]
    · rw [h.charged, List.append_assoc]
  | collected _ hfull =>
    refine collect _ _ (List.forall_mem_append.mpr ⟨h.passes, ?_⟩) (by simp [h.charged])
    exact List.forall_mem_singleton.mpr (h.due hfull)

theorem giveAll (handles : List GivenUp) : Paced (giveAll handles).1 (giveAll handles).2 := by
  induction handles using List.reverseRecOn with
  | nil => exact empty
  | append_singleton handles handle ih =>
    rw [Heap.giveAll, List.foldl_concat]
    exact ih.give (gives _ _ handle)

/-- Each collection is paid for by the scopes that were remembered since the one before. -/
theorem scanned_le (h : Paced heap log) :
    (log.passes.map (·.scanned.length)).sum ≤ 2 * log.remembered.length := by
  calc (log.passes.map (·.scanned.length)).sum
    _ ≤ (log.passes.map (2 * ·.recent.length)).sum :=
      List.sum_le_sum fun pass hpass => (h.passes pass hpass).half
    _ = 2 * (log.passes.flatMap Pass.recent).length := by
      rw [List.sum_map_mul_left, List.length_flatMap]
    _ ≤ 2 * log.remembered.length := by
      rw [h.charged, List.length_append]
      omega

end Paced

/-- **Collections are paid for by what there was to remember.** Whatever handle is given up next, the log
goes along with the heap. -/
theorem passes_amortized (handles : List GivenUp) :
    let (heap, log) := giveAll handles
    heap.candidates.length < heap.threshold ∧ 64 ≤ heap.threshold ∧
      (∀ handle, Gives heap log handle (heap.give handle) (log.give heap handle)) ∧
      (∀ pass ∈ log.passes, pass.scanned.length = pass.threshold ∧ pass.recent <:+ pass.scanned ∧
        pass.scanned.length ≤ 2 * pass.recent.length) ∧
      (log.passes.map (·.scanned.length)).sum ≤ 2 * log.remembered.length := by
  have hpaced := Paced.giveAll handles
  refine ⟨hpaced.below, hpaced.least, gives _ _, fun pass hpass => ?_, hpaced.scanned_le⟩
  have hdue := hpaced.passes pass hpass
  exact ⟨hdue.full, hdue.recent, hdue.half⟩

/-- Handles to a scope that another one keeps live: the sixty-fourth starts the only collection, which
frees nothing, so the threshold doubles. -/
example :
    let handle : GivenUp := ⟨(Store.empty.newScope none).2, [.scope 0], [], 0⟩
    let given := giveAll (.replicate 100 handle)
    given.1.candidates.length = 100 ∧ given.1.threshold = 128 ∧
      given.2.remembered.length = 100 ∧ given.2.passes.map (·.scanned.length) = [64] := by
  decide +kernel

end Scriptlet.Heap
