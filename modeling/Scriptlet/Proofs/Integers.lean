import Scriptlet.Proofs.Evaluation.Point
import Scriptlet.Proofs.Evaluation.Run
import Scriptlet.Proofs.Number.Whole
import Scriptlet.Proofs.Phase

/-!
# Integers stay integers

A number that is not marked as a float has no fractional part, wherever it is.

**Theorem (`integers_stay_integral`).** At every point of every run, the integers that the scopes, the
owners and the task at hand hold are whole or not finite, and so are those in what the run comes to. None
of them is written with a point.

Integers are written as digits only, and arithmetic marks its result as a float wherever a fraction may
arise (`Number.integral_arithmetic`). The rest is a comparison of each run with itself, in which nothing
is asked of spans, and of numbers just this.
-/

namespace Scriptlet

variable {v : Value} {m : Machine} {n : Number} {source : String}

/-- Any spans, and numbers that have no fractional part unless they are floats. -/
def Likeness.integral : Likeness := ⟨fun _ _ => True, Number.Integral, False⟩

namespace Likeness

theorem carries_integral : integral.Carries where
  join _ _ := trivial
  number hlegible hkind hvalue := by
    rcases hkind with hkind | hkind
    · rw [Double.ofLexeme?_digits (hlegible.integer hkind)] at hvalue
      cases hvalue
      exact fun _ => Double.integral_ofDecimal false _
    · intro hfloat
      rw [hkind] at hfloat
      cases hfloat

theorem computes_integral : integral.Computes :=
  ⟨Number.integral_arithmetic, Number.Integral.negate⟩

end Likeness

/-! ## The numbers that something holds -/

/-- The numbers that a value is, or that are in its properties. -/
inductive Value.Holds (n : Number) : Value → Prop where
  | number : Holds n (.number n)
  | property {id : Nat} {fields : List (String × Value)} {name : String} {v : Value}
    (hfield : (name, v) ∈ fields) (h : Holds n v) : Holds n (.object id fields)

/-- The numbers that are in some scope, or held on to. -/
inductive Machine.Holds (n : Number) (m : Machine) : Prop where
  | scope {id : ScopeId} {scope : Scope} {v : Value} (hscope : m.heap.store.scope? id = some scope)
    (hv : v ∈ scope.values) (h : v.Holds n)
  | owner {v : Value} (hv : .value v ∈ m.owners) (h : v.Holds n)

/-- The numbers that there are where something begins and where it ends. -/
inductive Point.Holds (n : Number) (p : Point) : Prop where
  | before (h : p.machine.Holds n)
  | value {v : Value} (hv : v ∈ p.task.values) (h : v.Holds n)
  | result {vs : List Value} {m : Machine} {v : Value} (hends : p.ending = .ok vs m) (hv : v ∈ vs)
    (h : v.Holds n)
  | after {vs : List Value} {m : Machine} (hends : p.ending = .ok vs m) (h : m.Holds n)
  | halted {halt : Halt} {m : Machine} (hends : p.ending = .error halt m) (h : m.Holds n)

section

variable {ℓ : Likeness}

theorem Value.Like.number_of_holds (h : v.Holds n) (hv : v.Like ℓ v) : ℓ.number n := by
  induction h with
  | number =>
    obtain ⟨⟩ := hv
    assumption
  | property hfield _ ih =>
    obtain ⟨⟩ := hv
    rename_i hfields
    obtain ⟨hlike⟩ := List.forall₂_same.mp hfields _ hfield
    exact ih hlike

theorem Machine.Like.number_of_holds (h : m.Holds n) (hm : m.Like ℓ [] m) : ℓ.number n := by
  cases h with
  | @scope id scope v hscope hv h =>
    have hlike := hm.heap.store.scope id
    rw [hscope] at hlike
    obtain ⟨⟩ := hlike
    rename_i hlike
    obtain ⟨entry, hentry, rfl⟩ := List.mem_map.mp hv
    obtain ⟨hbinding⟩ := List.forall₂_same.mp hlike.bindings _ hentry
    exact hbinding.value.number_of_holds h
  | owner hv h =>
    obtain ⟨⟩ := List.forall₂_same.mp hm.owners _ hv
    rename_i hlike
    exact hlike.number_of_holds h

theorem Task.Like.values {task : Task} (h : task.Like ℓ) : ∀ v ∈ task.values, v.Like ℓ v := by
  cases task with
  | arguments before args => exact List.forall₂_same.mp h.1
  | properties span before literal => exact List.forall₂_same.mp (Record.like_values h.2.1)
  | sequence last stmts => exact List.forall_mem_singleton.mpr h.1
  | call callee args => exact List.forall_mem_cons.mpr ⟨h.1, List.forall₂_same.mp h.2⟩
  | params pairs => exact List.forall₂_same.mp (Record.like_values h)
  | _ => exact fun _ hv => absurd hv List.not_mem_nil

theorem Point.Like.number_of_holds (hℓ : ℓ.Computes) {p : Point} (h : p.Holds n) (hp : p.Like ℓ) :
    ℓ.number n := by
  obtain ⟨hok, herror⟩ := hp.ending hℓ
  cases h with
  | before h => exact hp.machine.number_of_holds h
  | value hv h => exact (hp.task.values _ hv).number_of_holds h
  | result hends hv h => exact (List.forall₂_same.mp (hok _ _ hends).1 _ hv).number_of_holds h
  | after hends h => exact (hok _ _ hends).2.number_of_holds h
  | halted hends h => exact (herror _ _ hends).number_of_holds h

end

/-! ## Runs -/

/-- The first point of a run of a source: its program begins in its root scope. -/
inductive StartsAt (steps limit : Nat) (source : String) (console : Console) : Point → Prop where
  | program {program : Program} {root : ScopeId} {m : Machine} (hparse : parse source = .ok program)
    (hroot : Eval.rootScope (.start console limit) = .ok root m) :
    StartsAt steps limit source console
      ⟨steps, root, .sequence .null program, m.holding [.scope root]⟩

/-- An integer has no fractional part, nor does its text have one. -/
def Number.Proper (n : Number) : Prop :=
  n.isFloat = false →
    (n.value.isWhole = true ∨ n.value.isFinite = false) ∧ '.' ∉ n.text.toList

theorem Number.Integral.proper (h : n.Integral) : n.Proper := fun hfloat =>
  ⟨Double.integral_iff.mp (h hfloat), h.point_not_mem_text hfloat⟩

theorem integral_of_parse {program : Program} (h : parse source = .ok program) :
    List.Forall₂ (Stmt.Like .integral) program program := by
  obtain ⟨tokens, htokens, hparse⟩ := exists_of_parse h
  have hparses := parses_tokenized Likeness.carries_integral (fun _ => trivial) htokens
  rw [hparse] at hparses
  obtain hlike | _ := hparses
  exact hlike

theorem StartsAt.like {steps limit : Nat} {console : Console} {first : Point}
    (h : StartsAt steps limit source console first) : first.Like .integral := by
  obtain ⟨hparse, hroot⟩ := h
  obtain ⟨-, hm⟩ := Likeness.Mirrors.rootScope.of_ok (Machine.like_start console limit) hroot
  exact ⟨⟨.null, integral_of_parse hparse⟩, hm.holding (.cons (.scope _) .nil)⟩

/-- What a run of a source comes to is like itself. -/
theorem like_of_runSource (steps limit : Nat) (source : String) (console : Console) :
    (∀ v m, runSource steps source (.start console limit) = .ok v m →
      v.Like .integral v ∧ m.Like .integral [] m) ∧
    ∀ halt m, runSource steps source (.start console limit) = .error halt m →
      m.Like .integral [] m := by
  have hstart : Machine.Like .integral [] (.start console limit) (.start console limit) :=
    Machine.like_start console limit
  unfold runSource
  cases hparse : parse source with
  | error failure =>
    refine ⟨nofun, fun halt m h => ?_⟩
    cases h
    exact hstart
  | ok program =>
    have hrun := Likeness.runProgram Likeness.computes_integral [] steps (integral_of_parse hparse)
    exact ⟨fun _ _ => hrun.of_ok hstart, fun _ _ => hrun.of_error hstart⟩

/-- **Integers stay integers**, at every point of every run and in what it comes to. -/
theorem integers_stay_integral (steps limit : Nat) (source : String) (console : Console) :
    (∀ first p, StartsAt steps limit source console first → Reaches first p →
      ∀ n, p.Holds n → n.Proper) ∧
    (∀ v m, runSource steps source (.start console limit) = .ok v m →
      ∀ n, v.Holds n ∨ m.Holds n → n.Proper) ∧
    ∀ halt m, runSource steps source (.start console limit) = .error halt m →
      ∀ n, m.Holds n → n.Proper := by
  have hproper : ∀ {n : Number}, Likeness.integral.number n → n.Proper := Number.Integral.proper
  obtain ⟨hok, herror⟩ := like_of_runSource steps limit source console
  refine ⟨fun first p hfirst hreaches n hn => ?_, fun v m hrun n hn => ?_, fun halt m hrun n hn => ?_⟩
  · have hp := hreaches.like Likeness.computes_integral hfirst.like
    exact hproper (hp.number_of_holds Likeness.computes_integral hn)
  · obtain ⟨hv, hm⟩ := hok v m hrun
    rcases hn with hn | hn
    · exact hproper (hv.number_of_holds hn)
    · exact hproper (hm.number_of_holds hn)
  · exact hproper ((herror halt m hrun).number_of_holds hn)

/-- Whether a source comes to an integer. -/
def comesToInteger (source : String) : Bool :=
  match runSource ampleSteps source (.start (.ofLines []) defaultDepthLimit) with
  | .ok (.number n) _ => !n.isFloat
  | _ => false

theorem exists_of_comesToInteger (h : comesToInteger source = true) :
    ∃ n m, n.isFloat = false ∧
      runSource ampleSteps source (.start (.ofLines []) defaultDepthLimit) = .ok (.number n) m := by
  unfold comesToInteger at h
  split at h
  · rename_i n m hrun
    exact ⟨n, m, by simpa using h, hrun⟩
  · cases h

/-- A remainder of a negative power, at the end of a run, and all that the run held before. -/
theorem integers_stay_integral_remainder :
    let source := "declare n = 7 - 2 ^ 5; n % 3"
    let console := Console.ofLines []
    (∃ first, StartsAt ampleSteps defaultDepthLimit source console first ∧
      ∀ p, Reaches first p → ∀ n, p.Holds n → n.Proper) ∧
    ∃ n m, n.isFloat = false ∧ '.' ∉ n.text.toList ∧
      runSource ampleSteps source (.start console defaultDepthLimit) = .ok (.number n) m := by
  intro source console
  obtain ⟨hpoints, hends, -⟩ :=
    integers_stay_integral ampleSteps defaultDepthLimit source console
  have hinteger : comesToInteger source = true := by decide +kernel
  have hparses : (parse source).isOk = true := by decide +kernel
  obtain ⟨n, m, hfloat, hrun⟩ := exists_of_comesToInteger hinteger
  obtain ⟨program, hparse⟩ := exists_of_isOk hparses
  obtain ⟨root, machine, hroot, -⟩ := rootScope_start console defaultDepthLimit
  obtain ⟨first, hfirst⟩ : ∃ first, StartsAt ampleSteps defaultDepthLimit source console first :=
    ⟨_, .program hparse hroot⟩
  refine ⟨⟨first, hfirst, fun p => hpoints first p hfirst⟩, n, m, hfloat, ?_, hrun⟩
  exact (hends _ m hrun n (.inl .number) hfloat).2

end Scriptlet
