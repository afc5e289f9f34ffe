import Scriptlet.Proofs.Evaluation.Kept
import Scriptlet.Proofs.Parser.Places
import Scriptlet.Proofs.Token.Lossless

/-!
# Sources are run in their setting

The code that a run of a source can come to execute is that of the source: the store is empty when it
begins. All parts of this code stand somewhere in the source, since the parser takes its spans from
tokens (`parse_within`). So wherever a run fails, in whatever stage and at whatever depth of calls, the
failure points into the source (`runWithin_places`).
-/

namespace Scriptlet

variable {source : String} {limit steps : Nat} {console : Console} {failure : Failure}

/-! ## Parsing -/

/-- The code of a source, all of which stands in it. -/
def Code.ofSource (source : String) : Code := ⟨Span.PlacedIn source.toList, True⟩

theorem Stream.placed_ofTokens {code : Code} {ts : List Token} {last : Token}
    (hlast : last.kind = .endOfInput) (h : ∀ t ∈ ts ++ [last], code.place t.span) :
    (Stream.ofTokens (ts ++ [last])).Placed code := by
  refine ⟨fun t ht => h t ((List.takeWhile_prefix _).subset ht), ?_⟩
  have hfind : ((ts ++ [last]).find? fun t => decide (t.kind = .endOfInput)).isSome := by
    simp [hlast]
  obtain ⟨t, ht⟩ := Option.isSome_iff_exists.mp hfind
  have hend : (Stream.ofTokens (ts ++ [last])).last = t := by simp [Stream.ofTokens, ht]
  rw [hend]
  exact h t (List.mem_of_find?_eq_some ht)

/-- **What is read stands in the source, and a failure to read it points there.** -/
theorem parse_within (source : String) :
    match parse source with
    | .ok program => ∀ stmt ∈ program, stmt.Within (.ofSource source)
    | .error failure => ∃ span, failure.span = some span ∧ span.PlacedIn source.toList := by
  have htokenizes := tokenize_spec source
  unfold parse
  cases htokens : tokenize source with
  | error failure =>
    rw [htokens] at htokenizes
    exact htokenizes
  | ok tokens =>
    rw [htokens] at htokenizes
    have hspells : Spells [] tokens source.toList := htokenizes
    obtain ⟨others, heq, -⟩ := hspells.ends
    have hplaced : (Stream.ofTokens tokens).Placed (.ofSource source) := by
      rw [heq]
      exact Stream.placed_ofTokens rfl fun t ht => (hspells.standsIn t (heq ▸ ht)).placed
    have hparser : Parser.Places (.ofSource source) Parser.program _ :=
      Parser.program_places trivial fun _ _ => Span.PlacedIn.join
    have hprogram := hparser _ hplaced
    change match parseTokens tokens with
      | .ok program => ∀ stmt ∈ program, stmt.Within (.ofSource source)
      | .error failure => ∃ span, failure.span = some span ∧ span.PlacedIn source.toList
    unfold parseTokens
    cases hresult : Parser.program (Stream.ofTokens tokens) with
    | error failure =>
      rw [hresult] at hprogram
      exact hprogram
    | ok found =>
      rw [hresult] at hprogram
      exact hprogram.1

/-! ## Running -/

/-- The setting of a run of a source: its code, in whatever scopes there are. -/
def Setting.ofSource (source : String) (limit : Nat) : Setting :=
  ⟨.ofSource source, fun _ => True, limit⟩

theorem Setting.holds_start (source : String) (console : Console) (limit : Nat) :
    (Setting.ofSource source limit).Holds 0 (.start console limit) :=
  ⟨.empty fun _ => trivial, rfl, rfl⟩

namespace Composed

variable {σ : Setting} {depth : Nat}

theorem consoleObject : Composed σ depth false (fun _ => Eval.consoleObject) σ.Admits := by
  have hnative : ∀ f, σ.Admits (.native f) := fun _ => Setting.admits_of_plain rfl
  have hwriters : ∀ id, σ.Admits (.object id
      [("print", .native .print), ("println", .native .println)]) := fun id =>
    Setting.admits_object (by simp [hnative])
  refine freshId.bind fun inner _ => freshId.bind fun outer _ => pure ?_
  exact Setting.admits_object (by simp [hnative, hwriters])

theorem rootScope : Composed σ depth false (fun _ => Eval.rootScope) σ.scopes := by
  have htruth : ∀ b, σ.Admits (.boolean b) := fun _ => Setting.admits_of_plain rfl
  refine (openScope (by simp)).bind fun root hroot => ?_
  refine (declare (htruth true) root _ _).bind fun _ _ => ?_
  refine (declare (htruth false) root _ _).bind fun _ _ => ?_
  exact consoleObject.bind fun con hcon => (declare hcon root _ _).bind fun _ _ => pure hroot

end Composed

/-- A program of a source fails at places of the source. -/
theorem runProgram_places {program : Program} {after : Machine}
    (hprogram : ∀ stmt ∈ program, stmt.Within (.ofSource source))
    (h : runProgram steps program (.start console limit) = .error (.failure failure) after) :
    ∃ span, failure.span = some span ∧ span.PlacedIn source.toList := by
  have hstart := Composed.rootScope.keeps steps _ (Setting.holds_start source console limit)
  obtain ⟨machine, hroot⟩ : ∃ machine, Eval.rootScope (.start console limit) = .ok 0 machine :=
    ⟨_, rfl⟩
  rw [hroot] at hstart
  have hrun : (Setting.ofSource source limit).Ends 0 true (Setting.ofSource source limit).Admits
      (Eval.holding [.scope 0] (Eval.program steps program 0) machine) :=
    ((Composed.program hprogram hstart.1).holding [.scope 0]).keeps steps machine hstart.2
  unfold runProgram at h
  rw [hroot] at h
  dsimp only at h
  split at h
  · cases h
  · rename_i halt machine' hprogram'
    cases h
    rw [hprogram'] at hrun
    obtain ⟨fault, _ | span⟩ := failure
    · cases hrun.1
    · exact ⟨span, rfl, hrun.1⟩

/-- **Wherever a run fails, the failure points into the source.** -/
theorem runWithin_places
    (h : (runWithin steps limit source console).result = .error (.failure failure)) :
    ∃ span, failure.span = some span ∧ span.PlacedIn source.toList := by
  have hparse := parse_within source
  unfold runWithin runSource at h
  cases hprogram : parse source with
  | error failure' =>
    rw [hprogram] at hparse h
    cases h
    exact hparse
  | ok program =>
    rw [hprogram] at hparse h
    dsimp only at h
    split at h
    · cases h
    · rename_i halt after hrun
      cases h
      exact runProgram_places hparse hrun

end Scriptlet
