import Scriptlet.Proofs.Diagnosis
import Scriptlet.Proofs.Evaluation.Likeness
import Scriptlet.Proofs.Parser.Joined

/-!
# The stage that failed

**Theorem (`runWithin_phase`).** The fault of a failed run belongs to the stage at which the run stopped:
splitting the source into tokens, parsing the tokens, or running the program.

Only the first stage could report a number that cannot be read, and it never does. The parser could, and
it could meet an operator that it does not know; but it reads tokens of the lexer, whose kind and text
agree (`tokenize_sensible`), and on such tokens every failure is one of parsing. That running fails with
faults of running only is seen by comparing a run with itself.
-/

namespace Scriptlet

open List (Forall₂)

/-- Any spans and any numbers. -/
def Likeness.any : Likeness := ⟨fun _ _ => True, fun _ => True, False⟩

namespace Likeness

theorem carries_any : any.Carries := ⟨fun _ _ => trivial, fun _ _ _ => trivial⟩

theorem computes_any : any.Computes := ⟨fun _ _ _ => trivial, fun _ => trivial⟩

theorem isRefl_any : any.IsRefl := ⟨fun _ => trivial, fun _ => trivial, id⟩

end Likeness

variable {source : String} {tokens : List Token} {program : Program} {failure : Failure}

/-- Whatever the tokens of a source are read as is like itself, and a failure to read them is one of
parsing. -/
theorem parses_tokenized {ℓ : Likeness} (hℓ : ℓ.Carries) (hspan : ∀ span, ℓ.span span span)
    (h : tokenize source = .ok tokens) : ℓ.Parses (parseTokens tokens) (parseTokens tokens) := by
  obtain ⟨ts, last, rfl, hlast, hlegible, hts, hlegibles⟩ := exists_of_tokenize h
  have hlike : ∀ t ∈ ts, t.Like ℓ t := fun t ht => ⟨rfl, rfl, hspan t.span, hlegibles t ht⟩
  exact parseTokens_like hℓ hts hlast (List.forall₂_same.mpr hlike)
    ⟨rfl, rfl, hspan last.span, hlegible⟩ (.inl rfl)

/-- A number that cannot be read is a fault of the lexer's stage. -/
theorem Failure.fault_ne_invalidNumber (failure : Failure) (h : failure.phase ≠ .lexing)
    (text : String) : failure.fault ≠ .invalidNumber text := by
  intro heq
  apply h
  rw [Failure.phase, heq]
  rfl

theorem phase_of_tokenize (h : tokenize source = .error failure) :
    failure.phase = .lexing ∧ ∀ text, failure.fault ≠ .invalidNumber text := by
  have hsensible := tokenize_sensible source
  rwa [h] at hsensible

theorem phase_of_parseTokens (htokens : tokenize source = .ok tokens)
    (h : parseTokens tokens = .error failure) : failure.phase = .parsing := by
  have hparses := parses_tokenized Likeness.carries_any (fun _ => trivial) htokens
  rw [h] at hparses
  obtain _ | hfailure := hparses
  exact hfailure.phase

/-- Tokens that are a program are run, and fail with a fault of running. -/
theorem phase_of_runProgram (htokens : tokenize source = .ok tokens)
    (hprogram : parseTokens tokens = .ok program) {steps limit : Nat} {console : Console}
    {after : Machine}
    (h : runProgram steps program (.start console limit) = .error (.failure failure) after) :
    failure.phase = .running := by
  have hparses := parses_tokenized Likeness.carries_any (fun _ => trivial) htokens
  rw [hprogram] at hparses
  obtain hlike | _ := hparses
  rcases Likeness.runProgram Likeness.computes_any [] steps hlike _ _
      (Machine.like_start console limit) with
    ⟨_, _, _, _, hok, -⟩ | ⟨halt, _, halt', _, hrun, -, hhalt, -⟩
  · rw [h] at hok
    cases hok
  · rw [h] at hrun
    cases hrun
    obtain hfailure | _ := hhalt
    exact hfailure.phase

/-- How the three stages follow each other. -/
theorem runWithin_cases (steps limit : Nat) (source : String) (console : Console) :
    (∃ e, tokenize source = .error e ∧
      (runWithin steps limit source console).result = .error (.failure e)) ∨
    (∃ tokens e, tokenize source = .ok tokens ∧ parseTokens tokens = .error e ∧
      (runWithin steps limit source console).result = .error (.failure e)) ∨
    ∃ tokens program, tokenize source = .ok tokens ∧ parseTokens tokens = .ok program ∧
      ∀ failure, (runWithin steps limit source console).result = .error (.failure failure) →
        ∃ after, runProgram steps program (.start console limit) = .error (.failure failure) after := by
  unfold runWithin runSource parse
  cases htokens : tokenize source with
  | error e => exact .inl ⟨e, rfl, rfl⟩
  | ok tokens =>
    have hparse : (Except.ok tokens >>= parseTokens : Except Failure Program) = parseTokens tokens := rfl
    rw [hparse]
    cases hprogram : parseTokens tokens with
    | error e => exact .inr (.inl ⟨tokens, e, rfl, hprogram, rfl⟩)
    | ok program =>
      refine .inr (.inr ⟨tokens, program, rfl, hprogram, fun failure h => ?_⟩)
      dsimp only at h
      split at h
      · cases h
      · rename_i after hrun
        cases h
        exact ⟨after, hrun⟩

/-- **A run fails in the phase of the stage that failed**, and never over a number. -/
theorem runWithin_phase (steps limit : Nat) (source : String) (console : Console) :
    (∀ failure, (runWithin steps limit source console).result = .error (.failure failure) →
      (failure.phase = .lexing ↔ ∃ e, tokenize source = .error e) ∧
      (failure.phase = .parsing ↔
        ∃ tokens e, tokenize source = .ok tokens ∧ parseTokens tokens = .error e) ∧
      (failure.phase = .running ↔
        ∃ tokens program, tokenize source = .ok tokens ∧ parseTokens tokens = .ok program) ∧
      ∀ text, failure.fault ≠ .invalidNumber text) ∧
    (∀ e, parse source = .error e →
      (runWithin steps limit source console).result = .error (.failure e)) ∧
    ∀ tokens, tokenize source = .ok tokens → ∀ t ∈ tokens,
      (t.kind = .integer → IsDigits t.lexeme.toList) ∧
      (t.kind = .float → IsPointed t.lexeme.toList) ∧
      (t.kind = .integer ∨ t.kind = .float → (Double.ofLexeme? t.lexeme.toList).isSome) ∧
      (t.isBinary = true → (BinaryOp.ofLexeme? t.lexeme).isSome) := by
  refine ⟨fun failure h => ?_, fun e he => ?_, fun tokens htokens t ht => ?_⟩
  · rcases runWithin_cases steps limit source console with ⟨e, htokens, hrun⟩ |
      ⟨tokens, e, htokens, hparse, hrun⟩ | ⟨tokens, program, htokens, hparse, hrun⟩
    · obtain rfl : failure = e := by simpa [hrun] using h.symm
      obtain ⟨hphase, hnumber⟩ := phase_of_tokenize htokens
      simp [hphase, hnumber, htokens]
    · obtain rfl : failure = e := by simpa [hrun] using h.symm
      have hphase := phase_of_parseTokens htokens hparse
      have hnumber := failure.fault_ne_invalidNumber (by rw [hphase]; decide)
      simp [hphase, hnumber, htokens, hparse]
    · obtain ⟨after, hafter⟩ := hrun failure h
      have hphase := phase_of_runProgram htokens hparse hafter
      have hnumber := failure.fault_ne_invalidNumber (by rw [hphase]; decide)
      simp [hphase, hnumber, htokens, hparse]
  · unfold runWithin runSource
    rw [he]
  · have hlegible : t.Legible := by
      have hsensible := tokenize_sensible source
      rw [htokens] at hsensible
      exact hsensible t ht
    exact ⟨hlegible.integer, hlegible.float, hlegible.number, hlegible.operator⟩

/-- A group that is never closed, behind numbers and operators. -/
theorem runWithin_phase_unclosed :
    let source := "1 + 2. ^ ("
    let failure : Failure := ⟨.unexpectedToken "end of input", some ⟨10, 10, 1, 11⟩⟩
    (runWithin ampleSteps defaultDepthLimit source (.ofLines [])).result =
        .error (.failure failure) ∧
      failure.phase = .parsing ∧
      ∃ tokens e, tokenize source = .ok tokens ∧ parseTokens tokens = .error e := by
  intro source failure
  have hfails : (runWithin ampleSteps defaultDepthLimit source (.ofLines [])).result =
      .error (.failure failure) := Outcome.result_of_failsWith (by decide +kernel)
  obtain ⟨hphases, -, -⟩ :=
    runWithin_phase ampleSteps defaultDepthLimit source (.ofLines [])
  exact ⟨hfails, rfl, (hphases failure hfails).2.1.mp rfl⟩

end Scriptlet
