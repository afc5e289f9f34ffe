import Scriptlet.Proofs.Evaluation.Source
import Scriptlet.Proofs.Text.Lines

/-!
# Failures are reported with the line that they point at

A failure of a run points at a place of the source, and its report quotes the line around that place
with a caret below the place (`failures_point`). The scanner counts line feeds and characters, and the
report looks for a line in a list where carriage returns are dropped along with the line feeds; the two
agree because no failure points at a character that ends a line. Only at the end of the source there
is no character to point at.
-/

namespace Scriptlet

variable {source : String} {failure : Failure} {span : Span} {before rest : List Char}

namespace Failure

/-- The part of a report that quotes a line, given as the text in front of a place and the text from
there on. Nothing is quoted of an empty line. -/
def excerpt (left right : List Char) : String :=
  if left ++ right = [] then ""
  else "\n  | " ++ String.ofList (left ++ right) ++ "\n  | " ++
    String.ofList (List.replicate left.length ' ') ++ "^"

/-- A failure that points at a place of a source, where the line around the place is reported. -/
structure PointsAt (failure : Failure) (source : String) (span : Span)
    (above left right below : List Char) : Prop where
  located : failure.span = some span
  line : IsLine source.toList above (left ++ right) below
  begins : span.Begins (above ++ left) (right ++ below)
  within : span.stop ≤ source.utf8ByteSize
  column : left.length + 1 = span.column
  quoted : quotedLine? source span =
    if left ++ right = [] then none else some (String.ofList (left ++ right))
  report : failure.render source =
    s!"[line {span.line}:{span.column}] " ++ (failure.phase.text ++ ": " ++ failure.fault.message) ++
      excerpt left right
  atEnd : right = [] → below = [] ∧ span.start = source.utf8ByteSize

end Failure

/-- The line of the source is found by the number that its span has. -/
theorem quotedLine?_of_isLine {above line below : List Char}
    (hline : IsLine source.toList above line below) (hnumber : span.line = 1 + above.count '\n')
    (hend : line = [] → below = []) :
    Failure.quotedLine? source span = if line = [] then none else some (String.ofList line) := by
  have hindex : span.line - 1 = above.count '\n' := by omega
  unfold Failure.quotedLine? textLines
  rw [hindex, List.getElem?_map]
  split
  · rename_i hnil
    rw [hline.getElem?_linesFrom_of_nil (by simp [hnil, hend hnil])]
    rfl
  · rename_i hne
    rw [hline.getElem?_linesFrom (by simp [hne])]
    rfl

/-- Once the quoted line is known, so is the report. -/
theorem Failure.render_eq {left right : List Char} (hspan : failure.span = some span)
    (hquoted : quotedLine? source span =
      if left ++ right = [] then none else some (String.ofList (left ++ right)))
    (hcolumn : left.length + 1 = span.column) :
    failure.render source =
      s!"[line {span.line}:{span.column}] " ++ (failure.phase.text ++ ": " ++ failure.fault.message) ++
        excerpt left right := by
  unfold render excerpt
  rw [hspan]
  dsimp only
  rw [hquoted, ← hcolumn, Nat.add_sub_cancel]
  by_cases hnil : left ++ right = []
  · rw [if_pos hnil, if_pos hnil, String.append_empty]
  · rw [if_neg hnil, if_neg hnil]
    simp only [String.append_assoc]

/-- A place in a source has a line around it, and the report quotes that line. -/
theorem Failure.pointsAt (hspan : failure.span = some span) (hplaced : span.PlacedIn source.toList) :
    ∃ above left right below, failure.PointsAt source span above left right below := by
  obtain ⟨before, rest, hsource, hbegins⟩ := hplaced
  obtain ⟨above, left, right, below, hline, rfl, rfl, hend, hlength⟩ :=
    IsLine.exists_around before rest fun c hc => by
      have hvisible := hbegins.visible c hc
      constructor <;> rintro rfl <;> cases hvisible
  rw [← hsource] at hline
  have hsize : (Position.after (above ++ left ++ (right ++ below))).offset = source.utf8ByteSize := by
    rw [← hsource]
    simp [Position.after]
  have hquoted : quotedLine? source span =
      if left ++ right = [] then none else some (String.ofList (left ++ right)) := by
    refine quotedLine?_of_isLine hline ?_ fun hnil => ?_
    · rw [hbegins.line, Position.after, hline.count_above rfl rfl]
    · exact (List.append_eq_nil_iff.mp (hend (List.append_eq_nil_iff.mp hnil).2)).2
  have hcolumn : left.length + 1 = span.column := by
    rw [hbegins.column, Position.after, hlength, Nat.add_comm]
  refine ⟨above, left, right, below, hspan, hline, hbegins, hsize ▸ hbegins.within, hcolumn, hquoted,
    render_eq hspan hquoted hcolumn, fun hnil => ?_⟩
  have hrest := hend hnil
  refine ⟨(List.append_eq_nil_iff.mp hrest).2, ?_⟩
  rw [hbegins.start, ← hsize, hrest, List.append_nil]

/-- Whether a run fails in a certain way. -/
def Outcome.failsWith (outcome : Outcome) (failure : Failure) : Bool :=
  match outcome.result with
  | .error halt => halt = .failure failure
  | .ok _ => false

theorem Outcome.result_of_failsWith {outcome : Outcome} (h : outcome.failsWith failure = true) :
    outcome.result = .error (.failure failure) := by
  unfold failsWith at h
  split at h
  · rename_i halt hhalt
    rw [hhalt, of_decide_eq_true h]
  · cases h

/-- **Failures point at their place.** Whenever a run fails, in the scanner, in the parser or at any
depth of calls, the failure has a span within the source that begins at a character which is no
spacing or at the end, with the line and the column of that place. Its report quotes the line around
the place with a caret below the character; only at the end of the source there is no character, and
no line if that would be empty. -/
theorem failures_point {steps limit : Nat} {console : Console}
    (h : (runWithin steps limit source console).result = .error (.failure failure)) :
    ∃ span above left right below, failure.PointsAt source span above left right below := by
  obtain ⟨span, hspan, hplaced⟩ := runWithin_places h
  exact ⟨span, failure.pointsAt hspan hplaced⟩

/-- A failure in the body of a function, on a line that ends with a carriage return. -/
theorem failures_point_in_a_body :
    let source := "def f(x) \x7b\r\n  é = x.y\r\n\x7d\r\nf(1)"
    let failure : Failure := ⟨.memberNotFound "y" .number, some ⟨19, 22, 2, 7⟩⟩
    run source (.ofLines []) = runWithin ampleSteps defaultDepthLimit source (.ofLines []) ∧
    (∃ span above left right below, failure.PointsAt source span above left right below) ∧
      failure.render source =
        "[line 2:7] RuntimeError: member 'y' not found on number\n  |   é = x.y\n  |       ^" := by
  intro source failure
  have hfails : (runWithin ampleSteps defaultDepthLimit source (.ofLines [])).failsWith failure =
      true := by decide +kernel
  exact ⟨rfl, failures_point (Outcome.result_of_failsWith hfails), by decide +kernel⟩

end Scriptlet
