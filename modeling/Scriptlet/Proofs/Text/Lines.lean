import Mathlib.Data.List.Basic
import Mathlib.Data.List.TakeWhile
import Mathlib.Tactic.Common
import Scriptlet.Text.Lines

/-!
# Lines of a text

The line around a place of a text can be cut out with the text above it and the text below
(`IsLine.exists_around`), and it is the one that counting the line feeds above finds in the list of all
lines (`IsLine.getElem?_linesFrom`). Only the end of the text is a place with no line around it, and
only if nothing stands in front of it since the last line feed.
-/

namespace Scriptlet

variable {text above line below before rest begun : List Char}

/-- How a line ends: with the text, or with a line feed, to which a carriage return in front of it
belongs. -/
inductive EndsLine (line : List Char) : List Char → Prop where
  | text : EndsLine line []
  | feed (rest : List Char) (hline : line.getLast? ≠ some '\r') : EndsLine line ('\n' :: rest)
  | returnFeed (rest : List Char) : EndsLine line ('\r' :: '\n' :: rest)

/-- A line of a text: whole lines stand above it, and what is below begins with its ending. -/
structure IsLine (text above line below : List Char) : Prop where
  split : text = above ++ line ++ below
  begins : ∀ c ∈ above.getLast?, c = '\n'
  inside : '\n' ∉ line
  ends : EndsLine line below

/-! ## Finding a line by its number -/

/-- Every line feed above a line closes one line of the list. -/
theorem drop_linesFrom (habove : ∀ c ∈ above.getLast?, c = '\n') (hne : above ≠ []) :
    (linesFrom begun (above ++ rest)).drop (above.count '\n') = linesFrom [] rest := by
  induction above generalizing begun with
  | nil => exact absurd rfl hne
  | cons c above ih =>
    have hrest : above ≠ [] → ∀ d ∈ above.getLast?, d = '\n' := fun hnil d hd =>
      habove d (by rwa [List.getLast?_cons_of_ne_nil hnil])
    rw [List.cons_append, linesFrom]
    by_cases hc : c = '\n'
    · rw [if_pos hc, hc, List.count_cons_self, List.drop_succ_cons]
      by_cases hnil : above = []
      · rw [hnil]
        rfl
      · exact ih (hrest hnil) hnil
    · have hnil : above ≠ [] := by
        rintro rfl
        exact hc (habove c rfl)
      rw [if_neg hc, List.count_cons_of_ne hc]
      exact ih (hrest hnil) hnil

/-- The first line is the one that has begun, up to its ending. -/
theorem head?_linesFrom (hinside : '\n' ∉ line) (hends : EndsLine (begun.reverse ++ line) below)
    (hne : begun.reverse ++ line ++ below ≠ []) :
    (linesFrom begun (line ++ below)).head? = some (begun.reverse ++ line) := by
  induction line generalizing begun with
  | nil =>
    rw [List.append_nil] at hends
    cases hends with
    | text =>
      have hbegun : begun ≠ [] := by simpa using hne
      simp [linesFrom, hbegun]
    | feed rest hlast =>
      have hdrop : dropReturn begun = begun := by
        unfold dropReturn
        split
        · simp at hlast
        · rfl
      simp [linesFrom, hdrop]
    | returnFeed rest => simp [linesFrom, dropReturn]
  | cons c line ih =>
    obtain ⟨hc, hline⟩ := List.ne_and_not_mem_of_not_mem_cons hinside
    have hcons : (c :: begun).reverse ++ line = begun.reverse ++ c :: line := by simp
    rw [List.cons_append, linesFrom, if_neg (Ne.symm hc), ← hcons]
    refine ih hline (hcons ▸ hends) ?_
    rw [hcons]
    exact hne

namespace IsLine

theorem drop_linesFrom (h : IsLine text above line below) :
    (linesFrom [] text).drop (above.count '\n') = linesFrom [] (line ++ below) := by
  rw [h.split, List.append_assoc]
  by_cases hnil : above = []
  · rw [hnil]
    rfl
  · exact Scriptlet.drop_linesFrom h.begins hnil

/-- **The line feeds above a line give its number.** -/
theorem getElem?_linesFrom (h : IsLine text above line below) (hne : line ++ below ≠ []) :
    (linesFrom [] text)[above.count '\n']? = some line := by
  rw [← List.head?_drop, h.drop_linesFrom]
  exact head?_linesFrom h.inside h.ends hne

/-- Nothing behind the last line feed is no line. -/
theorem getElem?_linesFrom_of_nil (h : IsLine text above line below) (hnil : line ++ below = []) :
    (linesFrom [] text)[above.count '\n']? = none := by
  rw [← List.head?_drop, h.drop_linesFrom, hnil]
  rfl

/-! ## Finding the line around a place -/

theorem count_above (h : IsLine text above line below) {left right : List Char}
    (hline : line = left ++ right) (hbefore : before = above ++ left) :
    before.count '\n' = above.count '\n' := by
  have hleft : '\n' ∉ left := fun hmem => h.inside (hline ▸ List.mem_append_left _ hmem)
  rw [hbefore, List.count_append, List.count_eq_zero_of_not_mem hleft, Nat.add_zero]

/-- What stands in front of a place since the last line feed. -/
theorem exists_before (before : List Char) :
    ∃ above left, before = above ++ left ∧ (∀ c ∈ above.getLast?, c = '\n') ∧ '\n' ∉ left ∧
      left.length = (before.reverse.takeWhile (· ≠ '\n')).length := by
  refine ⟨(before.reverse.dropWhile (· ≠ '\n')).reverse,
    (before.reverse.takeWhile (· ≠ '\n')).reverse, ?_, fun c hc => ?_, fun hmem => ?_, ?_⟩
  · rw [← List.reverse_append, List.takeWhile_append_dropWhile, List.reverse_reverse]
  · rw [List.getLast?_reverse] at hc
    have hhead := List.head?_dropWhile_not (· ≠ '\n') before.reverse
    rw [Option.mem_def.mp hc] at hhead
    simpa using hhead
  · simpa using List.mem_takeWhile_imp (List.mem_reverse.mp hmem)
  · exact List.length_reverse

/-- What stands behind a place up to the end of its line. -/
theorem exists_after (front rest : List Char)
    (hfront : front.getLast? = some '\r' → rest.head? ≠ some '\n') :
    ∃ right below, rest = right ++ below ∧ '\n' ∉ right ∧ EndsLine (front ++ right) below := by
  induction rest generalizing front with
  | nil => exact ⟨[], [], rfl, List.not_mem_nil, .text⟩
  | cons c rest ih =>
    by_cases hfeed : c = '\n'
    · subst hfeed
      refine ⟨[], '\n' :: rest, rfl, List.not_mem_nil, .feed rest fun hlast => ?_⟩
      exact hfront (by simpa using hlast) rfl
    · by_cases hreturn : c = '\r' ∧ rest.head? = some '\n'
      · obtain ⟨rfl, hhead⟩ := hreturn
        obtain ⟨tail, rfl⟩ := List.head?_eq_some_iff.mp hhead
        exact ⟨[], '\r' :: '\n' :: tail, rfl, List.not_mem_nil, .returnFeed tail⟩
      · obtain ⟨right, below, hrest, hright, hends⟩ := ih (front ++ [c]) fun hlast hhead =>
          hreturn ⟨by simpa using hlast, hhead⟩
        refine ⟨c :: right, below, by rw [hrest, List.cons_append], ?_, by simpa using hends⟩
        simp [Ne.symm hfeed, hright]

/-- **Around every place of a text there is a line.** The place is in front of a character of the
line unless it is the end of the text. -/
theorem exists_around (before rest : List Char) (hrest : ∀ c ∈ rest.head?, c ≠ '\n' ∧ c ≠ '\r') :
    ∃ above left right below, IsLine (before ++ rest) above (left ++ right) below ∧
      before = above ++ left ∧ rest = right ++ below ∧ (right = [] → rest = []) ∧
      left.length = (before.reverse.takeWhile (· ≠ '\n')).length := by
  obtain ⟨above, left, rfl, habove, hleft, hlength⟩ := exists_before before
  cases rest with
  | nil =>
    refine ⟨above, left, [], [], ⟨by simp, habove, by simpa using hleft, .text⟩, rfl, rfl, ?_, hlength⟩
    exact fun _ => rfl
  | cons c tail =>
    obtain ⟨hfeed, hreturn⟩ := hrest c rfl
    obtain ⟨right, below, rfl, hright, hends⟩ :=
      exists_after (left ++ [c]) tail fun hlast => absurd (by simpa using hlast) hreturn
    refine ⟨above, left, c :: right, below, ⟨by simp, habove, ?_, by simpa using hends⟩, rfl, rfl,
      nofun, hlength⟩
    simp [hleft, hright, Ne.symm hfeed]

end IsLine

end Scriptlet
