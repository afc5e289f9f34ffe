import Mathlib.Data.List.Basic
import Scriptlet.Span

/-!
# Positions counted from the beginning

A position is carried along and moved on by every character that is taken. Counted afresh, the place
behind a text is the number of its bytes, the number of its line feeds, and the number of characters
since the last of these (`Position.after`). The two agree (`Position.advance_start`), so wherever a
span was made, it tells the truth about the text in front of it.
-/

namespace Scriptlet

namespace Position

variable {before text : List Char} {c : Char}

/-- The place behind a text, counted from its beginning. -/
def after (before : List Char) : Position where
  offset := (String.ofList before).utf8ByteSize
  line := 1 + before.count '\n'
  column := 1 + (before.reverse.takeWhile (· ≠ '\n')).length

theorem after_nil : after [] = start := rfl

theorem next_after (before : List Char) (c : Char) : (after before).next c = after (before ++ [c]) := by
  have hoffset : (String.ofList (before ++ [c])).utf8ByteSize =
      (String.ofList before).utf8ByteSize + c.utf8Size := by
    rw [String.ofList_append, String.utf8ByteSize_append, ← String.singleton_eq_ofList,
      String.utf8ByteSize_singleton]
  unfold next after
  rw [hoffset]
  by_cases hc : c = '\n'
  · subst hc
    simp [Nat.add_assoc]
  · simp [hc, Nat.add_assoc]

/-- A position that moves with a text stays behind what was taken. -/
theorem advance_after (before text : List Char) :
    (after before).advance text = after (before ++ text) := by
  induction text generalizing before with
  | nil => simp
  | cons c text ih => rw [advance_cons, next_after, ih, List.append_assoc, List.singleton_append]

/-- **A position that is carried along from the start is the one that counting gives.** -/
theorem advance_start (text : List Char) : start.advance text = after text :=
  advance_after [] text

theorem offset_after_append (before text : List Char) :
    (after (before ++ text)).offset = (after before).offset + (String.ofList text).utf8ByteSize := by
  simp [after, String.ofList_append]

theorem offset_after_le (before text : List Char) :
    (after before).offset ≤ (after (before ++ text)).offset := by
  rw [offset_after_append]
  exact Nat.le_add_right _ _

/-- What has characters has bytes. -/
theorem offset_after_lt (h : text ≠ []) :
    (after before).offset < (after (before ++ text)).offset := by
  obtain ⟨c, rest, rfl⟩ := List.exists_cons_of_ne_nil h
  rw [offset_after_append, String.ofList_cons, String.utf8ByteSize_append,
    String.utf8ByteSize_singleton]
  have hpos := c.utf8Size_pos
  omega

end Position

end Scriptlet
