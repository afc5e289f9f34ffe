import Mathlib.Data.List.TakeWhile
import Scriptlet.Proofs.Position
import Scriptlet.Token.Scan

/-!
# Pieces

A rule of the scanner splits the text ahead in two: what a token takes and what follows it. What the
token reads is what it takes, except that a string reads what stands between its quotes
(`TokenKind.Reads`). A rule that fails points at the beginning of the text ahead (`scan_spec`).
-/

namespace Scriptlet

variable {p : Position} {c : Char} {text rest : List Char} {kind : TokenKind} {piece : Piece}

/-- A text that a token of a kind can take, and what the token reads then. -/
structure TokenKind.Reads (kind : TokenKind) (text lexeme : List Char) : Prop where
  begins : ∃ c rest, text = c :: rest ∧ isSpacing c = false
  kind_ne : kind ≠ .endOfInput
  quoted : kind = .text → ∃ quote, (quote = '"' ∨ quote = '\'') ∧
    text = quote :: lexeme ++ [quote] ∧ quote ∉ lexeme
  plain : kind ≠ .text → lexeme = text

theorem TokenKind.Reads.text_ne {lexeme : List Char} (h : kind.Reads text lexeme) : text ≠ [] := by
  obtain ⟨c, rest, rfl, -⟩ := h.begins
  exact List.cons_ne_nil c rest

/-- What a rule makes of the text ahead: a piece that begins it, or a failure that points at its
beginning. -/
inductive Scans (p : Position) (text : List Char) : Except Failure Piece → Prop where
  | piece {piece : Piece} (hcut : text = piece.text ++ piece.rest)
    (hreads : piece.kind.Reads piece.text piece.lexeme) : Scans p text (.ok piece)
  | failure {taken rest : List Char} {fault : Fault} (hcut : text = taken ++ rest) :
    Scans p text (.error (.located (.between p (p.advance taken)) fault))

namespace Scans

/-- A piece that reads what it takes. -/
theorem plain {taken : List Char} (hcut : c :: text = taken ++ rest) (htaken : taken ≠ [])
    (hc : isSpacing c = false) (hend : kind ≠ .endOfInput) (htext : kind ≠ .text) :
    Scans p (c :: text) (.ok (.plain kind taken rest)) := by
  refine .piece hcut ⟨?_, hend, fun h => absurd h htext, fun _ => rfl⟩
  obtain ⟨d, taken, rfl⟩ := List.exists_cons_of_ne_nil htaken
  obtain ⟨rfl, -⟩ := List.cons.inj hcut
  exact ⟨c, taken, rfl, hc⟩

theorem unexpected : Scans p (c :: rest) (.error (Piece.unexpected p c)) :=
  .failure (show c :: rest = [c] ++ rest from rfl)

end Scans

/-- A text is cut where a condition stops to hold. -/
theorem takeWhile_append_exact {P : Char → Bool} (htext : ∀ d ∈ text, P d = true)
    (hrest : ∀ d ∈ rest.head?, P d = false) :
    (text ++ rest).takeWhile P = text ∧ (text ++ rest).dropWhile P = rest := by
  have hstop : rest.takeWhile P = [] ∧ rest.dropWhile P = rest := by
    cases rest with
    | nil => exact ⟨rfl, rfl⟩
    | cons d rest => simp [hrest d rfl]
  rw [List.takeWhile_append_of_pos htext, List.dropWhile_append_of_pos htext, hstop.1, hstop.2,
    List.append_nil]
  exact ⟨rfl, rfl⟩

namespace Piece

theorem kind_ne_of_symbol? (h : symbol? c = some kind) : kind ≠ .endOfInput ∧ kind ≠ .text := by
  unfold symbol? at h
  split at h <;> cases h <;> decide

theorem kind_ne_of_runKind? {n : Nat} (h : runKind? c n = some kind) :
    kind ≠ .endOfInput ∧ kind ≠ .text := by
  unfold runKind? at h
  split at h <;> cases h <;> decide

theorem kind_ne_of_keyword? {word : String} (h : TokenKind.keyword? word = some kind) :
    kind ≠ .endOfInput ∧ kind ≠ .text := by
  unfold TokenKind.keyword? at h
  split at h <;> cases h <;> decide

theorem scans_sign (previous : Option TokenKind) (hc : isSpacing c = false) :
    Scans p (c :: rest) (.ok (plain (signKind previous c) [c] rest)) := by
  have hkind : signKind previous c ≠ .endOfInput ∧ signKind previous c ≠ .text := by
    unfold signKind
    split
    · decide
    · decide
    · split <;> decide
  exact .plain rfl (by simp) hc hkind.1 hkind.2

theorem scans_run (hc : isSpacing c = false) : Scans p (c :: rest) (ofRun p c rest) := by
  unfold ofRun
  dsimp only
  split
  · rename_i kind hkind
    obtain ⟨hend, htext⟩ := kind_ne_of_runKind? hkind
    exact .plain (by simp [List.takeWhile_append_dropWhile]) (by simp) hc hend htext
  · exact .unexpected

theorem scans_comparison {kinds : TokenKind × TokenKind} (hkinds : comparisonKinds? c = some kinds)
    (hc : isSpacing c = false) : Scans p (c :: rest) (.ok (ofComparison kinds c rest)) := by
  have hne : ∀ kind ∈ [kinds.1, kinds.2], kind ≠ .endOfInput ∧ kind ≠ .text := by
    unfold comparisonKinds? at hkinds
    split at hkinds <;> cases hkinds <;> decide
  unfold ofComparison
  split
  · exact .plain rfl (by simp) hc (hne _ (by simp)).1 (hne _ (by simp)).2
  · exact .plain rfl (by simp) hc (hne _ (by simp)).1 (hne _ (by simp)).2

theorem scans_quote (hquote : c = '"' ∨ c = '\'') (hc : isSpacing c = false) :
    Scans p (c :: rest) (ofQuote p c rest) := by
  have hcut : rest = rest.takeWhile (· ≠ c) ++ rest.dropWhile (· ≠ c) :=
    (List.takeWhile_append_dropWhile).symm
  have hinside : c ∉ rest.takeWhile (· ≠ c) := fun h => by
    simpa using List.mem_takeWhile_imp h
  unfold ofQuote
  dsimp only
  split
  · rename_i hrest
    exact .failure (by rw [hrest, List.append_nil] at hcut; rw [← hcut, List.append_nil])
  · rename_i d after hrest
    -- What stops the search is the quote.
    have hd : d = c := by
      have hstop := List.head?_dropWhile_not (fun x => decide (x ≠ c)) rest
      rw [hrest] at hstop
      simpa using hstop
    subst hd
    refine .piece ?_ ⟨⟨d, _, rfl, hc⟩, by simp, fun _ => ⟨d, hquote, rfl, hinside⟩, by simp⟩
    rw [hrest] at hcut
    simpa using hcut

theorem scans_digits (hdigit : c.isDigit = true) (hc : isSpacing c = false) :
    Scans p (c :: rest) (ofDigits p (c :: rest)) := by
  have hcut : ∀ text : List Char, text = (splitDigits text).1 ++ (splitDigits text).2 := fun text =>
    (List.takeWhile_append_dropWhile).symm
  have hwhole : (splitDigits (c :: rest)).1 ≠ [] := by simp [splitDigits, hdigit]
  unfold ofDigits
  dsimp only
  split
  · rename_i after hafter
    have htext : c :: rest = ((splitDigits (c :: rest)).1 ++ '.' :: (splitDigits after).1) ++
        (splitDigits after).2 := by
      rw [List.append_assoc, List.cons_append, ← hcut after, ← hafter]
      exact hcut (c :: rest)
    split
    · exact .plain htext (by simp) hc (by simp) (by simp)
    · exact .failure htext
  · split
    · exact .plain (hcut _) hwhole hc (by simp) (by simp)
    · exact .failure (hcut _)

theorem scans_word (hc : isSpacing c = false) : Scans p (c :: rest) (.ok (ofWord c rest)) := by
  have hkind : ∀ word, (TokenKind.keyword? word).getD .identifier ≠ .endOfInput ∧
      (TokenKind.keyword? word).getD .identifier ≠ .text := by
    intro word
    cases hword : TokenKind.keyword? word with
    | none => decide
    | some kind => exact kind_ne_of_keyword? hword
  exact .plain (by simp [List.takeWhile_append_dropWhile]) (by simp) hc (hkind _).1 (hkind _).2

/-- **Every rule splits off a piece from the beginning of the text ahead, or fails there.** -/
theorem scan_spec (previous : Option TokenKind) (p : Position) (rest : List Char)
    (hc : isSpacing c = false) : Scans p (c :: rest) (scan previous p c rest) := by
  unfold scan
  split
  · rename_i kind hkind
    obtain ⟨hend, htext⟩ := kind_ne_of_symbol? hkind
    exact .plain rfl (by simp) hc hend htext
  split
  · exact scans_sign previous hc
  split
  · exact scans_run hc
  split
  · rename_i kinds hkinds
    exact scans_comparison hkinds hc
  split
  · rename_i hquote
    exact scans_quote (by simpa using hquote) hc
  split
  · rename_i hdigit
    exact scans_digits hdigit hc
  split
  · exact scans_word hc
  · exact .unexpected

end Piece

end Scriptlet
