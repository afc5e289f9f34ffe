import Mathlib.Data.List.TakeWhile
import Scriptlet.Parser.Expression
import Scriptlet.Proofs.Token.Lossless

/-!
# Tokens that can be read

The scanner decides what kind of token a piece of text is, and later stages read the text once more:
the text of a number for its value, that of an operator for what it does. The two have to agree. A
token is `Legible` if what its kind promises can be found in its text, and every token of a source is
(`tokenize_sensible`). So no number of a source is ever invalid, and the scanner fails for its own
reasons only.
-/

namespace Scriptlet

variable {p : Position} {c : Char} {text rest digits : List Char} {kind : TokenKind} {piece : Piece}
  {failure : Failure} {ts : List Token} {t : Token}

/-! ## The text of a number -/

/-- At least one decimal digit, and nothing else. -/
def IsDigits (text : List Char) : Prop := text ≠ [] ∧ ∀ c ∈ text, c.isDigit = true

/-- Digits, a point, and maybe more digits. -/
def IsPointed (text : List Char) : Prop :=
  ∃ whole fraction, text = whole ++ '.' :: fraction ∧ IsDigits whole ∧
    ∀ c ∈ fraction, c.isDigit = true

theorem splitDigits_append (hdigits : ∀ c ∈ digits, c.isDigit = true)
    (hrest : ∀ c ∈ rest.head?, c.isDigit = false) : splitDigits (digits ++ rest) = (digits, rest) :=
  Prod.ext_iff.mpr (takeWhile_append_exact hdigits hrest)

theorem splitDigits_self (hdigits : ∀ c ∈ digits, c.isDigit = true) :
    splitDigits digits = (digits, []) := by
  have hsplit : splitDigits (digits ++ []) = (digits, []) :=
    splitDigits_append hdigits fun _ h => by cases h
  rwa [List.append_nil] at hsplit

namespace Double

/-- A text that begins with a digit has no sign and is no word. -/
theorem ofText?_of_digit (hc : c.isDigit = true) :
    ofText? (c :: text) = readDecimal? false (c :: text) := by
  have hsign : readSign (c :: text) = (false, c :: text) := by
    unfold readSign
    split
    · rename_i heq
      cases heq
      cases hc
    · rename_i heq
      cases heq
      cases hc
    · rfl
  have hlower : c.toLower = c := by
    simp only [Char.isDigit, Bool.and_eq_true, decide_eq_true_eq] at hc
    have hupper : ¬(c.val ≥ 'A'.val ∧ c.val ≤ 'Z'.val) := by grind
    exact dif_neg hupper
  have hword : ∀ d word, d.isDigit = false →
      String.ofList ((c :: text).map Char.toLower) ≠ String.ofList (d :: word) := by
    intro d word hd heq
    have hlist := String.ofList_injective heq
    rw [List.map_cons, hlower] at hlist
    obtain ⟨rfl, -⟩ := List.cons.inj hlist
    rw [hc] at hd
    cases hd
  have hinf := hword 'i' ['n', 'f'] rfl
  have hinfinity := hword 'i' ['n', 'f', 'i', 'n', 'i', 't', 'y'] rfl
  have hnan := hword 'n' ['a', 'n'] rfl
  unfold ofText?
  rw [hsign]
  dsimp only
  rw [if_neg (not_or.mpr ⟨hinf, hinfinity⟩), if_neg hnan]

theorem ofText?_digits (h : IsDigits digits) : ofText? digits = some (ofDecimal false digits 0) := by
  obtain ⟨hne, hdigits⟩ := h
  obtain ⟨c, rest, rfl⟩ := List.exists_cons_of_ne_nil hne
  rw [ofText?_of_digit (hdigits c List.mem_cons_self), readDecimal?, splitDigits_self hdigits]
  simp [readExponent?]

/-- **Digits are a number.** -/
theorem ofLexeme?_digits (h : IsDigits digits) :
    ofLexeme? digits = some (ofDecimal false digits 0) := by
  have hlast : digits.getLast? ≠ some '.' := by
    intro hlast
    exact absurd (h.2 _ (List.mem_of_getLast? hlast)) (by decide)
  rw [ofLexeme?, if_neg hlast, ofText?_digits h]

/-- **Digits with a point behind or among them are a number.** -/
theorem ofLexeme?_pointed (h : IsPointed text) : (ofLexeme? text).isSome := by
  obtain ⟨whole, fraction, rfl, ⟨hne, hwhole⟩, hfraction⟩ := h
  rw [ofLexeme?]
  by_cases hempty : fraction = []
  · subst hempty
    rw [if_pos (by simp), List.dropLast_concat, ofText?_digits ⟨hne, hwhole⟩]
    rfl
  · have hlast : (whole ++ '.' :: fraction).getLast? ≠ some '.' := by
      rw [List.getLast?_append_of_ne_nil _ (List.cons_ne_nil _ _), List.getLast?_cons_of_ne_nil hempty]
      intro hlast
      exact absurd (hfraction _ (List.mem_of_getLast? hlast)) (by decide)
    have hsplit : splitDigits (whole ++ '.' :: fraction) = (whole, '.' :: fraction) :=
      splitDigits_append hwhole (by rintro c ⟨⟩; rfl)
    rw [if_neg hlast]
    obtain ⟨c, rest, rfl⟩ := List.exists_cons_of_ne_nil hne
    rw [List.cons_append, ofText?_of_digit (hwhole c List.mem_cons_self), ← List.cons_append,
      readDecimal?, hsplit]
    simp [splitDigits_self hfraction, readExponent?]

end Double

/-! ## Legible tokens -/

/-- A lexeme in which later stages find what its kind promises. -/
structure TokenKind.Fits (kind : TokenKind) (lexeme : List Char) : Prop where
  integer : kind = .integer → IsDigits lexeme
  float : kind = .float → IsPointed lexeme
  comparison : kind.isComparison = true → (BinaryOp.ofLexeme? (String.ofList lexeme)).isSome

/-- A token whose kind and text agree. -/
def Token.Legible (t : Token) : Prop := t.kind.Fits t.lexeme.toList

/-- Whether a token stands for a binary operator of some level. -/
def Token.isBinary (t : Token) : Bool :=
  Parser.isPower t || Parser.isMultiplicative t || Parser.isAdditive t || t.kind.isComparison

namespace TokenKind

/-- Kinds whose text nobody reads again. -/
def isOpaque (kind : TokenKind) : Bool := kind ≠ .integer && kind ≠ .float && !kind.isComparison

theorem fits_of_isOpaque (h : kind.isOpaque = true) (lexeme : List Char) : kind.Fits lexeme := by
  simp only [isOpaque, Bool.and_eq_true, decide_eq_true_eq, Bool.not_eq_true'] at h
  obtain ⟨⟨hinteger, hfloat⟩, hcomparison⟩ := h
  exact ⟨fun heq => absurd heq hinteger, fun heq => absurd heq hfloat,
    fun heq => by simp [hcomparison] at heq⟩

theorem fits_integer (h : IsDigits text) : TokenKind.integer.Fits text where
  integer _ := h
  float heq := by cases heq
  comparison heq := by cases heq

theorem fits_float (h : IsPointed text) : TokenKind.float.Fits text where
  integer heq := by cases heq
  float _ := h
  comparison heq := by cases heq

end TokenKind

namespace Token.Legible

/-- The number that a legible token promises is there. -/
theorem number (h : t.Legible) (hkind : t.kind = .integer ∨ t.kind = .float) :
    (Double.ofLexeme? t.lexeme.toList).isSome := by
  rcases hkind with hkind | hkind
  · rw [Double.ofLexeme?_digits (h.integer hkind)]
    rfl
  · exact Double.ofLexeme?_pointed (h.float hkind)

/-- **What stands for an operator can be read as one.** -/
theorem operator (h : t.Legible) (hbinary : t.isBinary = true) :
    (BinaryOp.ofLexeme? t.lexeme).isSome := by
  simp only [isBinary, Parser.isPower, Parser.isMultiplicative, Parser.isAdditive, Bool.or_eq_true,
    Bool.and_eq_true, decide_eq_true_eq] at hbinary
  rcases hbinary with ((⟨-, htext⟩ | ⟨-, (htext | htext) | htext⟩) | ⟨-, htext | htext⟩) | hkind
  · rw [htext]; rfl
  · rw [htext]; rfl
  · rw [htext]; rfl
  · rw [htext]; rfl
  · rw [htext]; rfl
  · rw [htext]; rfl
  · simpa using h.comparison hkind

end Token.Legible

/-! ## The scanner -/

/-- What a rule of the scanner comes to: a piece whose kind fits, or a failure of this stage that is
about no number. -/
def Piece.Sensible : Except Failure Piece → Prop
  | .ok piece => piece.kind.Fits piece.lexeme
  | .error failure => failure.phase = .lexing ∧ ∀ text, failure.fault ≠ .invalidNumber text

namespace Piece

theorem isOpaque_of_symbol? (h : symbol? c = some kind) : kind.isOpaque = true := by
  unfold symbol? at h
  split at h <;> cases h <;> decide

theorem isOpaque_signKind (previous : Option TokenKind) (c : Char) :
    (signKind previous c).isOpaque = true := by
  unfold signKind
  split
  · rfl
  · rfl
  · split <;> rfl

theorem sensible_unexpected : Sensible (.error (unexpected p c)) := ⟨rfl, nofun⟩

theorem sensible_run (hc : isRunner c = true) : Sensible (ofRun p c rest) := by
  unfold ofRun
  dsimp only
  split
  · rename_i kind hkind
    have hrun : ∀ d ∈ rest.takeWhile (· = c), d = c := fun d hd => by
      simpa using List.mem_takeWhile_imp hd
    unfold runKind? at hkind
    split at hkind <;> cases hkind
    · exact TokenKind.fits_of_isOpaque rfl _
    · rename_i hlength
      obtain ⟨d, hd⟩ := List.length_eq_one_iff.mp (Nat.succ.inj hlength)
      obtain rfl := hrun d (by simp [hd])
      simp only [hd]
      exact ⟨nofun, nofun, fun _ => rfl⟩
    · exact TokenKind.fits_of_isOpaque rfl _
    · exact TokenKind.fits_of_isOpaque rfl _
  · exact sensible_unexpected

theorem sensible_comparison {kinds : TokenKind × TokenKind}
    (hkinds : comparisonKinds? c = some kinds) : Sensible (.ok (ofComparison kinds c rest)) := by
  have hfits : kinds.1.Fits [c] ∧ kinds.2.Fits [c, '='] := by
    unfold comparisonKinds? at hkinds
    split at hkinds <;> cases hkinds
    · exact ⟨TokenKind.fits_of_isOpaque rfl _, nofun, nofun, fun _ => rfl⟩
    · exact ⟨⟨nofun, nofun, fun _ => rfl⟩, nofun, nofun, fun _ => rfl⟩
    · exact ⟨⟨nofun, nofun, fun _ => rfl⟩, nofun, nofun, fun _ => rfl⟩
  unfold ofComparison
  split
  · exact hfits.2
  · exact hfits.1

theorem sensible_quote : Sensible (ofQuote p c rest) := by
  unfold ofQuote
  dsimp only
  split
  · exact ⟨rfl, nofun⟩
  · exact TokenKind.fits_of_isOpaque rfl _

/-- The piece that a number takes. -/
def number (text : List Char) : Piece :=
  let (whole, rest) := splitDigits text
  match rest with
  | '.' :: rest =>
    let (fraction, rest) := splitDigits rest
    plain .float (whole ++ '.' :: fraction) rest
  | _ => plain .integer whole rest

theorem ofDigits_eq (p : Position) (text : List Char) :
    ofDigits p text = if (Double.ofLexeme? (number text).text).isSome then .ok (number text)
      else .error (Failure.located (Span.between p (p.advance (number text).text))
        (.invalidNumber (String.ofList (number text).text))) := rfl

theorem number_pointed (h : (splitDigits text).2 = '.' :: rest) : number text =
    plain .float ((splitDigits text).1 ++ '.' :: (splitDigits rest).1) (splitDigits rest).2 := by
  unfold number
  dsimp only
  split
  · rename_i rest' hrest
    obtain rfl : rest = rest' := (List.cons.inj (h.symm.trans hrest)).2
    rfl
  · rename_i hrest
    exact absurd h (hrest rest)

theorem number_whole (h : ∀ rest, (splitDigits text).2 = '.' :: rest → False) :
    number text = plain .integer (splitDigits text).1 (splitDigits text).2 := by
  unfold number
  dsimp only
  split
  · rename_i rest hrest
    exact absurd hrest (h rest)
  · rfl

/-- A number is found to be valid whenever it is looked at. -/
theorem sensible_digits (hc : c.isDigit = true) : Sensible (ofDigits p (c :: rest)) := by
  have hdigits : ∀ text : List Char, ∀ d ∈ (splitDigits text).1, d.isDigit = true := fun text d hd =>
    List.mem_takeWhile_imp hd
  have hwhole : IsDigits (splitDigits (c :: rest)).1 := ⟨by simp [splitDigits, hc], hdigits _⟩
  rw [ofDigits_eq]
  by_cases hpoint : ∃ after, (splitDigits (c :: rest)).2 = '.' :: after
  · obtain ⟨after, hafter⟩ := hpoint
    have hpointed : IsPointed ((splitDigits (c :: rest)).1 ++ '.' :: (splitDigits after).1) :=
      ⟨_, _, rfl, hwhole, hdigits after⟩
    rw [number_pointed hafter, if_pos (by exact Double.ofLexeme?_pointed hpointed)]
    exact TokenKind.fits_float hpointed
  · have hplain : ∀ after, (splitDigits (c :: rest)).2 = '.' :: after → False := fun after h =>
      hpoint ⟨after, h⟩
    rw [number_whole hplain, if_pos (by rw [plain, Double.ofLexeme?_digits hwhole]; rfl)]
    exact TokenKind.fits_integer hwhole

theorem sensible_word : Sensible (.ok (ofWord c rest)) := by
  refine TokenKind.fits_of_isOpaque ?_ _
  change ((TokenKind.keyword? _).getD .identifier).isOpaque = true
  unfold TokenKind.keyword?
  split <;> rfl

/-- **Every rule gives a piece whose kind fits its text, or fails for a reason of its own.** -/
theorem scan_sensible (previous : Option TokenKind) (p : Position) (c : Char) (rest : List Char) :
    Sensible (scan previous p c rest) := by
  unfold scan
  split
  · rename_i kind hkind
    exact TokenKind.fits_of_isOpaque (isOpaque_of_symbol? hkind) _
  split
  · exact TokenKind.fits_of_isOpaque (isOpaque_signKind previous c) _
  split
  · rename_i hrunner
    exact sensible_run hrunner
  split
  · rename_i kinds hkinds
    exact sensible_comparison hkinds
  split
  · exact sensible_quote
  split
  · rename_i hdigit
    exact sensible_digits hdigit
  split
  · exact sensible_word
  · exact sensible_unexpected

end Piece

/-- What scanning a text comes to: legible tokens, or a failure of this stage that is about no
number. -/
def Token.Sensible : Except Failure (List Token) → Prop
  | .ok ts => ∀ t ∈ ts, t.Legible
  | .error failure => failure.phase = .lexing ∧ ∀ text, failure.fault ≠ .invalidNumber text

theorem Token.legible_endAt (p : Position) : (Token.endAt p).Legible :=
  TokenKind.fits_of_isOpaque rfl _

theorem Token.tokensFrom_sensible (steps : Nat) (previous : Option TokenKind) (p : Position)
    (text : List Char) : Token.Sensible (Token.tokensFrom steps previous p text) := by
  induction steps generalizing previous p text with
  | zero => exact List.forall_mem_singleton.mpr (Token.legible_endAt p)
  | succ steps ih =>
    have hskips := skipGap_spec .plain p text
    rw [tokensFrom_succ]
    split
    · rename_i failure hgap
      rw [hgap] at hskips
      obtain ⟨opening, rfl, -⟩ := hskips
      exact ⟨rfl, nofun⟩
    · exact List.forall_mem_singleton.mpr (Token.legible_endAt _)
    · rename_i q c rest hgap
      have hpiece := Piece.scan_sensible previous q c rest
      split
      · rename_i failure hscan
        rw [hscan] at hpiece
        exact hpiece
      · rename_i piece hscan
        rw [hscan] at hpiece
        have hrest := ih (some piece.kind) (q.advance piece.text) piece.rest
        revert hrest
        cases Token.tokensFrom steps (some piece.kind) (q.advance piece.text) piece.rest with
        | error failure => exact id
        | ok ts =>
          refine fun hts => List.forall_mem_cons.mpr ⟨?_, hts⟩
          change piece.kind.Fits (String.ofList piece.lexeme).toList
          rw [String.toList_ofList]
          exact hpiece

/-- **The tokens of a source are legible, and where there are none, this stage is to blame.** -/
theorem tokenize_sensible (source : String) : Token.Sensible (tokenize source) :=
  Token.tokensFrom_sensible _ _ _ _

/-- The tokens of a source are legible, and only the last of them is the end of input. -/
theorem exists_of_tokenize {source : String} {tokens : List Token}
    (h : tokenize source = .ok tokens) :
    ∃ others last, tokens = others ++ [last] ∧ last.kind = .endOfInput ∧ last.Legible ∧
      (∀ t ∈ others, t.kind ≠ .endOfInput) ∧ ∀ t ∈ others, t.Legible := by
  have hspells : Spells [] tokens source.toList := by
    have hspec := tokenize_spec source
    rwa [h] at hspec
  have hlegible : ∀ t ∈ tokens, t.Legible := by
    have hsensible := tokenize_sensible source
    rwa [h] at hsensible
  obtain ⟨others, rfl, hothers⟩ := hspells.ends
  obtain ⟨hlegible, hlast⟩ := List.forall_mem_append.mp hlegible
  exact ⟨others, _, rfl, rfl, hlast _ List.mem_cons_self, hothers, hlegible⟩

end Scriptlet
