import Mathlib.Tactic.Common
import Scriptlet.Parser.Expression
import Scriptlet.Proofs.Parser.Grammar
import Scriptlet.Proofs.Parser.Reading

/-!
# Levels and tokens

What a parser can tell from one token: which operator it is, which parts of a program it can begin,
and at which level it goes on with an expression that stands before it. A token goes on at one level
at most (`continuation`). So an expression of a level ends where the next token goes on at a looser
level or not at all (`Level.Ends`), and no other expression could be meant.
-/

namespace Scriptlet

/-! ## Operators -/

theorem Parser.unaryOp?_eq_some {kind : TokenKind} {op : UnaryOp} :
    unaryOp? kind = some op ↔ kind = op.kind := by
  cases op <;> cases kind <;> simp [unaryOp?, UnaryOp.kind]

theorem Parser.logicalOp?_eq_some {kind : TokenKind} {op : LogicalOp} :
    logicalOp? kind = some op ↔ kind = op.kind := by
  cases op <;> cases kind <;> simp [logicalOp?, LogicalOp.kind]

open Scriptlet.Parser

namespace Grammar

/-- The tokens that the parser takes for operators of a level of binary operators. -/
def Level.accepts : Level → Token → Bool
  | comparison, token => token.kind.isComparison
  | additive, token => isAdditive token
  | multiplicative, token => isMultiplicative token
  | power, token => isPower token
  | _, _ => false

theorem Level.ne_endOfInput_of_accepts {l : Level} {t : Token} (h : l.accepts t = true) :
    t.kind ≠ .endOfInput := by
  intro hkind
  cases l <;> simp [accepts, isAdditive, isMultiplicative, isPower, TokenKind.isComparison, hkind]
    at h

theorem Infix.accepts {l : Level} {t : Token} {op : BinaryOp} (h : Infix l t op) :
    l.accepts t = true := by
  cases h with
  | comparison hkind => exact hkind
  | operator hkind htext hlevel =>
    cases op <;> simp_all [level, Level.accepts, isAdditive, isMultiplicative, isPower,
      BinaryOp.lexeme, ← htext]
  | sign hkind htext hlevel =>
    cases op <;> simp_all [level, Level.accepts, isAdditive, BinaryOp.lexeme, ← htext, or_assoc]

theorem Infix.ofLexeme? {l : Level} {t : Token} {op : BinaryOp} (h : Infix l t op) :
    BinaryOp.ofLexeme? t.lexeme = some op := by
  have htext : op.lexeme = t.lexeme := by cases h <;> assumption
  rw [← htext, BinaryOp.ofLexeme?_lexeme]

/-- A token that the parser takes for an operator stands between two operands. -/
theorem infix_of_accepts {l : Level} {t : Token} {op : BinaryOp} (haccepts : l.accepts t = true)
    (hop : BinaryOp.ofLexeme? t.lexeme = some op) : Infix l t op := by
  have htext := BinaryOp.lexeme_of_ofLexeme? hop
  cases l with
  | comparison => exact .comparison haccepts htext
  | additive =>
    obtain ⟨hkind, hsign⟩ : (t.kind = .operator ∨ t.kind = .unaryPlus ∨ t.kind = .unaryMinus) ∧
        (t.lexeme = "+" ∨ t.lexeme = "-") := by
      simpa [Level.accepts, isAdditive, or_assoc] using haccepts
    have hlevel : level op = .additive := by
      rcases hsign with h | h <;> rw [h] at hop <;> cases hop <;> rfl
    rcases hkind with hkind | hkind
    · exact hlevel ▸ .operator hkind htext (by simp [hlevel])
    · exact .sign hkind htext hlevel
  | multiplicative =>
    obtain ⟨hkind, hsign⟩ : t.kind = .operator ∧
        (t.lexeme = "*" ∨ t.lexeme = "/" ∨ t.lexeme = "%") := by
      simpa [Level.accepts, isMultiplicative, or_assoc] using haccepts
    have hlevel : level op = .multiplicative := by
      rcases hsign with h | h | h <;> rw [h] at hop <;> cases hop <;> rfl
    exact hlevel ▸ .operator hkind htext (by simp [hlevel])
  | power =>
    obtain ⟨hkind, hsign⟩ : t.kind = .operator ∧ t.lexeme = "^" := by
      simpa [Level.accepts, isPower] using haccepts
    have hlevel : level op = .power := by
      rw [hsign] at hop
      cases hop
      rfl
    exact hlevel ▸ .operator hkind htext (by simp [hlevel])
  | assignment | object | logical | unary | call | primary => cases haccepts

/-! ## Continuations -/

/-- The level at which a token goes on with an expression that stands before it, if it does. -/
def continuation (t : Token) : Option Level :=
  if t.kind = .equals then some .assignment
  else if (logicalOp? t.kind).isSome then some .logical
  else if t.kind.isComparison then some .comparison
  else if isAdditive t then some .additive
  else if isMultiplicative t then some .multiplicative
  else if isPower t then some .power
  else if t.kind = .openParen ∨ t.kind = .dot ∨ t.kind = .openBracket then some .call
  else none

theorem continuation_of_equals {t : Token} (h : t.kind = .equals) :
    continuation t = some .assignment := by
  simp [continuation, h]

theorem continuation_of_logical {t : Token} {op : LogicalOp} (h : t.kind = op.kind) :
    continuation t = some .logical := by
  cases op <;> simp [continuation, h, LogicalOp.kind, logicalOp?]

theorem continuation_of_accepts {l : Level} {t : Token} (h : l.accepts t = true) :
    continuation t = some l := by
  obtain ⟨kind, span, lexeme⟩ := t
  cases l with
  | multiplicative =>
    obtain ⟨rfl, hsign⟩ : kind = .operator ∧ (lexeme = "*" ∨ lexeme = "/" ∨ lexeme = "%") := by
      simpa [Level.accepts, isMultiplicative, or_assoc] using h
    rcases hsign with rfl | rfl | rfl <;> rfl
  | _ =>
    cases kind <;> simp [Level.accepts, TokenKind.isComparison, isAdditive, isPower] at h <;>
      simp [continuation, TokenKind.isComparison, isAdditive, isMultiplicative, isPower,
        logicalOp?, h]

theorem continuation_of_suffix {t : Token}
    (h : t.kind = .openParen ∨ t.kind = .dot ∨ t.kind = .openBracket) :
    continuation t = some .call := by
  rcases h with h | h | h <;>
    simp [continuation, h, TokenKind.isComparison, isAdditive, isMultiplicative, isPower, logicalOp?]

/-- The kinds of token that stand behind whole expressions. -/
def closes (kind : TokenKind) : Bool :=
  kind = .comma || kind = .semicolon || kind = .closeParen || kind = .openBrace ||
    kind = .closeBrace || kind = .closeBracket || kind = .endOfInput

theorem continuation_of_closes {t : Token} (h : closes t.kind = true) :
    continuation t = none := by
  obtain ⟨kind, span, lexeme⟩ := t
  cases kind <;> simp [closes] at h <;>
    simp [continuation, TokenKind.isComparison, isAdditive, isMultiplicative, isPower, logicalOp?]

/-- What stands behind a property: a comma, or nothing in front of a closing brace. -/
def EndsProperty (ts : List Token) (next : Token) : Prop :=
  ts = [] ∧ next.kind = .closeBrace ∨ ∃ comma, ts = [comma] ∧ comma.kind = .comma

theorem EndsProperty.closes {ts : List Token} {next : Token} (h : EndsProperty ts next) :
    closes (Stream.first ts next).kind = true := by
  rcases h with ⟨rfl, hnext⟩ | ⟨comma, rfl, hcomma⟩ <;> simp [Grammar.closes, *]

/-- How tight a level is. -/
def Level.rank : Level → Nat
  | assignment => 0
  | object => 1
  | logical => 2
  | unary => 3
  | comparison => 4
  | additive => 5
  | multiplicative => 6
  | power => 7
  | call => 8
  | primary => 9

theorem Level.rank_le_next (l : Level) : l.rank ≤ l.next.rank := by
  cases l <;> decide

theorem Level.rank_injective : Function.Injective Level.rank := by
  intro l l' h
  cases l <;> cases l' <;> first | rfl | cases h

/-- What stands at a level may stand at every looser one. -/
theorem Derives.looser {least : Nat} {ts : List Token} {l l' : Level} {e : Expr}
    (h : Derives least ts (.expr l e)) (hrank : l'.rank ≤ l.rank) :
    Derives least ts (.expr l' e) := by
  induction hdistance : l.rank - l'.rank generalizing l' with
  | zero =>
    obtain rfl : l' = l := Level.rank_injective (by omega)
    exact h
  | succ distance ih =>
    have hnext : l'.next.rank = l'.rank + 1 := by
      cases l' <;> first | rfl | cases l <;> cases hdistance
    exact .tighter (ih (by omega) (by omega))

/-- An expression of a level ends before a token: it goes on at a looser level or not at all. -/
def Level.Ends (l : Level) (t : Token) : Prop := ∀ l', continuation t = some l' → l'.rank < l.rank

theorem Level.Ends.next {l : Level} {t : Token} (h : l.Ends t) : l.next.Ends t :=
  fun l' hl' => Nat.lt_of_lt_of_le (h l' hl') l.rank_le_next

theorem Level.Ends.continuation_ne {l : Level} {t : Token} (h : l.Ends t) :
    continuation t ≠ some l := fun hl => Nat.lt_irrefl _ (h l hl)

theorem Level.ends_of_closes (l : Level) {t : Token} (h : closes t.kind = true) :
    l.Ends t := by
  intro l' hl'
  rw [continuation_of_closes h] at hl'
  cases hl'

/-- What goes on with an expression of a level leaves the operands of that level as they are. -/
theorem Level.next_ends_of_continuation {l : Level} {t : Token} (h : continuation t = some l)
    (hl : l ≠ .primary) : l.next.Ends t := by
  intro l' hl'
  obtain rfl : l = l' := Option.some.inj (h.symm.trans hl')
  cases l <;> simp [Level.next, Level.rank] at hl ⊢

/-! ## First tokens -/

/-- The kinds of token that an operand can begin with. -/
def beginsOperand (kind : TokenKind) : Bool :=
  kind = .identifier || kind = .text || kind = .null || kind = .integer || kind = .float ||
    kind = .openParen

/-- The kinds of token that an expression of a level can begin with. -/
def Level.begins : Level → TokenKind → Bool
  | assignment, kind | object, kind =>
    kind = .openBrace || (unaryOp? kind).isSome || beginsOperand kind
  | logical, kind | unary, kind => (unaryOp? kind).isSome || beginsOperand kind
  | _, kind => beginsOperand kind

/-- The kinds of token that a statement begins with, unless it is an expression. -/
def isStatementWord (kind : TokenKind) : Bool :=
  kind = .ifWord || kind = .whileWord || kind = .varWord || kind = .declareWord ||
    kind = .constWord || kind = .defWord

/-- The kinds of token that a part of a program can begin with. What no tokens at all may write is
left out. -/
def Phrase.begins : Phrase → TokenKind → Bool
  | expr l _, kind => l.begins kind
  | property _ _, kind | declarator _ _, kind | declarators _ _, kind => kind = .identifier
  | stmt _, kind => isStatementWord kind || Level.assignment.begins kind
  | block _, kind => kind = .openBrace
  | _, _ => true

/-- Whether a part of a program has a first token in any case. -/
def Phrase.solid : Phrase → Bool
  | arguments _ | properties _ | alternate _ | run _ | body _ => false
  | _ => true

/-- There is a first token, and it is of one of certain kinds. -/
def Starts (ts : List Token) (kinds : TokenKind → Bool) : Prop :=
  ∃ t rest, ts = t :: rest ∧ kinds t.kind = true

namespace Starts

variable {ts ts' : List Token} {t next : Token} {kinds kinds' : TokenKind → Bool}

theorem cons (h : kinds t.kind = true) : Starts (t :: ts) kinds := ⟨t, ts, rfl, h⟩

theorem append (h : Starts ts kinds) : Starts (ts ++ ts') kinds := by
  obtain ⟨t, rest, rfl, ht⟩ := h
  exact cons ht

theorem mono (h : Starts ts kinds) (himp : ∀ kind, kinds kind = true → kinds' kind = true) :
    Starts ts kinds' := by
  obtain ⟨t, rest, rfl, ht⟩ := h
  exact cons (himp _ ht)

theorem ne_nil (h : Starts ts kinds) : ts ≠ [] := by
  obtain ⟨t, rest, rfl, -⟩ := h
  exact List.cons_ne_nil t rest

theorem first (h : Starts ts kinds) (next : Token) : kinds (Stream.first ts next).kind = true := by
  obtain ⟨t, rest, rfl, ht⟩ := h
  exact ht

theorem first_ne (h : Starts ts kinds) {kind : TokenKind} (hkind : kinds kind = false)
    (next : Token) : (Stream.first ts next).kind ≠ kind := by
  rintro rfl
  exact Bool.noConfusion (hkind.symm.trans (h.first next))

end Starts

theorem Level.begins_of_next {l : Level} {kind : TokenKind} (h : l.next.begins kind = true) :
    l.begins kind = true := by
  cases l <;> simp_all [Level.next, Level.begins, or_assoc]

/-- Every expression, property, declarator, statement and block has a first token, and it is of a
fitting kind. -/
theorem Derives.starts {least : Nat} {ts : List Token} {p : Phrase} (h : Derives least ts p)
    (hsolid : p.solid = true) : Starts ts p.begins := by
  induction h with
  | identifier ht | text ht | null ht | group ht =>
    exact .cons (by simp [Phrase.begins, Level.begins, beginsOperand, ht])
  | number ht =>
    exact .cons (by rcases ht with ht | ht <;>
      simp [Phrase.begins, Level.begins, beginsOperand, ht])
  | tighter _ ih => exact (ih rfl).mono fun _ => Level.begins_of_next
  -- What stands to the left of an operator, a call or a comma comes first.
  | member _ _ _ ih | binary _ _ _ ih | logical _ _ _ ih => exact (ih rfl).append
  | call _ _ _ _ ih | computed _ _ _ _ ih =>
    rw [List.append_assoc]
    exact (ih rfl).append
  | assignment _ _ _ ih | more_declarators _ _ _ ih => exact (ih rfl).append
  | unary hop => exact .cons (by simp [Phrase.begins, Level.begins, unaryOp?_eq_some.mpr hop])
  | object ho => exact .cons (by simp [Phrase.begins, Level.begins, ho])
  | key ht | entry ht | bare ht | initialized ht => exact .cons (by simp [Phrase.begins, ht])
  | one_declarator _ ih => exact ih rfl
  | @declaration _ word _ _ ht =>
    exact .cons (by cases word <;> simp [Phrase.begins, isStatementWord, ht, DeclarationWord.kind])
  | constants ht | function ht | conditional ht | loop ht =>
    exact .cons (by simp [Phrase.begins, isStatementWord, ht])
  | expression _ ih => exact (ih rfl).mono fun _ h => by simpa [Phrase.begins] using .inr h
  | block ho => exact .cons (by simp [Phrase.begins, ho])
  | no_arguments | one_argument | more_arguments | no_properties | last_property | more_properties
  | no_alternate | last_alternate | next_alternate | no_stmts | more_stmts | body => cases hsolid

theorem Derives.starts_arguments {least : Nat} {ts : List Token} {arg : Expr} {args : List Expr}
    (h : Derives least ts (.arguments (arg :: args))) : Starts ts Level.assignment.begins := by
  cases h with
  | one_argument he => exact he.starts rfl
  | more_arguments he => exact (he.starts rfl).append

/-- No semicolon is left in front of a row of statements. -/
theorem Derives.first_ne_semicolon {least : Nat} {ts : List Token} {stmts : List Stmt}
    {next : Token} (h : Derives least ts (.run stmts)) (hnext : next.kind ≠ .semicolon) :
    (Stream.first ts next).kind ≠ .semicolon := by
  cases h with
  | no_stmts => exact hnext
  | more_stmts hs =>
    rw [List.append_assoc]
    exact (hs.starts rfl).append.first_ne rfl next

/-! ## The end of input -/

theorem Infix.ne_endOfInput {l : Level} {t : Token} {op : BinaryOp} (h : Infix l t op) :
    t.kind ≠ .endOfInput := Level.ne_endOfInput_of_accepts h.accepts

/-- The end of input writes nothing. -/
theorem Derives.ne_endOfInput {least : Nat} {ts : List Token} {p : Phrase}
    (h : Derives least ts p) : ∀ t ∈ ts, t.kind ≠ .endOfInput := by
  induction h with
  | number ht => rcases ht with ht | ht <;> simp [ht]
  | binary _ hop => simp_all [or_imp, hop.ne_endOfInput]
  | @unary _ op => cases op <;> simp_all [UnaryOp.kind]
  | @logical _ op => cases op <;> simp_all [or_imp, LogicalOp.kind]
  | @declaration _ word | @constants _ _ word => cases word <;> simp_all [DeclarationWord.kind]
  | _ => simp_all [or_imp]

end Grammar

end Scriptlet
