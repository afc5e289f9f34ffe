import Scriptlet.Proofs.Parser.Level
import Scriptlet.Proofs.Parser.Sound

/-!
# Parameter lists

Parameters are read like the arguments of a call, and then each has to be a name. Parentheses around a
name leave no trace in its tree, so they pass.

**Theorem (`declares_of_parseTokens`).** If a list of tokens is read, every declaration of a function in
it has names between its parentheses, one for each parameter and in their order, with single commas
between them. A name may stand in parentheses of its own; nothing else may stand there, and without such
parentheses the names are tokens on their own.

The functions of a program are listed in the order of their words (`Program.signatures`), and `Declares`
goes through the tokens from one word to the next. That a derivation keeps to it is an induction on the
derivation (`Derives.declares`). What the proof needs of expressions is that only a name, with or without
parentheses, derives a tree that is a name (`Derives.wrapped`).
-/

namespace Scriptlet

/-! ## The functions of a program -/

/-- What stands before the body of a function. -/
structure Signature where
  name : String
  params : List String
  span : Span
  deriving DecidableEq, Repr

mutual

/-- The functions that a statement declares, in the order of their words. -/
def Stmt.signatures : Stmt → List Signature
  | .declaration .. | .expression _ => []
  | .function name params body span => ⟨name, params, span⟩ :: body.signatures
  | .conditional _ consequent alternate _ => consequent.signatures ++ alternateSignatures alternate
  | .loop _ body _ | .block body => body.signatures

/-- The functions that the statements of a block declare. -/
def Block.signatures : Block Stmt → List Signature
  | ⟨body, _⟩ => bodySignatures body

/-- The functions that some statements declare. -/
def bodySignatures : List Stmt → List Signature
  | [] => []
  | stmt :: rest => stmt.signatures ++ bodySignatures rest

/-- The functions that the alternate of a conditional declares. -/
def alternateSignatures : Option Stmt → List Signature
  | none => []
  | some stmt => stmt.signatures

end

/-- The functions that a program declares, in the order of their words. -/
def Program.signatures (program : Program) : List Signature := bodySignatures program

namespace Grammar

/-- The functions that a part of a program declares. -/
def Phrase.signatures : Phrase → List Signature
  | .stmt s => s.signatures
  | .alternate s => alternateSignatures s
  | .run stmts | .body stmts => bodySignatures stmts
  | .block b => b.signatures
  | .expr .. | .arguments _ | .property .. | .properties _ | .declarator .. | .declarators .. => []

/-! ## Declarations among tokens -/

/-- The declarations of functions that begin at the words for it among some tokens. The tokens between the
parentheses of each belong to its parameters. -/
inductive Declares (Params : List Token → List String → Prop) : List Token → List Signature → Prop where
  | nil : Declares Params [] []
  | other {t : Token} {ts : List Token} {signatures : List Signature} (ht : t.kind ≠ .defWord)
    (h : Declares Params ts signatures) : Declares Params (t :: ts) signatures
  | function {word name opening closing : Token} {ts rest : List Token} {params : List String}
    {signatures : List Signature} (hword : word.kind = .defWord) (hname : name.kind = .identifier)
    (ho : opening.kind = .openParen) (hparams : Params ts params) (hc : closing.kind = .closeParen)
    (h : Declares Params rest signatures) :
    Declares Params (word :: name :: opening :: ts ++ closing :: rest)
      (⟨name.lexeme, params, word.span⟩ :: signatures)

/-- Entries with single commas between them, or none. -/
inductive Row (Entry : List Token → String → Prop) : List Token → List String → Prop where
  | none : Row Entry [] []
  | one {ts : List Token} {param : String} (h : Entry ts param) : Row Entry ts [param]
  | more {comma : Token} {ts ts' : List Token} {param next : String} {params : List String}
    (h : Entry ts param) (hcomma : comma.kind = .comma) (hrest : Row Entry ts' (next :: params)) :
    Row Entry (ts ++ comma :: ts') (param :: next :: params)

/-- A name on its own. -/
def Bare (ts : List Token) (param : String) : Prop :=
  ∃ t : Token, t.kind = .identifier ∧ ts = [t] ∧ param = t.lexeme

/-- A name in any number of parentheses. -/
inductive Wrapped : List Token → String → Prop where
  | name {t : Token} (ht : t.kind = .identifier) : Wrapped [t] t.lexeme
  | parens {opening closing : Token} {ts : List Token} {param : String} (ho : opening.kind = .openParen)
    (h : Wrapped ts param) (hc : closing.kind = .closeParen) : Wrapped (opening :: ts ++ [closing]) param

/-- Names, of which some may stand in parentheses; none does if there is no opening parenthesis. -/
def Names (ts : List Token) (params : List String) : Prop :=
  Row Wrapped ts params ∧ (Row Bare ts params ↔ ∀ t ∈ ts, t.kind ≠ .openParen)

variable {Params : List Token → List String → Prop} {least : Nat} {ts ts' : List Token}
  {params : List String} {param : String} {signatures signatures' : List Signature} {p : Phrase}

theorem Declares.append (h : Declares Params ts signatures) (h' : Declares Params ts' signatures') :
    Declares Params (ts ++ ts') (signatures ++ signatures') := by
  induction h with
  | nil => exact h'
  | other ht _ ih => exact .other ht ih
  | function hword hname ho hparams hc _ ih => simpa using Declares.function hword hname ho hparams hc ih

/-- Where no word for a function stands, none is declared. -/
@[simp]
theorem declares_nil_iff : Declares Params ts [] ↔ ∀ t ∈ ts, t.kind ≠ .defWord := by
  constructor
  · intro h
    generalize hnone : ([] : List Signature) = none at h
    induction h with
    | nil => simp
    | other ht _ ih => exact List.forall_mem_cons.mpr ⟨ht, ih hnone⟩
    | function => cases hnone
  · intro h
    induction ts with
    | nil => exact .nil
    | cons t ts ih =>
      obtain ⟨ht, hts⟩ := List.forall_mem_cons.mp h
      exact .other ht (ih hts)

theorem declares_of_semicolons (h : ∀ t ∈ ts, t.kind = .semicolon) : Declares Params ts [] :=
  declares_nil_iff.mpr fun t ht => by simp [h t ht]

/-! ## Names in parentheses -/

theorem Row.mono {Entry Entry' : List Token → String → Prop} (h : Row Entry ts params)
    (hentry : ∀ us param, (∀ t ∈ us, t ∈ ts) → Entry us param → Entry' us param) : Row Entry' ts params := by
  induction h with
  | none => exact .none
  | one h => exact .one (hentry _ _ (fun _ ht => ht) h)
  | more h hcomma _ ih =>
    refine .more (hentry _ _ (fun t ht => List.mem_append_left _ ht) h) hcomma (ih ?_)
    intro us param hsub
    exact hentry us param fun t ht => List.mem_append_right _ (List.mem_cons_of_mem _ (hsub t ht))

/-- A name on its own is one in no parentheses. -/
theorem bare_of_wrapped (h : Wrapped ts param) (hopen : ∀ t ∈ ts, t.kind ≠ .openParen) : Bare ts param := by
  cases h with
  | name ht => exact ⟨_, ht, rfl, rfl⟩
  | parens ho => exact absurd ho (hopen _ List.mem_cons_self)

theorem Row.ne_openParen (h : Row Bare ts params) : ∀ t ∈ ts, t.kind ≠ .openParen := by
  have hbare : ∀ {us : List Token} {param : String}, Bare us param → ∀ t ∈ us, t.kind ≠ .openParen := by
    rintro us param ⟨name, hname, rfl, -⟩
    simp [hname]
  induction h with
  | none => simp
  | one h => exact hbare h
  | more h hcomma _ ih =>
    have := hbare h
    simp_all [or_imp]

theorem names_of_row (h : Row Wrapped ts params) : Names ts params :=
  ⟨h, Row.ne_openParen, fun hopen =>
    h.mono fun _ _ hsub hwrapped => bare_of_wrapped hwrapped fun t ht => hopen t (hsub t ht)⟩

/-- Only a name, with or without parentheses, is read as a name. -/
theorem Derives.wrapped {l : Level} {span : Span} (h : Derives least ts (.expr l (.identifier param span))) :
    Wrapped ts param := by
  generalize hp : Phrase.expr l (.identifier param span) = p at h
  induction h generalizing l with
  | identifier ht =>
    cases hp
    exact .name ht
  | group ho _ hc ih =>
    cases hp
    exact .parens ho (ih rfl) hc
  | tighter _ ih =>
    cases hp
    exact ih rfl
  | _ => cases hp

/-- Arguments that are names are a row of names. -/
theorem Derives.row {args : List Expr} (h : Derives least ts (.arguments args))
    (hparams : List.Forall₂ (fun arg param => ∃ span, arg = .identifier param span) args params) :
    Row Wrapped ts params := by
  generalize hp : Phrase.arguments args = p at h
  induction h generalizing args params with
  | no_arguments =>
    cases hp
    cases hparams
    exact .none
  | one_argument he =>
    cases hp
    obtain _ | ⟨⟨span, rfl⟩, _ | _⟩ := hparams
    exact .one he.wrapped
  | more_arguments he hcomma _ _ ih =>
    cases hp
    obtain _ | ⟨⟨span, rfl⟩, hrest⟩ := hparams
    obtain _ | ⟨hnext, hmore⟩ := hrest
    exact .more he.wrapped hcomma (ih (.cons hnext hmore) rfl)
  | _ => cases hp

/-! ## Derivations -/

theorem Infix.ne_defWord {l : Level} {t : Token} {op : BinaryOp} (h : Infix l t op) : t.kind ≠ .defWord := by
  intro ht
  cases h <;> simp_all [TokenKind.isComparison]

/-- **The declarations in a part of a program have names between their parentheses.** -/
theorem Derives.declares (h : Derives least ts p) : Declares Names ts p.signatures := by
  induction h with
  | function hword hname ho hargs hparams hc _ _ ih =>
    exact .function hword hname ho (names_of_row (hargs.row hparams)) hc ih
  | conditional ht _ _ _ ihcondition ihconsequent ihalternate =>
    exact .other (by simp [ht]) ((ihcondition.append ihconsequent).append ihalternate)
  | loop ht _ _ ihcondition ihbody => exact .other (by simp [ht]) (ihcondition.append ihbody)
  | last_alternate ht _ ih => exact .other (by simp [ht]) ih
  | next_alternate ht _ _ ih => exact .other (by simp [ht]) ih
  | more_stmts _ hsemicolons _ _ ihstmt ihrest =>
    have hstmts := (ihstmt.append (declares_of_semicolons hsemicolons)).append ihrest
    rwa [List.append_nil] at hstmts
  | body hsemicolons _ ih => exact (declares_of_semicolons hsemicolons).append ih
  | @block _ closing _ _ ho _ hc ih =>
    have hclosing : Declares Names [closing] [] := .other (by simp [hc]) .nil
    have hinside := ih.append hclosing
    rw [List.append_nil] at hinside
    exact .other (by simp [ho]) hinside
  -- Nothing else has a statement in it, so its tokens are not words for functions.
  | number ht => rcases ht with ht | ht <;> simp [Phrase.signatures, ht]
  | binary _ hop => simp_all [Phrase.signatures, or_imp, hop.ne_defWord]
  | @unary _ op => cases op <;> simp_all [Phrase.signatures, UnaryOp.kind]
  | @logical _ op => cases op <;> simp_all [Phrase.signatures, or_imp, LogicalOp.kind]
  | @declaration _ word | @constants _ _ word =>
    cases word <;> simp_all [Phrase.signatures, Stmt.signatures, DeclarationWord.kind]
  | no_stmts | no_alternate => exact .nil
  | _ => simp_all [Phrase.signatures, Stmt.signatures, or_imp]

end Grammar

open Grammar

/-- **The parameters of every declaration that is read are names**, in parentheses or on their own. -/
theorem declares_of_parseTokens {tokens : List Token} {program : Program}
    (h : parseTokens tokens = .ok program) :
    Declares Names (tokens.takeWhile (·.kind ≠ .endOfInput)) program.signatures := by
  obtain ⟨s, hprogram⟩ := exists_of_parseTokens h
  exact (Parser.derives_of_program hprogram).declares

/-- A function in the body of another one. -/
theorem declares_nested :
    let tokens : List Token := [⟨.defWord, ⟨0, 3, 1, 1⟩, "def"⟩, ⟨.identifier, ⟨4, 5, 1, 5⟩, "f"⟩,
      ⟨.openParen, ⟨5, 6, 1, 6⟩, "("⟩, ⟨.identifier, ⟨6, 7, 1, 7⟩, "a"⟩, ⟨.comma, ⟨7, 8, 1, 8⟩, ","⟩,
      ⟨.identifier, ⟨9, 10, 1, 10⟩, "b"⟩, ⟨.closeParen, ⟨10, 11, 1, 11⟩, ")"⟩,
      ⟨.openBrace, ⟨12, 13, 1, 13⟩, "\x7b"⟩, ⟨.defWord, ⟨14, 17, 1, 15⟩, "def"⟩,
      ⟨.identifier, ⟨18, 19, 1, 19⟩, "g"⟩, ⟨.openParen, ⟨19, 20, 1, 20⟩, "("⟩,
      ⟨.closeParen, ⟨20, 21, 1, 21⟩, ")"⟩, ⟨.openBrace, ⟨22, 23, 1, 23⟩, "\x7b"⟩,
      ⟨.closeBrace, ⟨24, 25, 1, 25⟩, "\x7d"⟩, ⟨.closeBrace, ⟨26, 27, 1, 27⟩, "\x7d"⟩]
    let program : Program := [.function "f" ["a", "b"]
      ⟨[.function "g" [] ⟨[], ⟨22, 23, 1, 23⟩⟩ ⟨14, 17, 1, 15⟩], ⟨12, 13, 1, 13⟩⟩ ⟨0, 3, 1, 1⟩]
    parseTokens tokens = .ok program ∧
      Declares Names tokens [⟨"f", ["a", "b"], ⟨0, 3, 1, 1⟩⟩, ⟨"g", [], ⟨14, 17, 1, 15⟩⟩] := by
  intro tokens program
  have hparse : parseTokens tokens = .ok program := by rfl
  exact ⟨hparse, declares_of_parseTokens hparse⟩

/-- A name in parentheses passes for a parameter. -/
theorem parenthesized_parameter :
    let params : List Token := [⟨.openParen, ⟨6, 7, 1, 7⟩, "("⟩, ⟨.identifier, ⟨7, 8, 1, 8⟩, "a"⟩,
      ⟨.closeParen, ⟨8, 9, 1, 9⟩, ")"⟩]
    let tokens : List Token := [⟨.defWord, ⟨0, 3, 1, 1⟩, "def"⟩, ⟨.identifier, ⟨4, 5, 1, 5⟩, "f"⟩,
      ⟨.openParen, ⟨5, 6, 1, 6⟩, "("⟩] ++ params ++ [⟨.closeParen, ⟨9, 10, 1, 10⟩, ")"⟩,
      ⟨.openBrace, ⟨11, 12, 1, 12⟩, "\x7b"⟩, ⟨.closeBrace, ⟨13, 14, 1, 14⟩, "\x7d"⟩,
      ⟨.endOfInput, ⟨14, 14, 1, 15⟩, ""⟩]
    tokenize "def f((a)) \x7b \x7d" = .ok tokens ∧
    parseTokens tokens = .ok [.function "f" ["a"] ⟨[], ⟨11, 12, 1, 12⟩⟩ ⟨0, 3, 1, 1⟩] ∧
    ¬∃ names, Row Bare params names := by
  intro params tokens
  refine ⟨by decide +kernel, by rfl, ?_⟩
  rintro ⟨names, hrow⟩
  exact hrow.ne_openParen ⟨.openParen, ⟨6, 7, 1, 7⟩, "("⟩ List.mem_cons_self rfl

end Scriptlet
