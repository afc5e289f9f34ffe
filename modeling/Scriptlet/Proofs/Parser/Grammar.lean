import Mathlib.Data.List.Forall2
import Scriptlet.Program
import Scriptlet.Token

/-!
# The grammar of the language

`Derives` says which tokens write which part of a program. From loosest to tightest the levels of
expressions are: assignment, object literal, logical, prefix, comparison, additive, multiplicative,
power, call and member, primary. What stands at a tighter level may stand at a looser one. Binary and
logical operators, calls and members group to the left, assignments to the right; a prefix operator
has a whole comparison as its operand, and parentheses make a primary expression of any expression.

Every token of a derivation is used, once and in its place: either a node of the program comes from
it, or it is a semicolon, one of two grouping parentheses or the comma after a last property. The
spans of a program are those of its tokens; they put no condition on the tokens.

How many semicolons have to stand between two statements of a body is left open. Wherever the
grammar asks for at least one, a list of tokens writes at most one program. With none, it may be
that one statement could go on where another could begin, as with a name and an opening parenthesis.
-/

namespace Scriptlet

/-- The kind of token that a prefix operator is written with. -/
def UnaryOp.kind : UnaryOp → TokenKind
  | .plus => .unaryPlus
  | .minus => .unaryMinus
  | .not => .notWord

/-- The kind of token that a logical operator is written with. -/
def LogicalOp.kind : LogicalOp → TokenKind
  | .and => .andWord
  | .or => .orWord

/-- The kind of token that a word of declaration is written with. -/
def DeclarationWord.kind : DeclarationWord → TokenKind
  | .var => .varWord
  | .declare => .declareWord

namespace Grammar

/-! ## Levels -/

/-- The levels of expressions, from loosest to tightest. -/
inductive Level where
  | assignment
  | object
  | logical
  | unary
  | comparison
  | additive
  | multiplicative
  | power
  | call
  | primary
  deriving DecidableEq, Repr

/-- The next tighter level. -/
def Level.next : Level → Level
  | assignment => object
  | object => logical
  | logical => unary
  | unary => comparison
  | comparison => additive
  | additive => multiplicative
  | multiplicative => power
  | power => call
  | call => primary
  | primary => primary

/-- The level of a binary operator. -/
def level : BinaryOp → Level
  | .add | .subtract => .additive
  | .multiply | .divide | .modulo => .multiplicative
  | .power => .power
  | .equal | .notEqual | .less | .lessOrEqual | .greater | .greaterOrEqual => .comparison

/-- A token that stands between two operands at a level. The operator is the one that its text names.
A comparison sign is known by its kind; a sign of addition or subtraction may be tagged like any
other operator of arithmetic or like a prefix operator. -/
inductive Infix : Level → Token → BinaryOp → Prop where
  | comparison {token : Token} {op : BinaryOp} (hkind : token.kind.isComparison = true)
    (htext : op.lexeme = token.lexeme) : Infix .comparison token op
  | operator {token : Token} {op : BinaryOp} (hkind : token.kind = .operator)
    (htext : op.lexeme = token.lexeme) (hlevel : level op ≠ .comparison) : Infix (level op) token op
  | sign {token : Token} {op : BinaryOp} (hkind : token.kind = .unaryPlus ∨ token.kind = .unaryMinus)
    (htext : op.lexeme = token.lexeme) (hlevel : level op = .additive) : Infix .additive token op

/-! ## Derivations -/

/-- The parts of a program. -/
inductive Phrase where
  | expr (level : Level) (e : Expr)
  /-- Expressions between commas, or none. -/
  | arguments (args : List Expr)
  | property (key : String) (value : Option Expr)
  /-- Properties between commas, and perhaps a comma at the end. -/
  | properties (fields : List (String × Option Expr))
  | declarator (constant : Bool) (d : Declarator)
  /-- Declarators between commas, at least one. -/
  | declarators (constant : Bool) (ds : List Declarator)
  | stmt (s : Stmt)
  | alternate (s : Option Stmt)
  /-- Statements, each with the semicolons after it. -/
  | run (stmts : List Stmt)
  /-- Statements, with semicolons before, between and after them. -/
  | body (stmts : List Stmt)
  | block (b : Block Stmt)

/-- Whether tokens write a part of a program, with at least so many semicolons between every two
statements of a body. -/
inductive Derives (least : Nat) : List Token → Phrase → Prop where
  -- Primary expressions
  | identifier {t : Token} (ht : t.kind = .identifier) :
    Derives least [t] (.expr .primary (.identifier t.lexeme t.span))
  | text {t : Token} (ht : t.kind = .text) :
    Derives least [t] (.expr .primary (.text t.lexeme t.span))
  | null {t : Token} (ht : t.kind = .null) : Derives least [t] (.expr .primary (.null t.span))
  | number {t : Token} {value : Double} (ht : t.kind = .integer ∨ t.kind = .float)
    (hvalue : Double.ofLexeme? t.lexeme.toList = some value) :
    Derives least [t] (.expr .primary (.number ⟨value, t.kind = .float⟩ t.span))
  | group {opening closing : Token} {ts : List Token} {e : Expr} (ho : opening.kind = .openParen)
    (he : Derives least ts (.expr .assignment e)) (hc : closing.kind = .closeParen) :
    Derives least (opening :: ts ++ [closing]) (.expr .primary e)
  /-- An expression of a tighter level. -/
  | tighter {l : Level} {ts : List Token} {e : Expr} (h : Derives least ts (.expr l.next e)) :
    Derives least ts (.expr l e)
  -- Calls and members
  | call {opening closing : Token} {ts ts' : List Token} {callee : Expr} {args : List Expr}
    (hcallee : Derives least ts (.expr .call callee)) (ho : opening.kind = .openParen)
    (hargs : Derives least ts' (.arguments args)) (hc : closing.kind = .closeParen) :
    Derives least (ts ++ opening :: ts' ++ [closing])
      (.expr .call (.call callee args (callee.span.join closing.span)))
  | member {dot name : Token} {ts : List Token} {object : Expr}
    (hobject : Derives least ts (.expr .call object)) (hdot : dot.kind = .dot)
    (hname : name.kind = .identifier) :
    Derives least (ts ++ [dot, name]) (.expr .call
      (.member object (.identifier name.lexeme name.span) false (object.span.join name.span)))
  | computed {opening closing : Token} {ts ts' : List Token} {object property : Expr}
    (hobject : Derives least ts (.expr .call object)) (ho : opening.kind = .openBracket)
    (hproperty : Derives least ts' (.expr .assignment property))
    (hc : closing.kind = .closeBracket) :
    Derives least (ts ++ opening :: ts' ++ [closing])
      (.expr .call (.member object property true (object.span.join closing.span)))
  | no_arguments : Derives least [] (.arguments [])
  | one_argument {ts : List Token} {e : Expr} (he : Derives least ts (.expr .assignment e)) :
    Derives least ts (.arguments [e])
  | more_arguments {comma : Token} {ts ts' : List Token} {e arg : Expr} {args : List Expr}
    (he : Derives least ts (.expr .assignment e)) (hcomma : comma.kind = .comma)
    (hargs : Derives least ts' (.arguments (arg :: args))) :
    Derives least (ts ++ comma :: ts') (.arguments (e :: arg :: args))
  -- Operators
  | binary {l : Level} {t : Token} {op : BinaryOp} {ts ts' : List Token} {left right : Expr}
    (hleft : Derives least ts (.expr l left)) (hop : Infix l t op)
    (hright : Derives least ts' (.expr l.next right)) :
    Derives least (ts ++ t :: ts') (.expr l (.binary left op right (left.span.join right.span)))
  | unary {t : Token} {op : UnaryOp} {ts : List Token} {operand : Expr} (hop : t.kind = op.kind)
    (hoperand : Derives least ts (.expr .comparison operand)) :
    Derives least (t :: ts) (.expr .unary (.unary op operand (t.span.join operand.span)))
  | logical {t : Token} {op : LogicalOp} {ts ts' : List Token} {left right : Expr}
    (hleft : Derives least ts (.expr .logical left)) (hop : t.kind = op.kind)
    (hright : Derives least ts' (.expr .unary right)) :
    Derives least (ts ++ t :: ts')
      (.expr .logical (.logical left op right (left.span.join right.span)))
  -- Object literals and assignments
  | key {t : Token} (ht : t.kind = .identifier) : Derives least [t] (.property t.lexeme none)
  | entry {t colon : Token} {ts : List Token} {e : Expr} (ht : t.kind = .identifier)
    (hcolon : colon.kind = .colon) (he : Derives least ts (.expr .assignment e)) :
    Derives least (t :: colon :: ts) (.property t.lexeme (some e))
  | no_properties : Derives least [] (.properties [])
  | last_property {ts : List Token} {key : String} {value : Option Expr}
    (h : Derives least ts (.property key value)) : Derives least ts (.properties [(key, value)])
  | more_properties {comma : Token} {ts ts' : List Token} {key : String} {value : Option Expr}
    {fields : List (String × Option Expr)} (h : Derives least ts (.property key value))
    (hcomma : comma.kind = .comma) (hfields : Derives least ts' (.properties fields)) :
    Derives least (ts ++ comma :: ts') (.properties ((key, value) :: fields))
  | object {opening closing : Token} {ts : List Token} {fields : List (String × Option Expr)}
    (ho : opening.kind = .openBrace) (hfields : Derives least ts (.properties fields))
    (hc : closing.kind = .closeBrace) :
    Derives least (opening :: ts ++ [closing])
      (.expr .object (.object fields (opening.span.join closing.span)))
  | assignment {t : Token} {ts ts' : List Token} {target value : Expr}
    (htarget : Derives least ts (.expr .object target)) (ht : t.kind = .equals)
    (hvalue : Derives least ts' (.expr .assignment value)) :
    Derives least (ts ++ t :: ts')
      (.expr .assignment (.assignment target value (target.span.join value.span)))
  -- Declarations
  | bare {t : Token} (ht : t.kind = .identifier) :
    Derives least [t] (.declarator false ⟨t.lexeme, none, t.span⟩)
  | initialized {t equals : Token} {ts : List Token} {constant : Bool} {e : Expr}
    (ht : t.kind = .identifier) (hequals : equals.kind = .equals)
    (he : Derives least ts (.expr .assignment e)) :
    Derives least (t :: equals :: ts) (.declarator constant ⟨t.lexeme, some e, t.span⟩)
  | one_declarator {ts : List Token} {constant : Bool} {d : Declarator}
    (hd : Derives least ts (.declarator constant d)) : Derives least ts (.declarators constant [d])
  | more_declarators {comma : Token} {ts ts' : List Token} {constant : Bool} {d : Declarator}
    {ds : List Declarator} (hd : Derives least ts (.declarator constant d))
    (hcomma : comma.kind = .comma) (hds : Derives least ts' (.declarators constant ds)) :
    Derives least (ts ++ comma :: ts') (.declarators constant (d :: ds))
  | declaration {t : Token} {word : DeclarationWord} {ts : List Token} {ds : List Declarator}
    (ht : t.kind = word.kind) (hds : Derives least ts (.declarators false ds)) :
    Derives least (t :: ts) (.stmt (.declaration ds word false t.span))
  | constants {const t : Token} {word : DeclarationWord} {ts : List Token} {ds : List Declarator}
    (hconst : const.kind = .constWord) (ht : t.kind = word.kind)
    (hds : Derives least ts (.declarators true ds)) :
    Derives least (const :: t :: ts) (.stmt (.declaration ds word true const.span))
  /-- Parameters are written like arguments, and each is a name. -/
  | function {word name opening closing : Token} {ts ts' : List Token} {args : List Expr}
    {params : List String} {body : Block Stmt} (hword : word.kind = .defWord)
    (hname : name.kind = .identifier) (ho : opening.kind = .openParen)
    (hargs : Derives least ts (.arguments args))
    (hparams : List.Forall₂ (fun arg param => ∃ span, arg = .identifier param span) args params)
    (hc : closing.kind = .closeParen) (hbody : Derives least ts' (.block body)) :
    Derives least (word :: name :: opening :: ts ++ closing :: ts')
      (.stmt (.function name.lexeme params body word.span))
  -- Control flow
  | conditional {t : Token} {ts ts' ts'' : List Token} {condition : Expr} {consequent : Block Stmt}
    {alternate : Option Stmt} (ht : t.kind = .ifWord)
    (hcondition : Derives least ts (.expr .assignment condition))
    (hconsequent : Derives least ts' (.block consequent))
    (halternate : Derives least ts'' (.alternate alternate)) :
    Derives least (t :: ts ++ ts' ++ ts'')
      (.stmt (.conditional condition consequent alternate t.span))
  | no_alternate : Derives least [] (.alternate none)
  | last_alternate {t : Token} {ts : List Token} {b : Block Stmt} (ht : t.kind = .elseWord)
    (hb : Derives least ts (.block b)) : Derives least (t :: ts) (.alternate (some (.block b)))
  /-- Another conditional, which begins with its own word. -/
  | next_alternate {t word : Token} {ts : List Token} {s : Stmt} (ht : t.kind = .elseWord)
    (hword : word.kind = .ifWord) (hs : Derives least (word :: ts) (.stmt s)) :
    Derives least (t :: word :: ts) (.alternate (some s))
  | loop {t : Token} {ts ts' : List Token} {condition : Expr} {body : Block Stmt}
    (ht : t.kind = .whileWord) (hcondition : Derives least ts (.expr .assignment condition))
    (hbody : Derives least ts' (.block body)) :
    Derives least (t :: ts ++ ts') (.stmt (.loop condition body t.span))
  | expression {ts : List Token} {e : Expr} (he : Derives least ts (.expr .assignment e)) :
    Derives least ts (.stmt (.expression e))
  -- Rows of statements
  | no_stmts : Derives least [] (.run [])
  | more_stmts {ts semicolons ts' : List Token} {s : Stmt} {stmts : List Stmt}
    (hs : Derives least ts (.stmt s)) (hsemicolons : ∀ t ∈ semicolons, t.kind = .semicolon)
    (hstmts : Derives least ts' (.run stmts)) (hleast : stmts ≠ [] → least ≤ semicolons.length) :
    Derives least (ts ++ semicolons ++ ts') (.run (s :: stmts))
  | body {semicolons ts : List Token} {stmts : List Stmt}
    (hsemicolons : ∀ t ∈ semicolons, t.kind = .semicolon)
    (hstmts : Derives least ts (.run stmts)) : Derives least (semicolons ++ ts) (.body stmts)
  | block {opening closing : Token} {ts : List Token} {stmts : List Stmt}
    (ho : opening.kind = .openBrace) (hbody : Derives least ts (.body stmts))
    (hc : closing.kind = .closeBrace) :
    Derives least (opening :: ts ++ [closing]) (.block ⟨stmts, opening.span⟩)

end Grammar

end Scriptlet
