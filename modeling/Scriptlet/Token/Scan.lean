import Scriptlet.Token
import Scriptlet.Token.Gap
import Scriptlet.Number.Reading
import Scriptlet.Text.Letter

/-!
# From text to tokens

Each rule looks at the first character of the remaining text and splits off one piece: the text of a
token and what follows it. `tokensFrom` alternates gaps and pieces and keeps the position in step
with the text that was read.

A sign is binary at the very start and right after a binary operator, and unary everywhere else; so
the only thing a rule needs to know about the past is the kind of the token before.
-/

namespace Scriptlet

/-- A piece of text that is a token: its kind, the text it takes, what the token reads, and the
text after it. -/
structure Piece where
  kind : TokenKind
  text : List Char
  lexeme : List Char
  rest : List Char
  deriving DecidableEq, Inhabited, Repr

namespace Piece

/-- A piece that reads what it takes. -/
def plain (kind : TokenKind) (text rest : List Char) : Piece := ⟨kind, text, text, rest⟩

/-- The character at this place begins no token. -/
def unexpected (p : Position) (c : Char) : Failure :=
  Failure.located (Span.between p (p.next c)) (.unexpectedCharacter c)

/-- The kind of a character that is a token whatever follows it. -/
def symbol? : Char → Option TokenKind
  | '(' => some .openParen
  | ')' => some .closeParen
  | '{' => some .openBrace
  | '}' => some .closeBrace
  | '[' => some .openBracket
  | ']' => some .closeBracket
  | ',' => some .comma
  | '.' => some .dot
  | ':' => some .colon
  | ';' => some .semicolon
  | '*' | '/' | '%' | '^' => some .operator
  | _ => none

/-- The kind of a sign after a token of the given kind. -/
def signKind (previous : Option TokenKind) (c : Char) : TokenKind :=
  match previous with
  | none | some .operator => .operator
  | some _ => if c = '+' then .unaryPlus else .unaryMinus

/-- The kind of a run of one repeated character. -/
def runKind? : Char → Nat → Option TokenKind
  | '=', 1 => some .equals
  | '=', 2 => some .doubleEquals
  | '&', 2 => some .andWord
  | '|', 2 => some .orWord
  | _, _ => none

/-- The characters that form tokens by their number. -/
def isRunner (c : Char) : Bool := c = '=' || c = '&' || c = '|'

/-- A run is taken whole, or not at all. -/
def ofRun (p : Position) (c : Char) (rest : List Char) : Except Failure Piece :=
  let run := c :: rest.takeWhile (· = c)
  match runKind? c run.length with
  | some kind => .ok (plain kind run (rest.dropWhile (· = c)))
  | none => .error (unexpected p c)

/-- The kinds of a character without and with an equals sign after it. -/
def comparisonKinds? : Char → Option (TokenKind × TokenKind)
  | '!' => some (.notWord, .notEquals)
  | '<' => some (.less, .lessOrEqual)
  | '>' => some (.greater, .greaterOrEqual)
  | _ => none

/-- A character that an equals sign may follow. -/
def ofComparison (kinds : TokenKind × TokenKind) (c : Char) : List Char → Piece
  | '=' :: rest => plain kinds.2 [c, '='] rest
  | rest => plain kinds.1 [c] rest

/-- A string ends at the next quote of its own kind; nothing in it is special. -/
def ofQuote (p : Position) (quote : Char) (rest : List Char) : Except Failure Piece :=
  let inside := rest.takeWhile (· ≠ quote)
  match rest.dropWhile (· ≠ quote) with
  | [] => .error (Failure.located (Span.between p (p.advance (quote :: inside))) .unterminatedString)
  | _ :: rest => .ok ⟨.text, quote :: inside ++ [quote], inside, rest⟩

/-- Digits are an integer; a point makes them a float, whether or not digits follow it. -/
def ofDigits (p : Position) (text : List Char) : Except Failure Piece :=
  let (whole, rest) := splitDigits text
  let piece :=
    match rest with
    | '.' :: rest =>
      let (fraction, rest) := splitDigits rest
      plain .float (whole ++ '.' :: fraction) rest
    | _ => plain .integer whole rest
  if (Double.ofLexeme? piece.text).isSome then .ok piece
  else .error (Failure.located (Span.between p (p.advance piece.text))
    (.invalidNumber (String.ofList piece.text)))

/-- A word is a keyword or a name. -/
def ofWord (c : Char) (rest : List Char) : Piece :=
  let word := c :: rest.takeWhile isLetterOrNumeral
  let kind := (TokenKind.keyword? (String.ofList word)).getD .identifier
  plain kind word (rest.dropWhile isLetterOrNumeral)

/-- The piece that begins with a character at a place. -/
def scan (previous : Option TokenKind) (p : Position) (c : Char) (rest : List Char) :
    Except Failure Piece :=
  if let some kind := symbol? c then .ok (plain kind [c] rest)
  else if c = '+' || c = '-' then .ok (plain (signKind previous c) [c] rest)
  else if isRunner c then ofRun p c rest
  else if let some kinds := comparisonKinds? c then .ok (ofComparison kinds c rest)
  else if c = '"' || c = '\'' then ofQuote p c rest
  else if c.isDigit then ofDigits p (c :: rest)
  else if isLetter c then .ok (ofWord c rest)
  else .error (unexpected p c)

end Piece

namespace Token

/-- The token that marks the end of a source. -/
def endAt (p : Position) : Token := ⟨.endOfInput, Span.between p p, ""⟩

/-- The tokens of a text that begins at a place, after a token of the given kind. Each piece takes
at least one character, so the length of the text bounds the number of steps. -/
def tokensFrom : Nat → Option TokenKind → Position → List Char → Except Failure (List Token)
  | 0, _, p, _ => .ok [endAt p]
  | steps + 1, previous, p, text => do
    match ← skipGap .plain p text with
    | (p, []) => return [endAt p]
    | (p, c :: rest) =>
      let piece ← Piece.scan previous p c rest
      let after := p.advance piece.text
      let token := ⟨piece.kind, Span.between p after, String.ofList piece.lexeme⟩
      return token :: (← tokensFrom steps (some piece.kind) after piece.rest)

end Token

/-- The tokens of a source. The last one, and no other, marks its end. -/
def tokenize (source : String) : Except Failure (List Token) :=
  let text := source.toList
  Token.tokensFrom (text.length + 1) none Position.start text

end Scriptlet
