import Scriptlet.Span
import Scriptlet.Text.Lines

/-!
# What can go wrong

A `Fault` is the cause of a failure, and `Fault.message` its wording. The cause alone decides which
stage of a run is to blame. A `Failure` adds the place in the source, if one is known; written with
its source, it quotes the line and puts a caret under the column.
-/

namespace Scriptlet

/-- The types that values have at run time. -/
inductive ValueType where
  | null
  | boolean
  | number
  | text
  | object
  | function
  | native
  deriving DecidableEq, Inhabited, Repr

/-- The name of a type in messages. -/
def ValueType.name : ValueType → String
  | .null => "null"
  | .boolean => "boolean"
  | .number => "number"
  | .text => "string"
  | .object => "object"
  | .function => "function"
  | .native => "native function"

/-- The places of the grammar that require one certain token. -/
inductive Expectation where
  | declarationKeyword
  | variableName
  | functionName
  | parametersOpen
  | parametersClose
  | functionBodyOpen
  | functionBodyClose
  | consequentOpen
  | consequentClose
  | alternateOpen
  | alternateClose
  | loopBodyOpen
  | loopBodyClose
  | propertyKey
  | propertySeparator
  | objectClose
  | argumentsClose
  | memberName
  | elementClose
  | groupClose
  deriving DecidableEq, Inhabited, Repr

/-- The wording of a requirement. -/
def Expectation.text : Expectation → String
  | .declarationKeyword => "expected 'var' or 'declare' after 'const'"
  | .variableName => "expected variable name"
  | .functionName => "expected function name after 'def'"
  | .parametersOpen => "expected '(' after function name"
  | .parametersClose => "expected ')' after parameters"
  | .functionBodyOpen => "expected '\x7b' before function body"
  | .functionBodyClose => "expected '\x7d' after function body"
  | .consequentOpen => "expected '\x7b' after if condition"
  | .consequentClose => "expected '\x7d' after if body"
  | .alternateOpen => "expected '\x7b' after else"
  | .alternateClose => "expected '\x7d' after else body"
  | .loopBodyOpen => "expected '\x7b' after while condition"
  | .loopBodyClose => "expected '\x7d' after while body"
  | .propertyKey => "expected object literal key"
  | .propertySeparator => "expected ',' or '\x7d' after property"
  | .objectClose => "expected '\x7d' to close object literal"
  | .argumentsClose => "expected ')' after arguments"
  | .memberName => "expected identifier after '.'"
  | .elementClose => "expected ']' after computed member"
  | .groupClose => "expected ')' after expression"

/-- The stages of a run. -/
inductive Phase where
  | lexing
  | parsing
  | running
  deriving DecidableEq, Inhabited, Repr

/-- The name of a stage in front of a message. -/
def Phase.text : Phase → String
  | .lexing => "LexError"
  | .parsing => "ParseError"
  | .running => "RuntimeError"

/-- The causes of failure. -/
inductive Fault where
  | unexpectedCharacter (c : Char)
  | unterminatedString
  | unterminatedComment
  | invalidNumber (text : String)
  | unexpectedToken (text : String)
  | expectedToken (what : Expectation) (got : String)
  | constWithoutInitializer (name : String)
  | invalidParameter
  | duplicateDeclaration (name : String)
  | undeclaredVariable (name : String)
  | constAssignment (name : String)
  | typeMismatch (expected : List ValueType) (got : ValueType)
  | divisionByZero
  | memberNotFound (key : String) (owner : ValueType)
  | notCallable (type : ValueType)
  | invalidAssignmentTarget
  | arityMismatch (name : String) (expected got : Nat)
  | callDepthExceeded (limit : Nat)
  | consoleFailure (reason : String)
  deriving DecidableEq, Inhabited, Repr

namespace Fault

/-- The wording of a fault. -/
def message : Fault → String
  | .unexpectedCharacter c => s!"unrecognized character '{c}'"
  | .unterminatedString => "unterminated string literal"
  | .unterminatedComment => "unterminated block comment"
  | .invalidNumber text => s!"invalid number '{text}'"
  | .unexpectedToken text => s!"unexpected token '{text}'"
  | .expectedToken what got => what.text ++ s!", got '{got}'"
  | .constWithoutInitializer name => s!"constant '{name}' must be initialized"
  | .invalidParameter => "function parameters must be identifiers"
  | .duplicateDeclaration name => s!"cannot declare '{name}': it is already defined in this scope"
  | .undeclaredVariable name => s!"cannot resolve '{name}': it does not exist"
  | .constAssignment name => s!"cannot assign to '{name}': it was declared constant"
  | .typeMismatch expected got =>
    "type mismatch: expected " ++ " or ".intercalate (expected.map ValueType.name) ++
      ", got " ++ got.name
  | .divisionByZero => "division by zero"
  | .memberNotFound key owner => s!"member '{key}' not found on " ++ owner.name
  | .notCallable type => type.name ++ " is not callable"
  | .invalidAssignmentTarget => "invalid assignment target"
  | .arityMismatch name expected got => s!"'{name}' expects {expected} arguments, got {got}"
  | .callDepthExceeded limit => s!"maximum call depth of {limit} exceeded"
  | .consoleFailure reason => s!"console I/O failed: {reason}"

/-- The stage that a fault belongs to. -/
def phase : Fault → Phase
  | .unexpectedCharacter _ | .unterminatedString | .unterminatedComment | .invalidNumber _ => .lexing
  | .unexpectedToken _ | .expectedToken .. | .constWithoutInitializer _ | .invalidParameter => .parsing
  | _ => .running

end Fault

/-- A fault and the place where it arose, if that is known. -/
structure Failure where
  fault : Fault
  span : Option Span
  deriving DecidableEq, Inhabited, Repr

namespace Failure

/-- A failure at a known place. -/
def located (span : Span) (fault : Fault) : Failure := ⟨fault, some span⟩

/-- A failure whose place only the caller knows. -/
def placeless (fault : Fault) : Failure := ⟨fault, none⟩

/-- Adds a place to a failure that has none yet. -/
def orAt (failure : Failure) (span : Span) : Failure :=
  { failure with span := failure.span.or (some span) }

/-- The stage that failed. -/
def phase (failure : Failure) : Phase := failure.fault.phase

/-- The line of a source that a span begins on. -/
def quotedLine? (source : String) (span : Span) : Option String :=
  (textLines source)[span.line - 1]?

/-- The failure as it is reported for a source: its place, stage and message and, if the source has
the line, the line with a caret below. -/
def render (failure : Failure) (source : String) : String :=
  let headline := failure.phase.text ++ ": " ++ failure.fault.message
  match failure.span with
  | none => headline
  | some span =>
    let placed := s!"[line {span.line}:{span.column}] " ++ headline
    match quotedLine? source span with
    | none => placed
    | some line =>
      placed ++ "\n  | " ++ line ++ "\n  | " ++
        String.ofList (List.replicate (span.column - 1) ' ') ++ "^"

end Failure

end Scriptlet
