import Scriptlet.Evaluation.Call
import Scriptlet.Value.Operation

/-!
# Evaluating programs

Expressions are evaluated and statements executed in a scope. Blocks run in the scope they are given;
only calls open a new one. Operands, arguments and properties are evaluated once each, from left to
right, also by the logical operators; what has been evaluated is held on to while the rest is.

`evaluate` and `execute` take a bound on the nesting of evaluations, calls included, which also
bounds the rounds of each loop. A computation that ends well or fails within some bound does the same
within every larger one.
-/

namespace Scriptlet.Eval

/-! ## Lists of expressions and statements -/

/-- Evaluates arguments in order, holding on to those before. -/
def arguments (evaluate : Expr → Eval Value) (before : List Value) : List Expr → Eval (List Value)
  | [] => return before
  | arg :: rest => do
    let value ← holding (before.map .value) (evaluate arg)
    arguments evaluate (before ++ [value]) rest

/-- Evaluates the properties of an object literal in order, holding on to those before. A key
without an expression reads the variable of its name. -/
def properties (evaluate : Expr → Eval Value) (scope : ScopeId) (span : Span)
    (before : Record Value) : List (String × Option Expr) → Eval (Record Value)
  | [] => return before
  | (key, some expr) :: rest => do
    let value ← holding (before.map (.value ·.2)) (evaluate expr)
    properties evaluate scope span (Record.put key value before) rest
  | (key, none) :: rest => do
    let value ← located span (lookup scope key)
    properties evaluate scope span (Record.put key value before) rest

/-- Executes statements in order; the result is that of the last one. The result of a statement is
held on to while the next one is executed. -/
def sequence (execute : Stmt → Eval Value) (last : Value) : List Stmt → Eval Value
  | [] => return last
  | stmt :: rest => do
    let value ← holding [.value last] (execute stmt)
    sequence execute value rest

/-- Declares variables in order; one without an expression is null. -/
def declarators (evaluate : Expr → Eval Value) (scope : ScopeId) (constant : Bool) :
    List Declarator → Eval Unit
  | [] => return ()
  | declarator :: rest => do
    let value ← match declarator.init with
      | some expr => evaluate expr
      | none => pure .null
    located declarator.span (declare scope declarator.name value constant)
    declarators evaluate scope constant rest

/-- Repeats a body as long as a condition holds, for at most so many rounds. -/
def repeatWhile (condition : Eval Bool) (body : Eval Unit) : Nat → Eval Unit
  | 0 => throw .outOfSteps
  | rounds + 1 => do
    if ← condition then
      body
      repeatWhile condition body rounds

/-! ## Expressions and statements -/

mutual

/-- Evaluates an expression in a scope. -/
def evaluate : Nat → Expr → ScopeId → Eval Value
  | 0, _, _ => throw .outOfSteps
  | steps + 1, expr, scope =>
    match expr with
    | .identifier name span => located span (lookup scope name)
    | .number value _ => return .number value
    | .text value _ => return .text value
    | .null _ => return .null
    | .object literal span => do
      let fields ← properties (evaluate steps · scope) scope span [] literal
      return .object (← freshId) fields
    | .assignment (.identifier name _) expr span => do
      let value ← evaluate steps expr scope
      located span (assign scope name value)
      return value
    | .assignment _ _ span => located span (fail .invalidAssignmentTarget)
    | .binary left op right span => do
      let left ← evaluate steps left scope
      let right ← holding [.value left] (evaluate steps right scope)
      located span (ofExcept (left.binary op right))
    | .unary op operand span => do
      let operand ← evaluate steps operand scope
      located span (ofExcept (Value.unary op operand))
    | .logical left op right _ => do
      let left ← evaluate steps left scope
      let right ← holding [.value left] (evaluate steps right scope)
      return Value.logical op left right
    | .member object (.identifier name _) false span => do
      let object ← evaluate steps object scope
      located span (ofExcept (object.member name))
    | .member object property _ span => do
      let object ← evaluate steps object scope
      let value ← holding [.value object] (evaluate steps property scope)
      let key ← located property.span (ofExcept value.memberKey)
      located span (ofExcept (object.member key))
    | .call callee args span => do
      let callee ← evaluate steps callee scope
      holding [.value callee] do
        let args ← arguments (evaluate steps · scope) [] args
        located span (call (executeBlock steps) callee args)

/-- Executes a statement in a scope. Declarations and loops are null, and so is a conditional none
of whose bodies is taken. -/
def execute : Nat → Stmt → ScopeId → Eval Value
  | 0, _, _ => throw .outOfSteps
  | steps + 1, stmt, scope =>
    match stmt with
    | .declaration declared _ constant _ => do
      declarators (evaluate steps · scope) scope constant declared
      return .null
    | .function name params body span => do
      let f := Value.function ⟨← freshId, name, params, body, scope⟩
      located span (declare scope name f true)
      return .null
    | .conditional condition consequent alternate _ => do
      if (← evaluate steps condition scope).isTruthy then executeBlock steps consequent scope
      else
        match alternate with
        | some alternate => execute steps alternate scope
        | none => return .null
    | .loop condition body _ => do
      repeatWhile (Value.isTruthy <$> evaluate steps condition scope)
        (discard (executeBlock steps body scope)) steps
      return .null
    | .block block => executeBlock steps block scope
    | .expression expr => evaluate steps expr scope

/-- Executes a body in a scope; an empty one is null. -/
def executeBlock : Nat → Block Stmt → ScopeId → Eval Value
  | 0, _, _ => throw .outOfSteps
  | steps + 1, block, scope => sequence (execute steps · scope) .null block.body

end

/-- Executes a program in a scope; an empty one is null. -/
def program (steps : Nat) (program : Program) (scope : ScopeId) : Eval Value :=
  sequence (execute steps · scope) .null program

end Scriptlet.Eval
