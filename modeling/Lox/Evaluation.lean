import Lox.Evaluation.Machine
import Lox.Evaluation.Operator

namespace Lox

/-!
# Evaluation

Expressions are evaluated and statements executed on a machine. Loops and calls need not end, so
each step takes one unit of fuel and hands the rest of it on to the steps inside: the fuel bounds
how deeply steps nest, where each turn of a loop counts as nested in the one before.

Scope is dynamic: the body of a function runs in a scope inside that of the caller.

* `evaluate`, `execute` — expressions and statements.
* `executeBlock`, `executeAll` — statements in the current scope, up to a `return`, and at the top
  level, where a `return` ends its own statement only.
-/

/-- How a statement ends that does not fail. -/
inductive Flow
  | normal
  /-- A `return` with a value is on its way to the call that it ends. -/
  | return (value : Value)

/-- The value of a call, by how the body ended: without a `return`, `nil`. -/
def Flow.result : Flow → Value
  | .normal => .nil
  | .return value => value

/-- A call of a native function with as many arguments as it takes. -/
def callNative (settings : Settings) (n : Native) (paren : Token) (arguments : List Value) :
    Run Value :=
  match n, arguments with
  | .clock, _ => do
    let seconds ← Run.readClock settings
    Run.ofExcept (Value.reading paren seconds)
  | .sleep, [.number seconds] =>
    if Value.isPause seconds then do
      Run.pause seconds
      return .number seconds
    else Run.fail ⟨paren, .native .sleep⟩
  | .sqrt, [.number x] => return .number x.sqrt
  | n, _ => Run.fail ⟨paren, .native n⟩

mutual

/-- The value of an expression. Operands and arguments are evaluated from left to right, what is
    called before its arguments. -/
def evaluate (settings : Settings) : (fuel : Nat) → Expr → Run Value
  | 0, _ => Run.exhausted
  | _ + 1, .constant c => return .ofConstant c
  | fuel + 1, .group e => evaluate settings fuel e
  | _ + 1, .name name => Run.get name
  | fuel + 1, .assign name e => do
    let value ← evaluate settings fuel e
    Run.assign name value
    return value
  | fuel + 1, .unary op e => do
    let operand ← evaluate settings fuel e
    Run.ofExcept (Value.unary op operand)
  | fuel + 1, .binary l op r => do
    let left ← evaluate settings fuel l
    let right ← evaluate settings fuel r
    Run.ofExcept (Value.binary op left right)
  | fuel + 1, .logical l op r => do
    let left ← evaluate settings fuel l
    match left.decides? op with
    | none => Run.fail (Value.invalidOperator op)
    | some true => return left
    | some false => evaluate settings fuel r
  | fuel + 1, .call callee paren arguments => do
    let callee ← evaluate settings fuel callee
    let arguments ← evaluateAll settings fuel arguments
    call settings fuel callee paren arguments

/-- The values of a list of expressions. -/
def evaluateAll (settings : Settings) : (fuel : Nat) → List Expr → Run (List Value)
  | 0, _ => Run.exhausted
  | _ + 1, [] => return []
  | fuel + 1, e :: es => do
    let value ← evaluate settings fuel e
    let values ← evaluateAll settings fuel es
    return value :: values

/-- The value of a call with evaluated arguments. Errors are attributed to the parenthesis that
    closes the arguments. -/
def call (settings : Settings) :
    (fuel : Nat) → (callee : Value) → (paren : Token) → List Value → Run Value
  | 0, _, _, _ => Run.exhausted
  | fuel + 1, .callable callee, paren, arguments =>
    if arguments.length ≠ callee.arity then
      Run.fail ⟨paren, .arity callee.arity arguments.length⟩
    else
      match callee with
      | .native n => callNative settings n paren arguments
      | .function f => do
        if settings.callLimit ≤ (← get).depth then
          Run.fail ⟨paren, .stackOverflow⟩
        else
          let flow ← Run.inCall <| Run.inNewFrame do
            Run.defineAll f.parameters arguments
            executeBlock settings fuel f.body
          return flow.result
  | _ + 1, _, paren, _ => Run.fail ⟨paren, .notCallable⟩

/-- Executes a statement. -/
def execute (settings : Settings) : (fuel : Nat) → Stmt Nat → Run Flow
  | 0, _ => Run.exhausted
  | fuel + 1, .expression e => do
    let _ ← evaluate settings fuel e
    return .normal
  | fuel + 1, .print keyword e => do
    let value ← evaluate settings fuel e
    Run.print keyword value
    return .normal
  | fuel + 1, .variable name e => do
    let value ← evaluate settings fuel e
    Run.define name value
    return .normal
  | _ + 1, .function id name parameters body => do
    Run.define name (.callable (.function ⟨id, name, parameters, body⟩))
    return .normal
  | fuel + 1, .block body => Run.inNewFrame (executeBlock settings fuel body)
  | fuel + 1, .ifThen condition yes => do
    let value ← evaluate settings fuel condition
    if value.isTruthy then execute settings fuel yes else return .normal
  | fuel + 1, .ifElse condition yes no => do
    let value ← evaluate settings fuel condition
    if value.isTruthy then execute settings fuel yes else execute settings fuel no
  | fuel + 1, .while condition body => loop settings fuel condition body
  | fuel + 1, .return _ e => do
    let value ← evaluate settings fuel e
    return .return value

/-- Executes statements in the current scope until one of them returns. -/
def executeBlock (settings : Settings) : (fuel : Nat) → List (Stmt Nat) → Run Flow
  | 0, _ => Run.exhausted
  | _ + 1, [] => return .normal
  | fuel + 1, s :: rest => do
    match ← execute settings fuel s with
    | .return value => return .return value
    | .normal => executeBlock settings fuel rest

/-- Executes the body of a loop as long as the condition holds and the body does not return. -/
def loop (settings : Settings) : (fuel : Nat) → (condition : Expr) → (body : Stmt Nat) → Run Flow
  | 0, _, _ => Run.exhausted
  | fuel + 1, condition, body => do
    let value ← evaluate settings fuel condition
    if value.isTruthy then
      match ← execute settings fuel body with
      | .return value => return .return value
      | .normal => loop settings fuel condition body
    else
      return .normal

end

/-- Executes statements at the top level, one after the other. A `return` among them has no call
    to end; the next statement is executed all the same. -/
def executeAll (settings : Settings) (fuel : Nat) : List (Stmt Nat) → Run Unit
  | [] => return ()
  | s :: rest => do
    let _ ← execute settings fuel s
    executeAll settings fuel rest

end Lox
