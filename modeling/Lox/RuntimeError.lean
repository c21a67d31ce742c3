import Lox.Diagnostic
import Lox.Value

namespace Lox

/-!
# Run-time errors

What can go wrong while a program runs. As for syntax errors, causes are kept apart from their
wording, and an error names the token it is attributed to.

* `RuntimeError.Cause` — the causes.
* `RuntimeError.report` — how an error is shown.
-/

namespace RuntimeError

/-- What went wrong. -/
inductive Cause
  | operandMustBeNumber
  | operandsMustBeNumbers
  | operandsMustBeNumbersOrStrings
  | undefinedVariable (name : String)
  | notCallable
  | arity (expected given : Nat)
  /-- A native function failed: the clock could not be read, or an argument was refused. -/
  | native (native : Native)
  | stackOverflow
  /-- An operator stands in an expression in which it has no meaning. -/
  | invalidOperator (lexeme : String)
  /-- The output was not accepted. -/
  | output (reason : String)
deriving DecidableEq, Repr

/-- What a native function says when it fails. Each has one way to do so: the clock shows no time
    before the epoch, and the others refuse their argument. -/
def refusal (n : Native) : String :=
  "'" ++ n.name ++ "' " ++
    (match n with
      | .clock => "failed: second time provided was later than self"
      | .sleep => "expected argument to be a non-negative number."
      | .sqrt => "expected argument to be a number.")

/-- The wording of a cause. -/
def Cause.message : Cause → String
  | .operandMustBeNumber => "operand must be a number."
  | .operandsMustBeNumbers => "operands must be numbers."
  | .operandsMustBeNumbersOrStrings => "Operands must be two numbers or two strings."
  | .undefinedVariable name => "Undefined variable '" ++ name ++ "'."
  | .notCallable => "Can only call functions and classes"
  | .arity expected given =>
    "Expected " ++ toString expected ++ " arguments but got " ++ toString given ++ "."
  | .native n => refusal n
  | .stackOverflow => "Stack overflow."
  | .invalidOperator lexeme => "Invalid operator '" ++ lexeme ++ "'."
  | .output reason => "I/O error: " ++ reason

end RuntimeError

/-- A run-time error: its cause and the token it is attributed to. -/
structure RuntimeError where
  token : Token
  cause : RuntimeError.Cause

namespace RuntimeError

/-- The wording of an error. -/
def message (e : RuntimeError) : String := e.cause.message

/-- How an error is shown to the user. -/
def report (e : RuntimeError) : Report := Report.about e.token e.message

end RuntimeError

end Lox
