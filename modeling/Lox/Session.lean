import Lox.Evaluation
import Lox.Grammar
import Lox.Token.Cursor

namespace Lox

/-!
# Sessions

A session runs one program text after the other. Bindings last from one text to the next. A text
with syntax errors is not run at all; a run-time error ends the run of its own text, and what was
done before it stays done.

* `Session.load` — numbers the functions of a program, so that it can be executed.
* `Session.run` — runs a program text.
* `Failure` — why a text was not run, or not to its end.
-/

/-- Why a program text was not run to its end. -/
inductive Failure
  /-- The text has syntax errors. Nothing was executed. -/
  | syntactic (errors : List SyntaxError)
  | runtime (error : RuntimeError)

namespace Failure

/-- One report for each error, in the order in which they were recorded. -/
def reports : Failure → List Report
  | .syntactic errors => errors.map SyntaxError.report
  | .runtime e => [e.report]

/-- The reports, one on a line. -/
def text (f : Failure) : String := "\n".intercalate (f.reports.map Report.text)

end Failure

/-- How running a program text ended. -/
inductive Outcome
  | finished
  | failed (failure : Failure)
  | outOfFuel

/-- A session between two program texts. -/
structure Session where
  machine : Machine := {}
  /-- The number that the next declaration of a function gets. -/
  nextFunction : Nat := 0

namespace Session

/-- More fuel than a run can use up in any time at hand. -/
def ample : Nat := Nat.pow 2 60

/-- The value of a variable between two runs. -/
def lookup (s : Session) (name : String) : Option Value := s.machine.env.lookup name

/-- Gives the functions declared in a program numbers that no function of the session has yet. -/
def load {ι : Type} (s : Session) (program : List (Stmt ι)) : List (Stmt Nat) × Session :=
  match Stmt.numberAll s.nextFunction program with
  | (program, nextFunction) => (program, { s with nextFunction })

/-- Performs a computation on the machine of the session. -/
def perform {α : Type} (s : Session) (run : Run α) : Except Stop α × Session :=
  match run s.machine with
  | .ok a machine => (.ok a, { s with machine })
  | .error stop machine => (.error stop, { s with machine })

/-- Executes a loaded program, in a run of its own. -/
def execute (settings : Settings) (fuel : Nat) (s : Session) (program : List (Stmt Nat)) :
    Outcome × Session :=
  match s.perform (Run.anew (executeAll settings fuel program)) with
  | (.ok (), s) => (.finished, s)
  | (.error (.failed e), s) => (.failed (.runtime e), s)
  | (.error .outOfFuel, s) => (.outOfFuel, s)

/-- Runs a program text. -/
def run (settings : Settings) (fuel : Nat) (s : Session) (source : String) : Outcome × Session :=
  match parse (scan source) with
  | (program, []) =>
    match s.load program with
    | (program, s) => s.execute settings fuel program
  | (_, errors) => (.failed (.syntactic errors), s)

/-- Takes out what has been printed since the last time. -/
def drain (s : Session) : ByteArray × Session :=
  match s.machine.output.drain with
  | (bytes, output) => (bytes, { s with machine := { s.machine with output } })

end Session

end Lox
