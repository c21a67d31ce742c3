import Lox.Evaluation
import Lox.Proofs.Evaluation.Following

namespace Lox

/-!
# The moments of a run

A run shows its result only. What goes on inside it is told by its moments: the values that arise,
in the order in which they do, and the calls of functions, each with the calls inside whose bodies
it is made. The moments are computed along with the run and with the same fuel; if the run fails or
wants for fuel, they are those up to there.

* `Call`, `Moment` — a call with its arguments; a value that arises or a call that is made.
* `evaluateMoments`, `executeMoments`, …, `executeAllMoments` — the moments of runs.
-/

/-- A call of a function. The token is the parenthesis that closes the arguments. -/
structure Call where
  function : Function
  paren : Token
  arguments : List Value

/-- A point of a run. -/
inductive Moment
  /-- An expression has been evaluated or a function has been declared, and this is its value. -/
  | value (value : Value)
  /-- A function is about to be called with as many arguments as it takes, if there is room for
      one more call. The calls that are open are those in whose bodies this happens, the innermost
      one first. -/
  | call (opened : List Call) (call : Call) (machine : Machine)

/-- The value with which an evaluation ends arises. -/
def Moment.arising (x : EStateM.Result Stop Machine Value) : List Moment :=
  Run.behind x fun value _ => [.value value]

open Moment (arising)
open Run (behind)

mutual

/-- The moments of the evaluation of an expression. The last one is its value. -/
def evaluateMoments (settings : Settings) :
    (fuel : Nat) → (opened : List Call) → Expr → Machine → List Moment
  | 0, _, _, _ => []
  | fuel + 1, opened, e, m =>
    (match e with
      | .constant _ | .name _ => []
      | .group e | .assign _ e | .unary _ e => evaluateMoments settings fuel opened e m
      | .binary l _ r =>
        evaluateMoments settings fuel opened l m ++ behind (evaluate settings fuel l m) fun _ m =>
          evaluateMoments settings fuel opened r m
      | .logical l op r =>
        evaluateMoments settings fuel opened l m ++
          behind (evaluate settings fuel l m) fun left m =>
            if left.decides? op = some false then evaluateMoments settings fuel opened r m else []
      | .call callee paren arguments =>
        evaluateMoments settings fuel opened callee m ++
          behind (evaluate settings fuel callee m) fun callee m =>
            evaluateAllMoments settings fuel opened arguments m ++
              behind (evaluateAll settings fuel arguments m) fun arguments m =>
                callMoments settings fuel opened callee paren arguments m) ++
      arising (evaluate settings (fuel + 1) e m)

/-- The moments of the evaluation of several expressions. -/
def evaluateAllMoments (settings : Settings) :
    (fuel : Nat) → (opened : List Call) → List Expr → Machine → List Moment
  | 0, _, _, _ => []
  | _ + 1, _, [], _ => []
  | fuel + 1, opened, e :: es, m =>
    evaluateMoments settings fuel opened e m ++ behind (evaluate settings fuel e m) fun _ m =>
      evaluateAllMoments settings fuel opened es m

/-- The moments of a call with evaluated arguments. The body is executed inside the call. -/
def callMoments (settings : Settings) :
    (fuel : Nat) → (opened : List Call) → (callee : Value) → (paren : Token) → List Value →
      Machine → List Moment
  | 0, _, _, _, _, _ => []
  | fuel + 1, opened, .callable (.function f), paren, arguments, m =>
    if arguments.length ≠ f.parameters.length then []
    else
      -- A call that is refused for want of room is a moment, too.
      .call opened ⟨f, paren, arguments⟩ m ::
        if settings.callLimit ≤ m.depth then []
        else
          behind (Run.defineAll f.parameters arguments
              { m with env := m.env.push, depth := m.depth + 1 }) fun _ m =>
            executeBlockMoments settings fuel (⟨f, paren, arguments⟩ :: opened) f.body m
  | _ + 1, _, _, _, _, _ => []

/-- The moments of the execution of a statement. -/
def executeMoments (settings : Settings) :
    (fuel : Nat) → (opened : List Call) → Stmt Nat → Machine → List Moment
  | 0, _, _, _ => []
  | fuel + 1, opened, .expression e, m | fuel + 1, opened, .print _ e, m
  | fuel + 1, opened, .variable _ e, m | fuel + 1, opened, .return _ e, m =>
    evaluateMoments settings fuel opened e m
  -- The function is made here, where it is declared.
  | _ + 1, _, .function id name parameters body, _ =>
    [.value (.callable (.function ⟨id, name, parameters, body⟩))]
  | fuel + 1, opened, .block body, m =>
    executeBlockMoments settings fuel opened body { m with env := m.env.push }
  | fuel + 1, opened, .ifThen condition yes, m =>
    evaluateMoments settings fuel opened condition m ++
      behind (evaluate settings fuel condition m) fun value m =>
        if value.isTruthy then executeMoments settings fuel opened yes m else []
  | fuel + 1, opened, .ifElse condition yes no, m =>
    evaluateMoments settings fuel opened condition m ++
      behind (evaluate settings fuel condition m) fun value m =>
        if value.isTruthy then executeMoments settings fuel opened yes m
        else executeMoments settings fuel opened no m
  | fuel + 1, opened, .while condition body, m =>
    loopMoments settings fuel opened condition body m

/-- The moments of the execution of statements as a block. -/
def executeBlockMoments (settings : Settings) :
    (fuel : Nat) → (opened : List Call) → List (Stmt Nat) → Machine → List Moment
  | 0, _, _, _ => []
  | _ + 1, _, [], _ => []
  | fuel + 1, opened, s :: rest, m =>
    executeMoments settings fuel opened s m ++ behind (execute settings fuel s m) fun flow m =>
      match flow with
      | .return _ => []
      | .normal => executeBlockMoments settings fuel opened rest m

/-- The moments of the execution of a loop. -/
def loopMoments (settings : Settings) :
    (fuel : Nat) → (opened : List Call) → (condition : Expr) → (body : Stmt Nat) → Machine →
      List Moment
  | 0, _, _, _, _ => []
  | fuel + 1, opened, condition, body, m =>
    evaluateMoments settings fuel opened condition m ++
      behind (evaluate settings fuel condition m) fun value m =>
        if value.isTruthy then
          executeMoments settings fuel opened body m ++
            behind (execute settings fuel body m) fun flow m =>
              match flow with
              | .return _ => []
              | .normal => loopMoments settings fuel opened condition body m
        else []

end

/-- The moments of the execution of statements at the top level. -/
def executeAllMoments (settings : Settings) (fuel : Nat) (opened : List Call) :
    List (Stmt Nat) → Machine → List Moment
  | [], _ => []
  | s :: rest, m =>
    executeMoments settings fuel opened s m ++ behind (execute settings fuel s m) fun _ m =>
      executeAllMoments settings fuel opened rest m

end Lox
