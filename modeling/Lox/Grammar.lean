import Lox.Grammar.Statement

namespace Lox

/-!
# Parsing

Programs and single expressions from lists of tokens. The list need not end with the end token,
and what follows an end token is not looked at.

* `parse` — the statements of a program that are well formed, and all errors.
* `parseExpression` — an expression that takes up all tokens, or all errors.
-/

open Grammar

/-- The statements of a program that are well formed, in order, and all its errors. -/
def parse (tokens : List Token) : List (Stmt Unit) × List SyntaxError :=
  let s := State.start tokens
  let declaration :=
    declaration (expression maxNesting) (statement maxNesting) (block maxNesting)
  match declarations declaration (fun _ => false) s.remaining s with
  | (program, s) => (program, s.errors.toList)

/-- The one expression that the tokens make up, or all errors. An error that ends the reading
    comes last. -/
def parseExpression (tokens : List Token) : Except (List SyntaxError) Expr :=
  match expression maxNesting (State.start tokens) with
  | .error e s => .error (s.record e).errors.toList
  | .ok e s =>
    let s := if s.atEnd then s else s.record ⟨s.current, .missingEndOfExpression⟩
    if s.errors.isEmpty then .ok e else .error s.errors.toList

end Lox
