import Lox.Proofs.Grammar.Yield
import Lox.Proofs.Syntax.ForLoop

namespace Lox

/-!
# Reading a `for` statement

The rule for `for` statements reads the parts of a loop and writes them with `while` at once. Here
the two steps are taken apart. What is read as the body of a loop is a statement and no
declaration, so it binds no name in the scope in which it stands.

* `Grammar.forClauses` — the rule that reads the parts.
* `Grammar.forStatement_eq` — the rule of the grammar reads the same parts.
* `Grammar.yields_statement`, `yields_forClauses` — statements are plain, loops are well formed.
-/

variable {α β : Type}

namespace Grammar

/-! ### The rule -/

/-- What follows `for`, part by part. -/
def forClauses (expression : Rule Expr) (statement : Rule (Stmt Unit)) : Rule (ForLoop Unit) := do
  let _ ← expect Symbol.leftParen .missingOpenOfFor
  let initializer ← forInitializer expression
  let condition ← if ← sees Symbol.semicolon then pure none else some <$> expression
  let _ ← expect Symbol.semicolon .missingEndOfForCondition
  let step ← if ← sees Symbol.rightParen then pure none else some <$> expression
  let _ ← expect Symbol.rightParen .missingCloseOfFor
  return ⟨initializer, condition, step, ← statement⟩

/-- A `for` statement is read by reading its parts. -/
theorem forStatement_eq (expression : Rule Expr) (statement : Rule (Stmt Unit)) :
    forStatement expression statement = ForLoop.desugared <$> forClauses expression statement := by
  -- Behind the condition, whatever it is, both rules do the same.
  have hrest (initializer : Option (Stmt Unit)) (condition : Option Expr) : (do
      let _ ← expect Symbol.semicolon .missingEndOfForCondition
      let step ← if ← sees Symbol.rightParen then pure none else some <$> expression
      let _ ← expect Symbol.rightParen .missingCloseOfFor
      return .forLoop initializer (condition.getD (.constant (.bool true))) step (← statement)) =
      ForLoop.desugared <$> (do
        let _ ← expect Symbol.semicolon .missingEndOfForCondition
        let step ← if ← sees Symbol.rightParen then pure none else some <$> expression
        let _ ← expect Symbol.rightParen .missingCloseOfFor
        return ⟨initializer, condition, step, ← statement⟩ : Rule (ForLoop Unit)) := by
    simp only [map_bind]
    refine bind_congr fun _ => bind_congr fun atEnd => ?_
    cases atEnd with
    | true =>
      simp only [if_true, map_bind, map_pure]
      rfl
    | false =>
      simp only [Bool.false_eq_true, if_false, map_bind, map_pure]
      rfl
  unfold forStatement forClauses
  rw [map_bind]
  refine bind_congr fun _ => ?_
  rw [map_bind]
  refine bind_congr fun initializer => ?_
  rw [map_bind]
  refine bind_congr fun atEnd => ?_
  cases atEnd with
  | true =>
    simp only [if_true, pure_bind]
    exact hrest initializer none
  | false =>
    simp only [Bool.false_eq_true, if_false]
    rw [bind_map_left, map_bind]
    exact bind_congr fun condition => hrest initializer (some condition)

/-! ### What the rules yield -/

variable {expression : Rule Expr} {statement : Rule (Stmt Unit)}
  {block : Rule (List (Stmt Unit))}

/-- An expression statement is plain, and may be the initializer of a loop. -/
theorem yields_expressionStatement :
    Yields (fun s => s.isClause ∧ s.isPlain) (expressionStatement expression) :=
  .after fun _ => .after fun _ => .pure ⟨rfl, rfl⟩

/-- A declaration of a variable may be the initializer of a loop. -/
theorem yields_variableDeclaration :
    Yields (fun s => s.isClause) (variableDeclaration expression) :=
  .after fun _ => .after fun _ => .join fun _ => .after fun _ => .pure rfl

/-- An initializer that is there is a declaration of a variable or an expression. -/
theorem yields_forInitializer :
    Yields (fun initializer : Option (Stmt Unit) => ∀ s ∈ initializer, s.isClause)
      (forInitializer expression) := by
  refine .after fun token => ?_
  split
  · exact .after fun _ => .pure fun s hs => absurd hs (Option.not_mem_none s)
  · exact .after fun _ => yields_variableDeclaration.some
  · exact (yields_expressionStatement.mono fun _ => And.left).some

/-- A loop is read with an initializer that is one and, if statements are plain, with a plain
    body. -/
theorem yields_forClauses (hstatement : Yields (fun s => s.isPlain) statement) :
    Yields ForLoop.IsWellFormed (forClauses expression statement) := by
  refine .after fun _ => .bind yields_forInitializer fun initializer hinitializer => ?_
  refine .after fun _ => .join fun condition => .after fun _ => .after fun _ => ?_
  exact .join fun step => .after fun _ => .bind hstatement fun body hbody =>
    .pure ⟨hinitializer, hbody⟩

/-- A `for` statement is plain if the body of its loop is. -/
theorem yields_forStatement (hstatement : Yields (fun s => s.isPlain) statement) :
    Yields (fun s => s.isPlain) (forStatement expression statement) := by
  rw [forStatement_eq]
  exact (yields_forClauses hstatement).map fun _ => ForLoop.isPlain_desugared

/-- A `return` statement is plain, also where it is an error. -/
theorem yields_returnStatement (keyword : Token) :
    Yields (fun s => s.isPlain) (returnStatement expression keyword) := by
  have hrest : Yields (fun s : Stmt Unit => s.isPlain) (do
      let value ← if ← sees Symbol.semicolon then pure .nil else expression
      let _ ← expect Symbol.semicolon .missingEndOfReturn
      return .return keyword value) :=
    .after fun _ => .join fun value => .after fun _ => .pure rfl
  -- An error is recorded outside of functions, and the rest is read in any case.
  exact .after fun s => .ite (.after fun _ => hrest) hrest

/-- Statements are plain, if those inside them are. -/
theorem yields_anyStatement (hstatement : Yields (fun s => s.isPlain) statement) :
    Yields (fun s => s.isPlain) (anyStatement expression statement block) := by
  refine .after fun token => ?_
  split
  · exact .after fun _ => .after fun _ => .after fun _ => .pure rfl
  · exact .after fun _ => .after fun _ => .pure rfl
  · refine .after fun _ => .after fun _ => .after fun condition => .after fun _ => ?_
    refine .bind hstatement fun yes hyes => .after fun hasElse => .ite ?_ (.pure hyes)
    exact .bind hstatement fun no hno => .pure (Bool.and_eq_true_iff.2 ⟨hyes, hno⟩)
  · refine .after fun _ => .after fun _ => .after fun condition => .after fun _ => ?_
    exact .bind hstatement fun body hbody => .pure hbody
  · exact .after fun _ => yields_forStatement hstatement
  · exact .after fun keyword => yields_returnStatement keyword
  · exact yields_expressionStatement.mono fun _ => And.right

/-- **A statement binds no name where it stands.** Only declarations do, and they are not
    statements. -/
theorem yields_statement (free : Nat) : Yields (fun s => s.isPlain) (Grammar.statement free) := by
  induction free with
  | zero => exact .failHere _
  | succ free ih => exact (yields_anyStatement ih).nested

end Grammar

end Lox
