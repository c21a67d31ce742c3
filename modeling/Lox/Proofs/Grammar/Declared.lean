import Lox.Proofs.Grammar.ForLoop
import Lox.Proofs.Syntax.Declared

namespace Lox

/-!
# Where declarations stand

The rules for statements never read a declaration as a branch of an `if` or as the body of a loop.
So in whatever the parser returns, at any depth and also if there were errors, names are bound by
declarations only.

* `Grammar.yields_orderly_statement_block` — what the rules read is orderly.
* `isOrderly_of_mem_parse` — so is every statement of a program.
* `boundNames_of_mem_partsAll_parse` — at any depth, statements bind what they declare.
-/

namespace Grammar

variable {expression : Rule Expr} {statement : Rule (Stmt Unit)}
  {block : Rule (List (Stmt Unit))}

/-! ### Declarations -/

/-- A declaration of a function is orderly, if the statements of its body are. -/
theorem yields_functionDeclaration (hblock : Yields (fun body => ∀ s ∈ body, s.IsOrderly) block) :
    Yields Stmt.IsOrderly (functionDeclaration block) :=
  .after fun _ => .after fun _ => .after fun _ => .after fun _ => .after fun _ =>
    .bind hblock.inFunction fun _ hbody => .pure (Stmt.isOrderly_function.2 hbody)

/-- A declaration that is not malformed is orderly. -/
theorem isOrderly_declaration (hstatement : Yields Stmt.IsOrderly statement)
    (hblock : Yields (fun body => ∀ s ∈ body, s.IsOrderly) block) (s : State) :
    ∀ stmt ∈ (declaration expression statement block s).1, stmt.IsOrderly := by
  refine YieldsIn.forall_mem_recovering (I := Anywhere) (.after fun token => ?_) trivial
  split
  · exact .after fun _ => yields_variableDeclaration.mono fun _ => Stmt.isOrderly_of_isClause
  · exact .after fun _ => yields_functionDeclaration hblock
  · exact hstatement

/-! ### Statements -/

/-- A `for` statement is orderly, if the body of its loop is plain and orderly. -/
theorem yields_orderly_forStatement
    (hstatement : Yields (fun s => s.isPlain ∧ s.IsOrderly) statement) :
    Yields Stmt.IsOrderly (forStatement expression statement) := by
  have hbody : Yields (fun l => l.body.IsOrderly) (forClauses expression statement) := by
    refine .after fun _ => .after fun _ => .after fun _ => .join fun _ => .after fun _ => ?_
    exact .after fun _ => .join fun _ => .after fun _ => .bind hstatement fun _ hbody =>
      .pure hbody.2
  have hwell : Yields ForLoop.IsWellFormed (forClauses expression statement) :=
    yields_forClauses (hstatement.mono fun _ => And.left)
  rw [forStatement_eq]
  exact (hwell.and hbody).map fun _ hl => ForLoop.isOrderly_desugared hl.1 hl.2

/-- A plain statement with no others inside is orderly. -/
theorem isOrderly_leaf {s : Stmt Unit} (h : s.parts = [s]) (hplain : s.isPlain) : s.IsOrderly := by
  intro p hp
  rw [h] at hp
  obtain rfl := List.mem_singleton.1 hp
  rw [Stmt.boundNames_of_isPlain hplain, Stmt.declared?_of_isPlain hplain, Option.toList_none]

/-- A `return` statement is orderly. -/
theorem yields_orderly_returnStatement (keyword : Token) :
    Yields Stmt.IsOrderly (returnStatement expression keyword) := by
  have hrest : Yields Stmt.IsOrderly (do
      let value ← if ← sees Symbol.semicolon then pure .nil else expression
      let _ ← expect Symbol.semicolon .missingEndOfReturn
      return .return keyword value) :=
    .after fun _ => .join fun _ => .after fun _ => .pure (isOrderly_leaf rfl rfl)
  exact .after fun _ => .ite (.after fun _ => hrest) hrest

/-- Statements are orderly, if those inside them are. -/
theorem yields_orderly_anyStatement
    (hstatement : Yields (fun s => s.isPlain ∧ s.IsOrderly) statement)
    (hblock : Yields (fun body => ∀ s ∈ body, s.IsOrderly) block) :
    Yields Stmt.IsOrderly (anyStatement expression statement block) := by
  refine .after fun token => ?_
  split
  · exact .after fun _ => .after fun _ => .after fun _ => .pure (isOrderly_leaf rfl rfl)
  · exact .after fun _ => .bind hblock fun _ hbody => .pure (Stmt.isOrderly_block.2 hbody)
  · refine .after fun _ => .after fun _ => .after fun _ => .after fun _ => ?_
    refine .bind hstatement fun yes hyes => .after fun _ => ?_
    -- A branch is a statement, and those bind no names where they stand.
    have hyesbound := Stmt.boundNames_of_isPlain hyes.1
    refine .ite ?_ (.pure (Stmt.isOrderly_ifThen.2 ⟨hyesbound, hyes.2⟩))
    exact .bind hstatement fun no hno => .pure <|
      Stmt.isOrderly_ifElse.2 ⟨⟨hyesbound, Stmt.boundNames_of_isPlain hno.1⟩, hyes.2, hno.2⟩
  · refine .after fun _ => .after fun _ => .after fun _ => .after fun _ => ?_
    exact .bind hstatement fun body hbody => .pure <|
      Stmt.isOrderly_while.2 ⟨Stmt.boundNames_of_isPlain hbody.1, hbody.2⟩
  · exact .after fun _ => yields_orderly_forStatement hstatement
  · exact .after fun keyword => yields_orderly_returnStatement keyword
  · exact yields_expressionStatement.mono fun _ h => Stmt.isOrderly_of_isClause h.1

/-- What the rules read as a statement or as a block is orderly. -/
theorem yields_orderly_statement_block (free : Nat) :
    Yields Stmt.IsOrderly (Grammar.statement free) ∧
      Yields (fun body => ∀ s ∈ body, s.IsOrderly) (Grammar.block free) := by
  induction free with
  | zero => exact ⟨.failHere _, .failHere _⟩
  | succ free ih =>
    exact ⟨(yields_orderly_anyStatement ((yields_statement free).and ih.1) ih.2).nested,
      .nested (yields_blockContents (fun _ => id) fun s _ => isOrderly_declaration ih.1 ih.2 s)⟩

end Grammar

open Grammar

/-- Every statement of a program is orderly, whatever errors there are beside it. -/
theorem isOrderly_of_mem_parse (tokens : List Token) :
    ∀ s ∈ (parse tokens).1, s.IsOrderly := by
  obtain ⟨hstatement, hblock⟩ := yields_orderly_statement_block maxNesting
  have hdeclaration (s : State) : ∀ stmt ∈ (declaration (expression maxNesting)
      (statement maxNesting) (block maxNesting) s).1, stmt.IsOrderly :=
    isOrderly_declaration hstatement hblock s
  intro s hs
  rw [parse] at hs
  exact forall_mem_declarations hdeclaration (fun _ => false) _ _ s hs

/-- In a program whose functions have been numbered, every statement at any depth binds the names
    that it declares and no others. -/
theorem boundNames_of_mem_partsAll_parse (tokens : List Token) (next : Nat) :
    ∀ s ∈ Stmt.partsAll (Stmt.numberAll next (parse tokens).1).1,
      s.boundNames = s.declared?.toList :=
  Stmt.forall_mem_partsAll.2
    (Stmt.areOrderly_numberAll (parse tokens).1 (isOrderly_of_mem_parse tokens) next)

end Lox
