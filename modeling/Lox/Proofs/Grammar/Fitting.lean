import Lox.Proofs.Grammar.Declared
import Lox.Proofs.Syntax.Place

namespace Lox

/-!
# What is read has fitting tokens

The rules put a token into a tree only where a token of its kind belongs. This does not depend on
spellings, nor on whether there are errors: what is kept of a malformed program is well formed.

* `Expr.IsFitting`, `Stmt.IsFitting` — each token in a tree fits its place.
* `Grammar.fitting_expression`, `fitting_statement_block` — what the rules read is fitting.
* `isFitting_of_mem_parse` — so is every statement of a program.
-/

/-- Each token in the expression has a kind that fits its place. -/
def Expr.IsFitting (e : Expr) : Prop := ∀ p ∈ e.places, p.1.fits p.2.kind = true

/-- Each token in the statement has a kind that fits its place. -/
def Stmt.IsFitting {ι : Type} (s : Stmt ι) : Prop := ∀ p ∈ s.places, p.1.fits p.2.kind = true

variable {α β : Type}

/-- There is no token in a constant. -/
theorem Expr.isFitting_constant (c : Constant) : (Expr.constant c).IsFitting :=
  fun _ hp => absurd hp List.not_mem_nil

/-- The tokens of a list of expressions are those of its items. -/
theorem Expr.forall_mem_placesAll {es : List Expr} :
    (∀ p ∈ Expr.placesAll es, p.1.fits p.2.kind = true) ↔ ∀ e ∈ es, e.IsFitting := by
  simp only [mem_placesAll, IsFitting]
  exact ⟨fun h e he p hp => h p ⟨e, he, hp⟩, fun h p ⟨e, he, hp⟩ => h e he p hp⟩

/-- The tokens of a list of statements are those of its items. -/
theorem Stmt.forall_mem_placesAll {ι : Type} {body : List (Stmt ι)} :
    (∀ p ∈ placesAll body, p.1.fits p.2.kind = true) ↔ ∀ s ∈ body, s.IsFitting := by
  simp only [mem_placesAll, IsFitting]
  exact ⟨fun h s hs p hp => h p ⟨s, hs, hp⟩, fun h p ⟨s, hs, hp⟩ => h s hs p hp⟩

namespace Grammar

/-! ### Expressions -/

section Expressions

variable {expression operand inner : Rule Expr} {isOperator : Token.Kind → Bool}
  {join : Expr → Token → Expr → Expr}

/-- Operands with a token between them that fits there. -/
theorem isFitting_binary {l r : Expr} {op : Token} (hl : l.IsFitting)
    (hop : Place.binary.fits op.kind = true) (hr : r.IsFitting) :
    (Expr.binary l op r).IsFitting :=
  List.forall_mem_cons.2 ⟨hop, List.forall_mem_append.2 ⟨hl, hr⟩⟩

/-- Operands with `and` or `or` between them. -/
theorem isFitting_logical {l r : Expr} {op : Token} (hl : l.IsFitting)
    (hop : Place.logical.fits op.kind = true) (hr : r.IsFitting) :
    (Expr.logical l op r).IsFitting :=
  List.forall_mem_cons.2 ⟨hop, List.forall_mem_append.2 ⟨hl, hr⟩⟩

/-- Each of the six levels has operators that fit between operands. -/
theorem fitting_disjunction (ho : Yields Expr.IsFitting operand) :
    Yields Expr.IsFitting (disjunction operand) := by
  have hproduct : Yields Expr.IsFitting (product operand) :=
    yields_chain (fun hl hop hr => isFitting_binary hl (by simp [Place.fits, hop]) hr) ho
  have hsum : Yields Expr.IsFitting (sum operand) :=
    yields_chain (fun hl hop hr => isFitting_binary hl (by simp [Place.fits, hop]) hr) hproduct
  have hcomparison : Yields Expr.IsFitting (comparison operand) :=
    yields_chain (fun hl hop hr => isFitting_binary hl (by simp [Place.fits, hop]) hr) hsum
  have hequality : Yields Expr.IsFitting (equality operand) :=
    yields_chain (fun hl hop hr => isFitting_binary hl (by simp [Place.fits, hop]) hr) hcomparison
  have hconjunction : Yields Expr.IsFitting (conjunction operand) :=
    yields_chain (fun hl hop hr => isFitting_logical hl (by simp [Place.fits, hop]) hr) hequality
  exact yields_chain (fun hl hop hr => isFitting_logical hl (by simp [Place.fits, hop]) hr)
    hconjunction

/-- What is assigned to is a name, or else it stays as it is. -/
theorem fitting_assignment (he : Yields Expr.IsFitting expression)
    (ho : Yields Expr.IsFitting operand) :
    Yields Expr.IsFitting (assignment expression operand) := by
  refine .bind (fitting_disjunction ho) fun target htarget => .after fun _ =>
    .ite ?_ (.pure htarget)
  have hobject : Yields Expr.IsFitting (do
      note (← current) .invalidAssignmentTarget
      let _ ← advance
      let _ ← expression
      return target) :=
    .after fun _ => .after fun _ => .after fun _ => .after fun _ => .pure htarget
  cases target with
  | name n =>
    -- A name that is assigned to is one that could have been read.
    have hn : Place.variable.fits n.kind = true := htarget (.variable, n) List.mem_cons_self
    exact .after fun _ => .bind he fun e he => .pure (List.forall_mem_cons.2 ⟨hn, he⟩)
  | _ => exact hobject

/-- A primary expression is read by the kind of its first token. -/
theorem fitting_primary (he : Yields Expr.IsFitting expression) :
    Yields Expr.IsFitting (primary expression) := by
  have hconstant (c : Constant) : Yields Expr.IsFitting (primary.constant c) :=
    .after fun _ => .pure (Expr.isFitting_constant c)
  refine .currentAt fun token => ?_
  split
  · exact (hconstant _).startingAt token
  · exact (hconstant _).startingAt token
  · exact (hconstant _).startingAt token
  · split
    · exact (hconstant _).startingAt token
    · exact (YieldsIn.failHere _).startingAt token
  · split
    · exact (hconstant _).startingAt token
    · exact (YieldsIn.failHere _).startingAt token
  · -- The token is a name, as its kind says, so it may stand for a variable.
    next hk =>
    exact .advance (.pure (List.forall_mem_singleton.2 (beq_iff_eq.2 hk)))
  · exact .advance (.bind he fun inner hinner => .after fun _ => .pure hinner)
  · exact (YieldsIn.failHere _).startingAt token

/-- The token that a call keeps is the parenthesis that closes it. -/
theorem fitting_callsFrom (he : Yields Expr.IsFitting expression) (bound : List Token)
    {callee : Expr} (hcallee : callee.IsFitting) :
    Yields Expr.IsFitting (callsFrom expression bound callee) := by
  -- Each turn makes a call of what has been read, which is fitting.
  induction bound generalizing callee with
  | nil => exact .pure hcallee
  | cons _ bound ih =>
    refine .after fun _ => .ite ?_ (.pure hcallee)
    refine .bind (yields_separated he _) fun arguments harguments => .expect fun paren hk => ih ?_
    refine List.forall_mem_cons.2 ⟨beq_iff_eq.2 hk, List.forall_mem_append.2 ⟨hcallee, ?_⟩⟩
    exact Expr.forall_mem_placesAll.2 harguments

/-- A callee is fitting, and so is what its calls make of it. -/
theorem fitting_calls (he : Yields Expr.IsFitting expression) :
    Yields Expr.IsFitting (calls expression) :=
  .bind (fitting_primary he) fun _ hcallee => .get fun s => fitting_callsFrom he s.remaining hcallee

/-- An operator is in front only where the rule has seen one. -/
theorem fitting_unaryOr (hi : Yields Expr.IsFitting inner) (ho : Yields Expr.IsFitting operand) :
    Yields Expr.IsFitting (unaryOr inner operand) := by
  refine .currentAt fun token => ?_
  split
  · next hop => exact .advance (.bind hi fun e he => .pure (List.forall_mem_cons.2 ⟨hop, he⟩))
  · exact ho.startingAt token

end Expressions

/-- Both rules for expressions read fitting ones at every level of nesting. -/
theorem fitting_expression_unary (free : Nat) :
    Yields Expr.IsFitting (expression free) ∧ Yields Expr.IsFitting (unary free) := by
  induction free with
  | zero => exact ⟨.failHere _, fitting_unaryOr (.failHere _) (fitting_calls (.failHere _))⟩
  | succ free ih =>
    have he : Yields Expr.IsFitting (expression (free + 1)) :=
      (fitting_assignment ih.1 ih.2).nested
    exact ⟨he, fitting_unaryOr ih.2.nested (fitting_calls he)⟩

/-- What is read as an expression is fitting. -/
theorem fitting_expression (free : Nat) : Yields Expr.IsFitting (expression free) :=
  (fitting_expression_unary free).1

/-! ### Declarations -/

section Statements

variable {expression : Rule Expr} {statement : Rule (Stmt Unit)}
  {block : Rule (List (Stmt Unit))} {declaration : State → Option (Stmt Unit) × State}

/-- What is declared is a name. -/
theorem fitting_variableDeclaration (he : Yields Expr.IsFitting expression) :
    Yields Stmt.IsFitting (variableDeclaration expression) := by
  refine .expect fun name hk => .after fun _ => ?_
  have hend {value : Expr} (hvalue : value.IsFitting) :
      Yields (fun s : Stmt Unit => s.IsFitting) (do
        let _ ← expect Symbol.semicolon .missingEndOfVariable
        return .variable name value) :=
    .after fun _ => .pure (List.forall_mem_cons.2 ⟨beq_iff_eq.2 hk, hvalue⟩)
  exact .ite (.bind he fun _ => hend)
    (.bind (.pure (Expr.isFitting_constant _)) fun _ => hend)

/-- The name of a function is a name, and so are its parameters. -/
theorem fitting_functionDeclaration (hb : Yields (fun body => ∀ s ∈ body, s.IsFitting) block) :
    Yields Stmt.IsFitting (functionDeclaration block) := by
  have hparameter : Yields (fun token => token.kind = .identifier)
      (expect .identifier .missingParameterName) := .expect_only _ _
  refine .expect fun name hk => .after fun _ => .bind (yields_separated hparameter _)
    fun parameters hparameters => .after fun _ => .after fun _ =>
    .bind hb.inFunction fun body hbody => .pure ?_
  refine List.forall_mem_cons.2 ⟨beq_iff_eq.2 hk, List.forall_mem_append.2 ⟨?_, ?_⟩⟩
  · exact List.forall_mem_map.2 fun parameter hmem => beq_iff_eq.2 (hparameters parameter hmem)
  · exact Stmt.forall_mem_placesAll.2 hbody

/-- What a declaration yields is fitting, if it yields anything. -/
theorem fitting_declaration (he : Yields Expr.IsFitting expression)
    (hst : Yields Stmt.IsFitting statement)
    (hb : Yields (fun body => ∀ s ∈ body, s.IsFitting) block) (s : State) :
    ∀ stmt ∈ (Grammar.declaration expression statement block s).1, stmt.IsFitting := by
  refine YieldsIn.forall_mem_recovering (I := Anywhere) (.after fun token => ?_) trivial
  split
  · exact .after fun _ => fitting_variableDeclaration he
  · exact .after fun _ => fitting_functionDeclaration hb
  · exact hst

/-! ### Statements -/

/-- An expression statement keeps no token of its own. -/
theorem fitting_expressionStatement (he : Yields Expr.IsFitting expression) :
    Yields Stmt.IsFitting (expressionStatement expression) :=
  .bind he fun _ hvalue => .after fun _ => .pure hvalue

/-- A `return` keeps its keyword, also where it is objected to. -/
theorem fitting_returnStatement (he : Yields Expr.IsFitting expression) {keyword : Token}
    (hk : keyword.kind = Keyword.return_) :
    Yields Stmt.IsFitting (returnStatement expression keyword) := by
  have hend {value : Expr} (hvalue : value.IsFitting) :
      Yields (fun s : Stmt Unit => s.IsFitting) (do
        let _ ← expect Symbol.semicolon .missingEndOfReturn
        return .return keyword value) :=
    .after fun _ => .pure (List.forall_mem_cons.2 ⟨beq_iff_eq.2 hk, hvalue⟩)
  have hrest : Yields (fun s : Stmt Unit => s.IsFitting) (do
      let value ← if ← sees Symbol.semicolon then pure .nil else expression
      let _ ← expect Symbol.semicolon .missingEndOfReturn
      return .return keyword value) :=
    .after fun _ => .ite (.bind (.pure (Expr.isFitting_constant _)) fun _ => hend)
      (.bind he fun _ => hend)
  exact .after fun _ => .ite (.after fun _ => hrest) hrest

/-- An initializer is a variable or an expression statement. -/
theorem fitting_forInitializer (he : Yields Expr.IsFitting expression) :
    Yields (fun initializer : Option (Stmt Unit) => ∀ s ∈ initializer, s.IsFitting)
      (forInitializer expression) := by
  refine .after fun token => ?_
  split
  · exact .after fun _ => .pure fun s hs => absurd hs (Option.not_mem_none s)
  · exact .after fun _ => (fitting_variableDeclaration he).some
  · exact (fitting_expressionStatement he).some

/-- Writing a loop with `while` moves no token to another place. -/
theorem fitting_forStatement (he : Yields Expr.IsFitting expression)
    (hst : Yields Stmt.IsFitting statement) :
    Yields Stmt.IsFitting (forStatement expression statement) := by
  refine .after fun _ => .bind (fitting_forInitializer he) fun initializer hinitializer =>
    .after fun _ => ?_
  -- The clauses are read from the left. Each fact is about what follows a clause.
  have hbody {condition : Expr} (hcondition : condition.IsFitting) {step : Option Expr}
      (hstep : ∀ e ∈ step, e.IsFitting) : Yields (fun s : Stmt Unit => s.IsFitting) (do
        let _ ← expect Symbol.rightParen .missingCloseOfFor
        return .forLoop initializer condition step (← statement)) := by
    refine .after fun _ => .bind hst fun body hbody => .pure fun p hp => ?_
    rcases Stmt.mem_places_forLoop.1 hp with ⟨s, hs, hp⟩ | hp | hp | ⟨e, he, hp⟩
    · exact hinitializer s hs p hp
    · exact hcondition p hp
    · exact hbody p hp
    · exact hstep e he p hp
  have hsteps {condition : Expr} (hcondition : condition.IsFitting) :
      Yields (fun s : Stmt Unit => s.IsFitting) (do
        let _ ← expect Symbol.semicolon .missingEndOfForCondition
        let step ← if ← sees Symbol.rightParen then pure none else some <$> expression
        let _ ← expect Symbol.rightParen .missingCloseOfFor
        return .forLoop initializer condition step (← statement)) := by
    have hnone : ∀ e ∈ (none : Option Expr), e.IsFitting :=
      fun e he => absurd he (Option.not_mem_none e)
    exact .after fun _ => .after fun _ => .ite (.bind (.pure hnone) fun _ => hbody hcondition)
      (.bind he.some fun _ => hbody hcondition)
  exact .ite (.bind (.pure (Expr.isFitting_constant _)) fun _ => hsteps)
    (.bind he fun _ => hsteps)

/-- A statement keeps the keyword that it was recognized by. -/
theorem fitting_anyStatement (he : Yields Expr.IsFitting expression)
    (hst : Yields Stmt.IsFitting statement)
    (hb : Yields (fun body => ∀ s ∈ body, s.IsFitting) block) :
    Yields Stmt.IsFitting (anyStatement expression statement block) := by
  -- The keyword that is taken is the token that has been looked at.
  refine .currentAt fun token => ?_
  split
  · next hk =>
    exact .advance (.bind he fun value hvalue => .after fun _ =>
      .pure (List.forall_mem_cons.2 ⟨beq_iff_eq.2 hk, hvalue⟩))
  · exact .advance (.bind hb fun body hbody => .pure (Stmt.forall_mem_placesAll.2 hbody))
  · refine .advance (.after fun _ => .bind he fun condition hcondition => .after fun _ =>
      .bind hst fun yes hyes => .after fun _ => .ite (.bind hst fun no hno => .pure ?_) (.pure ?_))
    · exact List.forall_mem_append.2 ⟨hcondition, List.forall_mem_append.2 ⟨hyes, hno⟩⟩
    · exact List.forall_mem_append.2 ⟨hcondition, hyes⟩
  · exact .advance (.after fun _ => .bind he fun condition hcondition => .after fun _ =>
      .bind hst fun body hbody => .pure (List.forall_mem_append.2 ⟨hcondition, hbody⟩))
  · exact .advance (fitting_forStatement he hst)
  · next hk => exact .advance (fitting_returnStatement he hk)
  · exact (fitting_expressionStatement he).startingAt token

end Statements

/-- What the rules read as a statement or as a block is fitting. -/
theorem fitting_statement_block (free : Nat) :
    Yields Stmt.IsFitting (statement free) ∧
      Yields (fun body => ∀ s ∈ body, s.IsFitting) (block free) := by
  induction free with
  | zero => exact ⟨.failHere _, .failHere _⟩
  | succ free ih =>
    have he := fitting_expression free
    exact ⟨(fitting_anyStatement he ih.1 ih.2).nested,
      .nested (yields_blockContents (fun _ => id) fun s _ => fitting_declaration he ih.1 ih.2 s)⟩

end Grammar

open Grammar

/-- Every statement of a program is fitting, whatever errors there are beside it. -/
theorem isFitting_of_mem_parse (tokens : List Token) : ∀ s ∈ (parse tokens).1, s.IsFitting := by
  obtain ⟨hstatement, hblock⟩ := fitting_statement_block maxNesting
  have hdeclaration := fitting_declaration (fitting_expression maxNesting) hstatement hblock
  intro s hs
  rw [parse] at hs
  exact forall_mem_declarations hdeclaration (fun _ => false) _ _ s hs

/-- Numbering functions does not move tokens to where they do not fit. -/
theorem fits_of_mem_placesAll_numberAll {ι : Type} {body : List (Stmt ι)}
    (h : ∀ s ∈ body, s.IsFitting) (next : Nat) :
    ∀ p ∈ Stmt.placesAll (Stmt.numberAll next body).1, p.1.fits p.2.kind = true := by
  rw [Stmt.placesAll_numberAll]
  exact Stmt.forall_mem_placesAll.2 h

end Lox
