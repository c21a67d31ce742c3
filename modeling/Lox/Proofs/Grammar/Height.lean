import Lox.Proofs.Grammar.Balance
import Lox.Proofs.Grammar.Yield
import Lox.Proofs.Syntax.Height

namespace Lox

/-!
# The height of what is read

The limit on levels of nesting limits the height of trees. What the rules read is lower the more
levels are open around it, whatever errors there are beside it. An expression takes up one level
for each step of its height. A statement may be three steps higher than the statement in it,
although only one level is opened: so a `for` loop is written with `while`.

* `Grammar.LowExpression`, `LowStatement`, … — what is low enough for the levels that are left.
* `Grammar.low_expression`, `low_statement_block`, `low_declaration` — what is read is low.
* `height_le_of_parse` — the height of expressions and programs.
-/

namespace Grammar

variable {α β : Type} {n : Nat} {P : α → Prop} {Q : β → Prop}

/-! ### Low trees -/

/-- The height of the expression and the levels around it, `n` of them, are within the limit
    together. -/
def LowExpression (n : Nat) (e : Expr) : Prop := e.height + n ≤ maxNesting

/-- The bound on the height of a statement on a level, if it has no statement in it. -/
def LowLeaf (n : Nat) (s : Stmt Unit) : Prop := s.height + n ≤ maxNesting + 1

/-- The bound on the height of a statement on a level. Each level makes room for three steps. -/
def LowStatement (n : Nat) (s : Stmt Unit) : Prop := s.height + 3 * n ≤ 3 * maxNesting + 1

/-- The bound on the height of a declaration on a level. A variable takes up no level, so one
    without an initializer has a place on the last level, where nothing else has. -/
def LowDeclaration (n : Nat) (s : Stmt Unit) : Prop :=
  s.height + 3 * n < 3 * maxNesting ∨ LowLeaf n s

/-- The bound on the height of what is in a block on a level. -/
def LowBlock (n : Nat) (body : List (Stmt Unit)) : Prop :=
  Stmt.heightAll body + 3 * n ≤ 3 * maxNesting + 1

section Trees

variable {e e' l r condition : Expr} {s yes no body : Stmt Unit} {statements : List (Stmt Unit)}

/-- Names and constants are low on every level. -/
theorem lowExpression_of_height_eq_zero (he : e.height = 0) (hn : n ≤ maxNesting) :
    LowExpression n e := by
  unfold LowExpression
  omega

/-- What is low on a level is low on those around it. -/
theorem LowExpression.outer (h : LowExpression (n + 1) e) : LowExpression n e :=
  Nat.le_of_succ_le h

/-- One level more makes room for one step more. -/
theorem LowExpression.step (h : LowExpression (n + 1) e) (he' : e'.height = e.height + 1) :
    LowExpression n e' := by
  unfold LowExpression at *
  omega

/-- Operators open no level and make no step, so the higher operand counts. -/
theorem LowExpression.max (hl : LowExpression n l) (hr : LowExpression n r)
    (he : e.height = max l.height r.height) : LowExpression n e := by
  unfold LowExpression at *
  omega

/-- Arguments are a step below the call, and they are read a level further in. -/
theorem LowExpression.call {callee : Expr} {paren : Token} {arguments : List Expr}
    (hcallee : LowExpression n callee) (harguments : ∀ a ∈ arguments, LowExpression (n + 1) a) :
    LowExpression n (.call callee paren arguments) := by
  -- Each argument has a level of its own, so all of them keep to one bound.
  have hall : Expr.argumentsHeight arguments ≤ maxNesting - n :=
    Expr.argumentsHeight_le_iff.2 fun a ha => by
      have := harguments a ha
      unfold LowExpression at this
      omega
  unfold LowExpression at *
  rw [Expr.height]
  omega

/-- A statement that consists of an expression is a step higher. -/
theorem LowExpression.leaf (h : LowExpression n e) (hs : s.height = e.height + 1) :
    LowLeaf n s := by
  unfold LowExpression at h
  unfold LowLeaf
  omega

/-- The bound on statements leaves more room than the one on those without statements inside. -/
theorem LowLeaf.statement (h : LowLeaf n s) (hn : n ≤ maxNesting) : LowStatement n s := by
  unfold LowLeaf at h
  unfold LowStatement
  omega

/-- A block opens a level for what is in it. -/
theorem LowBlock.block (h : LowBlock (n + 1) statements) :
    LowStatement n (.block statements) := by
  unfold LowBlock at h
  rw [LowStatement, Stmt.height]
  omega

/-- A branch is a level further in, and so is the condition. -/
theorem LowStatement.ifThen (hcondition : LowExpression (n + 1) condition)
    (hyes : LowStatement (n + 1) yes) : LowStatement n (.ifThen condition yes) := by
  unfold LowExpression at hcondition
  unfold LowStatement at *
  rw [Stmt.height]
  omega

/-- Both branches are a level further in. -/
theorem LowStatement.ifElse (hcondition : LowExpression (n + 1) condition)
    (hyes : LowStatement (n + 1) yes) (hno : LowStatement (n + 1) no) :
    LowStatement n (.ifElse condition yes no) := by
  unfold LowExpression at hcondition
  unfold LowStatement at *
  rw [Stmt.height]
  omega

/-- The body is a level further in, and so is the condition. -/
theorem LowStatement.while (hcondition : LowExpression (n + 1) condition)
    (hbody : LowStatement (n + 1) body) : LowStatement n (.while condition body) := by
  unfold LowExpression at hcondition
  unfold LowStatement at *
  rw [Stmt.height]
  omega

/-- The clauses of a loop are on the level of the loop, and its body is on the next one. -/
theorem LowStatement.forLoop {initializer : Option (Stmt Unit)} {step : Option Expr}
    (hinitializer : ∀ s ∈ initializer, LowLeaf n s) (hcondition : LowExpression n condition)
    (hstep : ∀ e ∈ step, LowExpression (n + 1) e) (hbody : LowStatement (n + 1) body) :
    LowStatement n (.forLoop initializer condition step body) := by
  unfold LowExpression at hcondition
  unfold LowStatement at *
  -- Written with `while`, the step is in the innermost block and the initializer in the outermost
  -- one.
  have hloop : (Stmt.forLoop initializer condition step body).height ≤
      3 * maxNesting + 1 - 3 * n := by
    refine Stmt.height_forLoop_le (fun s hs => ?_) (by omega) (fun e he => ?_) (by omega)
    · have := hinitializer s hs
      unfold LowLeaf at this
      omega
    · have := hstep e he
      unfold LowExpression at this
      omega
  omega

/-- A statement has opened a level, which is room enough for a declaration. -/
theorem LowStatement.declaration (h : LowStatement (n + 1) s) : LowDeclaration n s := by
  unfold LowStatement at h
  exact .inl (by omega)

/-- The body of a function is a block. -/
theorem LowBlock.function {name : Token} {parameters : List Token}
    (h : LowBlock (n + 1) statements) :
    LowDeclaration n (.function () name parameters statements) := by
  unfold LowBlock at h
  refine .inl ?_
  rw [Stmt.height]
  omega

/-- Declarations that are low make a block that is low. -/
theorem lowBlock_of_forall_mem (hn : n ≤ maxNesting) (h : ∀ s ∈ statements, LowDeclaration n s) :
    LowBlock n statements := by
  have hall : Stmt.heightAll statements ≤ 3 * maxNesting + 1 - 3 * n :=
    Stmt.heightAll_le_iff.2 fun s hs => by
      have := h s hs
      unfold LowDeclaration LowLeaf at this
      omega
  unfold LowBlock
  omega

end Trees

/-! ### Expressions -/

section Expressions

variable {expression operand inner : Rule Expr} {isOperator : Token.Kind → Bool}
  {join : Expr → Token → Expr → Expr} {P : Expr → Prop}

/-- Operators between operands keep the bound of the operands. -/
theorem low_disjunction (ho : YieldsOn n (LowExpression n) operand) :
    YieldsOn n (LowExpression n) (disjunction operand) := by
  have hbinary {l : Expr} {op : Token} {r : Expr} (hl : LowExpression n l)
      (hr : LowExpression n r) : LowExpression n (.binary l op r) := hl.max hr rfl
  have hlogical {l : Expr} {op : Token} {r : Expr} (hl : LowExpression n l)
      (hr : LowExpression n r) : LowExpression n (.logical l op r) := hl.max hr rfl
  -- What the operators are does not matter.
  have hequality : YieldsOn n (LowExpression n) (equality operand) :=
    yields_chain (fun hl _ => hbinary hl) <| yields_chain (fun hl _ => hbinary hl) <|
      yields_chain (fun hl _ => hbinary hl) <| yields_chain (fun hl _ => hbinary hl) ho
  exact yields_chain (fun hl _ => hlogical hl) (yields_chain (fun hl _ => hlogical hl) hequality)

/-- A value is read as a whole expression, so it is a step lower. -/
theorem low_assignment (he : YieldsOn n (LowExpression (n + 1)) expression)
    (ho : YieldsOn n (LowExpression n) operand) :
    YieldsOn n (LowExpression n) (assignment expression operand) := by
  refine .bind (low_disjunction ho) fun target htarget => .sees fun _ => .ite ?_ (.pure htarget)
  have hobject : YieldsOn n (LowExpression n) (do
      note (← current) .invalidAssignmentTarget
      let _ ← advance
      let _ ← expression
      return target) :=
    .current fun _ => .note <| .advance fun _ => .bind he fun _ _ => .pure htarget
  cases target with
  | name => exact .advance fun _ => .bind he fun _ hvalue => .pure (hvalue.step rfl)
  | _ => exact hobject

/-- A group opens a level, and all else is a single token. -/
theorem low_primary (hn : n ≤ maxNesting) (he : YieldsOn n (LowExpression (n + 1)) expression) :
    YieldsOn n (LowExpression n) (primary expression) := by
  have hconstant (c : Constant) : YieldsOn n (LowExpression n) (primary.constant c) :=
    .advance fun _ => .pure (lowExpression_of_height_eq_zero rfl hn)
  refine .current fun token => ?_
  split
  · exact hconstant _
  · exact hconstant _
  · exact hconstant _
  · split
    · exact hconstant _
    · exact .failHere _
  · split
    · exact hconstant _
    · exact .failHere _
  · exact .advance fun _ => .pure (lowExpression_of_height_eq_zero rfl hn)
  · -- The expression in a group is one level deeper, which makes up for the height that the group
    -- adds.
    exact .advance fun _ => .bind he fun _ hinner => .expect fun _ _ => .pure (hinner.step rfl)
  · exact .failHere _

/-- Arguments are whole expressions, however many calls there are. -/
theorem low_calls (hn : n ≤ maxNesting) (he : YieldsOn n (LowExpression (n + 1)) expression) :
    YieldsOn n (LowExpression n) (calls expression) := by
  have hfrom (bound : List Token) {callee : Expr} (hcallee : LowExpression n callee) :
      YieldsOn n (LowExpression n) (callsFrom expression bound callee) := by
    -- Each turn makes a call of what has been read, which stays low.
    induction bound generalizing callee with
    | nil => exact .pure hcallee
    | cons _ bound ih =>
      exact .accept fun _ => .ite (.bind (yields_separated he _) fun _ harguments =>
        .expect fun _ _ => ih (hcallee.call harguments)) (.pure hcallee)
  exact .bind (low_primary hn he) fun _ hcallee => .get fun s => hfrom s.remaining hcallee

/-- An operator in front is a step, for which its operand has opened a level. -/
theorem low_unaryOr (hi : YieldsOn n (LowExpression (n + 1)) inner)
    (ho : YieldsOn n (LowExpression n) operand) :
    YieldsOn n (LowExpression n) (unaryOr inner operand) :=
  .current fun _ => .ite (.advance fun _ => .bind hi fun _ he => .pure (he.step rfl)) ho

end Expressions

/-- A whole expression opens a level and an operand does not, so an expression is one step lower
    than an operand may be. -/
theorem low_expression_unary (free n : Nat) :
    YieldsOn n (LowExpression (n + 1)) (expression free) ∧
      (n ≤ maxNesting → YieldsOn n (LowExpression n) (unary free)) := by
  -- The levels are counted in the state, upwards, while the rules count `free` downwards.
  induction free generalizing n with
  | zero => exact ⟨.failHere _, fun hn => low_unaryOr (.failHere _) (low_calls hn (.failHere _))⟩
  | succ free ih =>
    obtain ⟨he, hu⟩ := ih (n + 1)
    have hexpression : YieldsOn n (LowExpression (n + 1)) (expression (free + 1)) :=
      .nested fun hroom => low_assignment he (hu hroom)
    exact ⟨hexpression, fun hn => low_unaryOr (.nested hu) (low_calls hn hexpression)⟩

/-- What the rule for expressions reads is low. -/
theorem low_expression (free n : Nat) : YieldsOn n (LowExpression (n + 1)) (expression free) :=
  (low_expression_unary free n).1

/-! ### Declarations -/

section Statements

variable {expression : Rule Expr} {statement : Rule (Stmt Unit)}
  {block : Rule (List (Stmt Unit))}

/-- A variable is a step higher than its initializer. -/
theorem low_variableDeclaration (hn : n ≤ maxNesting)
    (he : YieldsOn n (LowExpression (n + 1)) expression) :
    YieldsOn n (LowLeaf n) (variableDeclaration expression) := by
  refine .expect fun name _ => .accept fun _ => ?_
  have hend {value : Expr} (hvalue : LowExpression n value) : YieldsOn n (LowLeaf n) (do
      let _ ← expect Symbol.semicolon .missingEndOfVariable
      return .variable name value) :=
    .expect fun _ _ => .pure (hvalue.leaf rfl)
  exact .ite (.bind he fun _ hvalue => hend hvalue.outer)
    (.bind (.pure (lowExpression_of_height_eq_zero rfl hn)) fun _ => hend)

/-- A function declaration is low where its body is. -/
theorem low_functionDeclaration (hb : YieldsOn n (LowBlock (n + 1)) block) :
    YieldsOn n (LowDeclaration n) (functionDeclaration block) := by
  have hparameter : YieldsOn n (fun token => token.kind = .identifier)
      (expect .identifier .missingParameterName) := .expect_only _ _
  exact .expect fun _ _ => .expect fun _ _ => .bind (yields_separated hparameter _) fun _ _ =>
    .expect fun _ _ => .expect fun _ _ => .bind hb.inFunction fun _ hbody => .pure hbody.function

/-- A declaration is a variable, a function or a statement, each of them low in its way. -/
theorem low_declaration (hn : n ≤ maxNesting)
    (he : YieldsOn n (LowExpression (n + 1)) expression)
    (hst : YieldsOn n (LowStatement (n + 1)) statement)
    (hb : YieldsOn n (LowBlock (n + 1)) block) {s : State} (hs : s.nesting = n) :
    ∀ stmt ∈ (declaration expression statement block s).1, LowDeclaration n stmt := by
  refine YieldsIn.forall_mem_recovering (I := OnLevel n) (.current fun token => ?_) hs
  split
  · exact .advance fun _ => (low_variableDeclaration hn he).mono fun _ => .inr
  · exact .advance fun _ => low_functionDeclaration hb
  · exact hst.mono fun _ => LowStatement.declaration

/-- What is read behind a malformed declaration is on the same level. -/
theorem low_blockContents {declaration : State → Option (Stmt Unit) × State}
    (hn : n ≤ maxNesting) (hlevels : ∀ s, SameLevels s (declaration s).2)
    (hd : ∀ s, s.nesting = n → ∀ stmt ∈ (declaration s).1, LowDeclaration n stmt) :
    YieldsOn n (LowBlock n) (blockContents declaration) :=
  -- Failed declarations have left all levels, too, so each one is read on the level `n`.
  (yields_blockContents (I := OnLevel n) (fun s hs => (hlevels s).nesting_eq.trans hs) hd).mono
    fun _ => lowBlock_of_forall_mem hn

/-! ### Statements -/

/-- An expression that is used as a statement has opened a level. -/
theorem low_expressionStatement (he : YieldsOn n (LowExpression (n + 1)) expression) :
    YieldsOn n (LowLeaf n) (expressionStatement expression) :=
  .bind he fun _ hvalue => .expect fun _ _ => .pure (hvalue.outer.leaf rfl)

/-- An expression that is printed has opened a level. -/
theorem low_printStatement (he : YieldsOn n (LowExpression (n + 1)) expression)
    (keyword : Token) : YieldsOn n (LowLeaf n) (printStatement expression keyword) :=
  .bind he fun _ hvalue => .expect fun _ _ => .pure (hvalue.outer.leaf rfl)

/-- An expression that is returned has opened a level, and `nil` in its place is of height zero. -/
theorem low_returnStatement (hn : n ≤ maxNesting)
    (he : YieldsOn n (LowExpression (n + 1)) expression) (keyword : Token) :
    YieldsOn n (LowLeaf n) (returnStatement expression keyword) := by
  have hend {value : Expr} (hvalue : LowExpression n value) : YieldsOn n (LowLeaf n) (do
      let _ ← expect Symbol.semicolon .missingEndOfReturn
      return .return keyword value) :=
    .expect fun _ _ => .pure (hvalue.leaf rfl)
  have hrest : YieldsOn n (LowLeaf n) (do
      let value ← if ← sees Symbol.semicolon then pure .nil else expression
      let _ ← expect Symbol.semicolon .missingEndOfReturn
      return .return keyword value) :=
    .sees fun _ => .ite (.bind (.pure (lowExpression_of_height_eq_zero rfl hn)) fun _ => hend)
      (.bind he fun _ hvalue => hend hvalue.outer)
  exact .get fun _ => .ite (.note hrest) hrest

/-- An initializer has no statement in it. -/
theorem low_forInitializer (hn : n ≤ maxNesting)
    (he : YieldsOn n (LowExpression (n + 1)) expression) :
    YieldsOn n (fun initializer => ∀ s ∈ initializer, LowLeaf n s)
      (forInitializer expression) := by
  refine .current fun token => ?_
  split
  · exact .advance fun _ => .pure fun s hs => absurd hs (Option.not_mem_none s)
  · exact .advance fun _ => (low_variableDeclaration hn he).some
  · exact (low_expressionStatement he).some

/-- The three steps of a loop fit the one level that it opens. -/
theorem low_forStatement (hn : n ≤ maxNesting)
    (he : YieldsOn n (LowExpression (n + 1)) expression)
    (hst : YieldsOn n (LowStatement (n + 1)) statement) :
    YieldsOn n (LowStatement n) (forStatement expression statement) := by
  refine .expect fun _ _ => .bind (low_forInitializer hn he) fun initializer hinitializer =>
    .sees fun _ => ?_
  -- The clauses are read from the left. Each fact is about what follows a clause.
  have hbody {condition : Expr} (hcondition : LowExpression n condition) {step : Option Expr}
      (hstep : ∀ e ∈ step, LowExpression (n + 1) e) : YieldsOn n (LowStatement n) (do
        let _ ← expect Symbol.rightParen .missingCloseOfFor
        return .forLoop initializer condition step (← statement)) :=
    .expect fun _ _ => .bind hst fun _ hbody => .pure (.forLoop hinitializer hcondition hstep hbody)
  have hsteps {condition : Expr} (hcondition : LowExpression n condition) :
      YieldsOn n (LowStatement n) (do
        let _ ← expect Symbol.semicolon .missingEndOfForCondition
        let step ← if ← sees Symbol.rightParen then pure none else some <$> expression
        let _ ← expect Symbol.rightParen .missingCloseOfFor
        return .forLoop initializer condition step (← statement)) :=
    .expect fun _ _ => .sees fun _ => .ite
      (.bind (.pure fun e he => absurd he (Option.not_mem_none e)) fun _ => hbody hcondition)
      (.bind he.some fun _ => hbody hcondition)
  exact .ite (.bind (.pure (lowExpression_of_height_eq_zero rfl hn)) fun _ => hsteps)
    (.bind he fun _ hcondition => hsteps hcondition.outer)

/-- Every statement is low on the level that it has opened. -/
theorem low_anyStatement (hn : n ≤ maxNesting)
    (he : YieldsOn n (LowExpression (n + 1)) expression)
    (hst : YieldsOn n (LowStatement (n + 1)) statement)
    (hb : YieldsOn n (LowBlock (n + 1)) block) :
    YieldsOn n (LowStatement n) (anyStatement expression statement block) := by
  -- Statements with no others inside are as low as their expressions.
  have hleaf {r : Rule (Stmt Unit)} (hr : YieldsOn n (LowLeaf n) r) :
      YieldsOn n (LowStatement n) r :=
    hr.mono fun _ hs => hs.statement hn
  refine .current fun token => ?_
  split
  · exact .advance fun keyword => hleaf (low_printStatement he keyword)
  · exact .advance fun _ => .bind hb fun _ hbody => .pure hbody.block
  · exact .advance fun _ => .expect fun _ _ => .bind he fun _ hcondition => .expect fun _ _ =>
      .bind hst fun _ hyes => .accept fun _ => .ite
        (.bind hst fun _ hno => .pure (.ifElse hcondition hyes hno))
        (.pure (.ifThen hcondition hyes))
  · exact .advance fun _ => .expect fun _ _ => .bind he fun _ hcondition => .expect fun _ _ =>
      .bind hst fun _ hbody => .pure (.while hcondition hbody)
  · exact .advance fun _ => low_forStatement hn he hst
  · exact .advance fun keyword => hleaf (low_returnStatement hn he keyword)
  · exact hleaf (low_expressionStatement he)

end Statements

/-- A statement opens a level, and so does a block. -/
theorem low_statement_block (free n : Nat) :
    YieldsOn n (LowStatement (n + 1)) (statement free) ∧
      YieldsOn n (LowBlock (n + 1)) (block free) := by
  induction free generalizing n with
  | zero => exact ⟨.failHere _, .failHere _⟩
  | succ free ih =>
    have he := low_expression free (n + 1)
    obtain ⟨hst, hb⟩ := ih (n + 1)
    have hlevels := rel_declaration_free stepClosed_sameLevels functionClosed_sameLevels free
    exact ⟨.nested fun hroom => low_anyStatement hroom he hst hb,
      .nested fun hroom => low_blockContents hroom hlevels fun _ =>
        low_declaration hroom he hst hb⟩

end Grammar

open Grammar

/-- What parses as an expression has been read as one from the first token on. -/
theorem exists_run_of_parseExpression {tokens : List Token} {e : Expr}
    (h : parseExpression tokens = .ok e) :
    ∃ t, expression maxNesting (State.start tokens) = .ok e t := by
  rw [parseExpression] at h
  cases hrun : expression maxNesting (State.start tokens) with
  | error _ t =>
    rw [hrun] at h
    exact absurd h (by simp)
  | ok e' t =>
    rw [hrun] at h
    dsimp only at h
    -- Whatever is objected to behind the expression, it has been read.
    generalize (if t.atEnd = true then t else _) = behind at h
    split at h
    · obtain rfl := Except.ok.inj h
      exact ⟨t, rfl⟩
    · exact absurd h (by simp)

/-- **The limit on nesting bounds the trees.** An expression that makes up a list of tokens has at
    most height 127, and a statement of a program at most three times the number of levels, whatever
    errors there are beside it. It is the count of levels that bounds the trees, and not the number
    of calls that a rule may make: the more levels are open, the lower is what is read. -/
theorem height_le_of_parse (tokens : List Token) :
    (∀ e, parseExpression tokens = .ok e → e.height ≤ 127) ∧
      (∀ s ∈ (parse tokens).1, s.height ≤ 3 * maxNesting) ∧
      ∀ free n : Nat,
        YieldsOn n (fun e => e.height + n < maxNesting) (expression free) ∧
          YieldsOn n (fun s => s.height + 3 * n + 2 ≤ 3 * maxNesting) (statement free) := by
  -- Reading starts on the outermost level, and each declaration ends there.
  have hstart : OnLevel 0 (State.start tokens) := rfl
  refine ⟨fun e h => ?_, fun stmt hstmt => ?_, fun free n => ?_⟩
  · obtain ⟨t, hrun⟩ := exists_run_of_parseExpression h
    exact Nat.le_of_lt_succ (low_expression maxNesting 0 _ t e hstart hrun).2
  · have hlevels := rel_declaration_free stepClosed_sameLevels functionClosed_sameLevels maxNesting
    obtain ⟨hst, hb⟩ := low_statement_block maxNesting 0
    rw [parse] at hstmt
    have hlow := (invariant_declarations (I := OnLevel 0)
      (fun s hs => (hlevels s).nesting_eq.trans hs)
      (fun _ => low_declaration (Nat.zero_le _) (low_expression maxNesting 0) hst hb)
      (fun _ => false) _ hstart).2 stmt hstmt
    unfold LowDeclaration LowLeaf maxNesting at *
    omega
  · refine ⟨low_expression free n, (low_statement_block free n).1.mono fun s hs => ?_⟩
    unfold LowStatement at hs
    omega

/-- Parentheses inside parentheses, on all levels. -/
def deepestGroup : List Token :=
  (List.replicate 127 (scan "(").dropLast).flatten ++ (scan "1").dropLast ++
    (List.replicate 127 (scan ")").dropLast).flatten ++ scan ""

/-- A malformed statement, and loops inside loops on all levels but the last one, which is that of
    a `return` outside of functions. -/
def deepestLoop : List Token :=
  (scan "print (;").dropLast ++
    (List.replicate 127 (scan "for (var i; i < 9; next())").dropLast).flatten ++ scan "return;"

/-- The first bound is reached, and so is that of a statement, which is lower than three times the
    number of levels by two. -/
theorem height_le_of_parse_deepest :
    (∃ e, parseExpression deepestGroup = .ok e ∧ e.height = 127 ∧ e.height ≤ 127) ∧
      (parse deepestLoop).2.length = 2 ∧
      ∃ s ∈ (parse deepestLoop).1, s.height = 382 ∧ s.height ≤ 3 * maxNesting := by
  have hgroup : (parseExpression deepestGroup).toOption.map Expr.height = some 127 := by
    decide +kernel
  have hloop : (parse deepestLoop).1.map Stmt.height = [382] ∧
      (parse deepestLoop).2.length = 2 := by
    decide +kernel
  refine ⟨?_, hloop.2, ?_⟩
  · cases he : parseExpression deepestGroup with
    | error _ =>
      rw [he] at hgroup
      cases hgroup
    | ok e =>
      rw [he] at hgroup
      exact ⟨e, rfl, Option.some.inj hgroup, (height_le_of_parse deepestGroup).1 e he⟩
  · have hmem : 382 ∈ (parse deepestLoop).1.map Stmt.height := hloop.1 ▸ List.mem_singleton_self 382
    obtain ⟨s, hs, hheight⟩ := List.mem_map.1 hmem
    exact ⟨s, hs, hheight, (height_le_of_parse deepestLoop).2.1 s hs⟩

end Lox
