import Lox.Proofs.Grammar.Step

namespace Lox

/-!
# What rules do to the state

A rule changes the state by few kinds of steps: it takes a token, records an error at the current
token, objects to a `return` that it has just taken, and goes one level deeper and comes back. So
a relation between states that each of these steps respects is respected by every run of every
rule. All that is said about whole runs without looking at their trees comes from this one walk
through the grammar.

* `SyntaxError.Cause.IsLocal` — the causes that a rule gives for the token in front of it.
* `StepClosed R` — the steps respect the relation `R`, which is reflexive and transitive;
  `FunctionClosed R` — so do those that only statements take.
* `Respects R r` — every run of the rule `r` does, and an error that ends it is at the token where
  the rule stopped.
* `respects_expression`, `respects_statement`, `respects_block`, `rel_declarations` — the rules of
  the grammar.
-/

/-- The causes for which a rule objects to the token that it looks at. The others are found while
    a token is taken, or objected to once the token has been taken. -/
def SyntaxError.Cause.IsLocal : SyntaxError.Cause → Prop
  | .lexical _ | .returnAtTopLevel => False
  | _ => True

namespace Grammar

variable {α β : Type} {R : State → State → Prop}

/-- The steps of rules respect a relation between the state before and the state after. -/
structure StepClosed (R : State → State → Prop) : Prop where
  refl (s : State) : R s s
  trans {s t u : State} : R s t → R t u → R s u
  advanced (s : State) : R s s.advanced
  record (s : State) {cause : SyntaxError.Cause} :
    cause.IsLocal → R s (s.record ⟨s.current, cause⟩)
  nested {s t : State} : s.nesting < maxNesting →
    R { s with nesting := s.nesting + 1 } t → R s { t with nesting := t.nesting - 1 }

/-- The steps that only statements take respect a relation, too. -/
structure FunctionClosed (R : State → State → Prop) : Prop where
  /-- Outside of functions, a `return` is objected to when it has been taken. -/
  returned (s : State) : s.current.kind = .keyword .return_ → s.functionDepth = 0 →
    R s (s.advanced.record ⟨s.current, .returnAtTopLevel⟩)
  inFunction {s t : State} : R { s with functionDepth := s.functionDepth + 1 } t →
    R s { t with functionDepth := t.functionDepth - 1 }

/-- A run that started in the state `s` respects a relation. An error that ends the run is one that
    the rule found at the token where it stopped. -/
def Ends (R : State → State → Prop) (s : State) : EStateM.Result SyntaxError State α → Prop
  | .ok _ t => R s t
  | .error e t => R s t ∧ ∃ cause, cause.IsLocal ∧ e = ⟨t.current, cause⟩

/-- Every run of a rule respects a relation. -/
def Respects (R : State → State → Prop) (r : Rule α) : Prop := ∀ s, Ends R s (r s)

/-- What a relation says of a run that succeeds. -/
theorem Respects.of_ok {r : Rule α} {s t : State} {a : α} (hr : Respects R r)
    (h : r s = .ok a t) : R s t := by
  have := hr s
  rwa [h] at this

/-- What a relation says of a run that fails, and where it fails. -/
theorem Respects.of_error {r : Rule α} {s t : State} {e : SyntaxError} (hr : Respects R r)
    (h : r s = .error e t) : R s t ∧ ∃ cause, cause.IsLocal ∧ e = ⟨t.current, cause⟩ := by
  have := hr s
  rwa [h] at this

/-- A rule run inside a function body: the body is left however the rule ends. -/
theorem respects_inFunction (hF : FunctionClosed R) {rule : Rule α} (h : Respects R rule) :
    Respects R (inFunction rule) := by
  intro s
  unfold inFunction
  cases hr : rule { s with functionDepth := s.functionDepth + 1 } with
  | ok a t => exact hF.inFunction (h.of_ok hr)
  | error e t => exact ⟨hF.inFunction (h.of_error hr).1, (h.of_error hr).2⟩

/-! ### Sequences and single steps -/

section

variable (hR : StepClosed R)

include hR

/-- What goes before a run may be put in front of it. -/
theorem Ends.of_rel {s t : State} {result : EStateM.Result SyntaxError State α} (hst : R s t)
    (h : Ends R t result) : Ends R s result := by
  cases result with
  | ok a u => exact hR.trans hst h
  | error e u => exact ⟨hR.trans hst h.1, h.2⟩

/-- A sequence respects what both of its parts respect. -/
theorem Respects.bind {r : Rule α} {f : α → Rule β} (hr : Respects R r)
    (hf : ∀ a, Respects R (f a)) : Respects R (r >>= f) := by
  intro s
  -- The second part only runs if the first one succeeds.
  cases h : r s with
  | error e t =>
    rw [bind_of_error h]
    exact hr.of_error h
  | ok a t =>
    rw [bind_of_ok h]
    exact .of_rel hR (hr.of_ok h) (hf a t)

/-- Yielding a value does nothing to the state. -/
theorem respects_pure (a : α) : Respects R (pure a) := hR.refl

/-- Looking at the state does not change it. -/
theorem respects_get : Respects R get := hR.refl

/-- Looking at the current token does not change the state. -/
theorem respects_current : Respects R current := hR.refl

/-- Asking for the kind of the current token does not change the state. -/
theorem respects_sees (kind : Token.Kind) : Respects R (sees kind) := hR.refl

/-- Taking a token is one of the steps. -/
theorem respects_advance : Respects R advance := hR.advanced

/-- A rule that fails leaves the state as it is, and the error is at the current token. -/
theorem respects_failHere {cause : SyntaxError.Cause} (hc : cause.IsLocal) :
    Respects R (failHere cause : Rule α) :=
  fun s => ⟨hR.refl s, cause, hc, rfl⟩

/-- An error recorded at the current token, and what comes after it. -/
theorem Respects.noteHere (cause : SyntaxError.Cause) (hc : cause.IsLocal) {r : Rule α}
    (hr : Respects R r) :
    Respects R (current >>= fun token => note token cause >>= fun _ => r) := by
  intro s
  exact .of_rel hR (hR.record s hc) (hr _)

/-- Taking a token that may be missing is one step or none. -/
theorem respects_accept (kind : Token.Kind) : Respects R (accept kind) := by
  refine .bind hR (respects_sees hR kind) fun seen => ?_
  split
  · exact .bind hR (respects_advance hR) fun _ => respects_pure hR true
  · exact respects_pure hR false

/-- A token that is missing is objected to where it should have been. -/
theorem respects_expect (kind : Token.Kind) {missing : SyntaxError.Cause}
    (hm : missing.IsLocal) : Respects R (expect kind missing) := by
  refine .bind hR (respects_sees hR kind) fun seen => ?_
  split
  · exact respects_advance hR
  · exact respects_failHere hR hm

/-- A level is left however the rule on it ends. If there is no room for it, nothing changes. -/
theorem respects_nested {rule : Rule α} (h : Respects R rule) : Respects R (nested rule) := by
  intro s
  unfold nested
  by_cases hn : s.nesting < maxNesting
  · rw [if_pos hn]
    cases hr : rule { s with nesting := s.nesting + 1 } with
    | ok a t => exact hR.nested hn (h.of_ok hr)
    | error e t => exact ⟨hR.nested hn (h.of_error hr).1, (h.of_error hr).2⟩
  · rw [if_neg hn]
    exact ⟨hR.refl s, .tooMuchNesting, trivial, rfl⟩

/-! ### Lists -/

/-- The items of a list respect what one item does. An item too many is objected to at its first
    token. -/
theorem respects_separatedFrom {item : Rule α} {tooMany : SyntaxError.Cause}
    (hi : Respects R item) (ht : tooMany.IsLocal) (bound : List Token) (count : Nat) :
    Respects R (separatedFrom item tooMany bound count) := by
  induction bound generalizing count with
  | nil => exact respects_pure hR []
  | cons _ bound ih =>
    -- What a turn does once the objection, if there is one, is recorded.
    have hrest : Respects R (do
        let first ← item
        if ← accept Symbol.comma then
          return first :: (← separatedFrom item tooMany bound (count + 1))
        else
          return [first]) := by
      refine .bind hR hi fun first => .bind hR (respects_accept hR _) fun comma => ?_
      split
      · exact .bind hR (ih (count + 1)) fun rest => respects_pure hR _
      · exact respects_pure hR _
    rw [separatedFrom]
    split
    · exact .noteHere hR tooMany ht hrest
    · exact hrest

/-- A whole list respects what its items do, and it may be empty. -/
theorem respects_separated {item : Rule α} {tooMany : SyntaxError.Cause}
    (hi : Respects R item) (ht : tooMany.IsLocal) : Respects R (separated item tooMany) := by
  refine .bind hR (respects_sees hR _) fun closed => ?_
  split
  · exact respects_pure hR _
  · exact .bind hR (respects_get hR) fun s => respects_separatedFrom hR hi ht s.remaining 0

/-! ### Expressions -/

/-- Operands joined by operators respect what one operand does. -/
theorem respects_chainFrom {isOperator : Token.Kind → Bool} {join : Expr → Token → Expr → Expr}
    {operand : Rule Expr} (ho : Respects R operand) (bound : List Token) (left : Expr) :
    Respects R (chainFrom isOperator join operand bound left) := by
  induction bound generalizing left with
  | nil => exact respects_pure hR left
  | cons _ bound ih =>
    refine .bind hR (respects_current hR) fun token => ?_
    split
    · exact .bind hR (respects_advance hR) fun op => .bind hR ho fun right => ih _
    · exact respects_pure hR left

/-- The first operand and those behind it. -/
theorem respects_chain {isOperator : Token.Kind → Bool} {join : Expr → Token → Expr → Expr}
    {operand : Rule Expr} (ho : Respects R operand) :
    Respects R (chain isOperator join operand) :=
  .bind hR ho fun first => .bind hR (respects_get hR) fun s =>
    respects_chainFrom hR ho s.remaining first

/-- All levels of binary operators, from products up to disjunctions. -/
theorem respects_disjunction {operand : Rule Expr} (ho : Respects R operand) :
    Respects R (disjunction operand) := by
  have h₁ : Respects R (product operand) := respects_chain hR ho
  have h₂ : Respects R (sum operand) := respects_chain hR h₁
  have h₃ : Respects R (comparison operand) := respects_chain hR h₂
  have h₄ : Respects R (equality operand) := respects_chain hR h₃
  have h₅ : Respects R (conjunction operand) := respects_chain hR h₄
  exact respects_chain hR h₅

/-- An assignment. A target that cannot be assigned to is objected to in front of the `=`. -/
theorem respects_assignment {expression operand : Rule Expr} (he : Respects R expression)
    (ho : Respects R operand) : Respects R (assignment expression operand) := by
  refine .bind hR (respects_disjunction hR ho) fun target => .bind hR (respects_sees hR _)
    fun assigns => ?_
  split
  · split
    · exact .bind hR (respects_advance hR) fun _ => .bind hR he fun value => respects_pure hR _
    · exact .noteHere hR .invalidAssignmentTarget trivial <|
        .bind hR (respects_advance hR) fun _ => .bind hR he fun _ => respects_pure hR target
  · exact respects_pure hR target

/-- A primary expression takes one token, or one expression in parentheses. -/
theorem respects_primary {expression : Rule Expr} (he : Respects R expression) :
    Respects R (primary expression) := by
  have hconstant (c : Constant) : Respects R (primary.constant c) :=
    .bind hR (respects_advance hR) fun _ => respects_pure hR _
  refine .bind hR (respects_current hR) fun token => ?_
  split
  · exact hconstant _
  · exact hconstant _
  · exact hconstant _
  · -- A literal token without a literal does not come from a scanner, and is an error.
    split
    · exact hconstant _
    · exact respects_failHere hR trivial
  · split
    · exact hconstant _
    · exact respects_failHere hR trivial
  · exact .bind hR (respects_advance hR) fun name => respects_pure hR _
  · exact .bind hR (respects_advance hR) fun _ => .bind hR he fun inner =>
      .bind hR (respects_expect hR _ trivial) fun _ => respects_pure hR _
  · exact respects_failHere hR trivial

/-- Calls behind a callee, each with its list of arguments. -/
theorem respects_callsFrom {expression : Rule Expr} (he : Respects R expression)
    (bound : List Token) (callee : Expr) : Respects R (callsFrom expression bound callee) := by
  induction bound generalizing callee with
  | nil => exact respects_pure hR callee
  | cons _ bound ih =>
    refine .bind hR (respects_accept hR _) fun opened => ?_
    split
    · exact .bind hR (respects_separated hR he trivial) fun arguments =>
        .bind hR (respects_expect hR _ trivial) fun paren => ih _
    · exact respects_pure hR callee

/-- A primary expression with the calls behind it. -/
theorem respects_calls {expression : Rule Expr} (he : Respects R expression) :
    Respects R (calls expression) :=
  .bind hR (respects_primary hR he) fun callee => .bind hR (respects_get hR) fun s =>
    respects_callsFrom hR he s.remaining callee

/-- An operand with an operator in front of it, or without. -/
theorem respects_unaryOr {inner operand : Rule Expr} (hi : Respects R inner)
    (ho : Respects R operand) : Respects R (unaryOr inner operand) := by
  refine .bind hR (respects_current hR) fun token => ?_
  split
  · exact .bind hR (respects_advance hR) fun op => .bind hR hi fun e => respects_pure hR _
  · exact ho

/-- The two rules of expressions that nest themselves, by induction on the levels that are left. -/
theorem respects_expression_unary (free : Nat) :
    Respects R (expression free) ∧ Respects R (unary free) := by
  have hfail : Respects R (failHere .tooMuchNesting : Rule Expr) := respects_failHere hR trivial
  induction free with
  -- Without a level left, only operands that open none can be read.
  | zero => exact ⟨hfail, respects_unaryOr hR hfail (respects_calls hR hfail)⟩
  | succ free ih =>
    have he : Respects R (expression (free + 1)) :=
      respects_nested hR (respects_assignment hR ih.1 ih.2)
    exact ⟨he, respects_unaryOr hR (respects_nested hR ih.2) (respects_calls hR he)⟩

/-- Every run of the rule for expressions respects a relation that the steps respect. -/
theorem respects_expression (free : Nat) : Respects R (expression free) :=
  (respects_expression_unary hR free).1

/-! ### Declarations -/

/-- The declaration of a variable, with an initializer or without. -/
theorem respects_variableDeclaration {expression : Rule Expr} (he : Respects R expression) :
    Respects R (variableDeclaration expression) := by
  refine .bind hR (respects_expect hR _ trivial) fun name => .bind hR (respects_accept hR _)
    fun initialized => ?_
  have hend (value : Expr) : Respects R (do
      let _ ← expect Symbol.semicolon .missingEndOfVariable
      return (.variable name value : Stmt Unit)) :=
    .bind hR (respects_expect hR _ trivial) fun _ => respects_pure hR _
  dsimp only
  split
  · exact .bind hR he hend
  · exact .bind hR (respects_pure hR _) hend

/-- The declaration of a function. Its body is read one function body further in. -/
theorem respects_functionDeclaration (hF : FunctionClosed R) {block : Rule (List (Stmt Unit))}
    (hb : Respects R block) : Respects R (functionDeclaration block) :=
  .bind hR (respects_expect hR _ trivial) fun _ =>
    .bind hR (respects_expect hR _ trivial) fun _ =>
    .bind hR (respects_separated hR (respects_expect hR _ trivial) trivial) fun _ =>
    .bind hR (respects_expect hR _ trivial) fun _ =>
    .bind hR (respects_expect hR _ trivial) fun _ =>
    .bind hR (respects_inFunction hF hb) fun _ => respects_pure hR _

/-- Skipping tokens is taking them, one after the other. -/
theorem rel_synchronizedFrom (bound : List Token) (passed : Token) (s : State) :
    R s (synchronizedFrom bound passed s) := by
  induction bound generalizing passed s with
  | nil => exact hR.refl s
  | cons _ bound ih =>
    rw [synchronizedFrom]
    split
    · exact hR.refl s
    · exact hR.trans (hR.advanced s) (ih s.current s.advanced)

/-- Recovery takes the token of the error and skips those behind it. -/
theorem rel_synchronized (s : State) : R s (synchronized s) :=
  hR.trans (hR.advanced s) (rel_synchronizedFrom hR _ _ _)

/-- Behind a rule that fails, its error is recorded and tokens are skipped. -/
theorem rel_recovering {r : Rule α} (hr : Respects R r) (s : State) :
    R s (recovering r s).2 := by
  unfold recovering
  cases h : r s with
  | ok a t => exact hr.of_ok h
  -- The error is recorded at the token where the rule stopped.
  | error e t =>
    obtain ⟨hst, cause, hc, rfl⟩ := hr.of_error h
    exact hR.trans hst (hR.trans (hR.record t hc) (rel_synchronized hR _))

/-- A declaration as it would be without recovery. -/
theorem respects_anyDeclaration (hF : FunctionClosed R) {expression : Rule Expr}
    {statement : Rule (Stmt Unit)} {block : Rule (List (Stmt Unit))} (he : Respects R expression)
    (hs : Respects R statement) (hb : Respects R block) : Respects R (do
      match (← current).kind with
      | .keyword .var_ =>
        let _ ← advance
        variableDeclaration expression
      | .keyword .fun_ =>
        let _ ← advance
        functionDeclaration block
      | _ => statement) := by
  refine .bind hR (respects_current hR) fun token => ?_
  split
  · exact .bind hR (respects_advance hR) fun _ => respects_variableDeclaration hR he
  · exact .bind hR (respects_advance hR) fun _ => respects_functionDeclaration hR hF hb
  · exact hs

/-- A declaration with recovery. It never fails, so all there is to say is about the state behind
    it. -/
theorem rel_declaration (hF : FunctionClosed R) {expression : Rule Expr}
    {statement : Rule (Stmt Unit)} {block : Rule (List (Stmt Unit))} (he : Respects R expression)
    (hs : Respects R statement) (hb : Respects R block) (s : State) :
    R s (declaration expression statement block s).2 :=
  rel_recovering hR (respects_anyDeclaration hR hF he hs hb) s

/-- Declarations one after the other respect what each of them does. -/
theorem rel_declarations_of_rel {declaration : State → Option (Stmt Unit) × State}
    (hd : ∀ s, R s (declaration s).2) (closes : Token.Kind → Bool) (bound : List Token)
    (s : State) : R s (declarations declaration closes bound s).2 := by
  induction bound generalizing s with
  | nil => exact hR.refl s
  | cons _ bound ih =>
    rw [declarations]
    split
    · exact hR.refl s
    · exact hR.trans (hd s) (ih _)

/-- A block is made up of declarations and the brace that closes it. -/
theorem respects_blockContents {declaration : State → Option (Stmt Unit) × State}
    (hd : ∀ s, R s (declaration s).2) : Respects R (blockContents declaration) := by
  intro s
  have hs := rel_declarations_of_rel hR hd (· == .symbol .rightBrace) s.remaining s
  rw [blockContents, get_bind]
  cases h : declarations declaration (· == .symbol .rightBrace) s.remaining s with
  | mk body t =>
    rw [h] at hs
    have hend : Respects R (do
        let _ ← expect Symbol.rightBrace .missingEndOfBlock
        return body) :=
      .bind hR (respects_expect hR _ trivial) fun _ => respects_pure hR _
    exact .of_rel hR hs (hend t)

/-! ### Statements -/

/-- What follows `print`. -/
theorem respects_printStatement {expression : Rule Expr} (he : Respects R expression)
    (keyword : Token) : Respects R (printStatement expression keyword) :=
  .bind hR he fun _ => .bind hR (respects_expect hR _ trivial) fun _ => respects_pure hR _

/-- An expression and a semicolon. -/
theorem respects_expressionStatement {expression : Rule Expr} (he : Respects R expression) :
    Respects R (expressionStatement expression) :=
  .bind hR he fun _ => .bind hR (respects_expect hR _ trivial) fun _ => respects_pure hR _

/-- What follows `return` and is not objected to as such. -/
theorem respects_returnValue {expression : Rule Expr} (he : Respects R expression)
    (keyword : Token) : Respects R (do
      let value ← if ← sees Symbol.semicolon then pure Expr.nil else expression
      let _ ← expect Symbol.semicolon .missingEndOfReturn
      return (.return keyword value : Stmt Unit)) := by
  have hend (value : Expr) : Respects R (do
      let _ ← expect Symbol.semicolon .missingEndOfReturn
      return (.return keyword value : Stmt Unit)) :=
    .bind hR (respects_expect hR _ trivial) fun _ => respects_pure hR _
  refine .bind hR (respects_sees hR _) fun empty => ?_
  dsimp only
  split
  · exact .bind hR (respects_pure hR _) hend
  · exact .bind hR he hend

/-- The keyword of a `return` and what follows it. The two are one step: the objection to the
    keyword is recorded behind those that came up while the keyword was taken. -/
theorem ends_returnStatement (hF : FunctionClosed R) {expression : Rule Expr}
    (he : Respects R expression) {s : State} (hs : s.current.kind = .keyword .return_) :
    Ends R s (returnStatement expression s.current s.advanced) := by
  have hrest := respects_returnValue hR he s.current
  rw [returnStatement, get_bind]
  split
  · next hdepth =>
    rw [State.functionDepth_advanced] at hdepth
    exact .of_rel hR (hF.returned s hs hdepth) (hrest _)
  · exact .of_rel hR (hR.advanced s) (hrest _)

/-- What follows `if`, with an `else` or without. -/
theorem respects_ifStatement {expression : Rule Expr} {statement : Rule (Stmt Unit)}
    (he : Respects R expression) (hs : Respects R statement) :
    Respects R (ifStatement expression statement) := by
  refine .bind hR (respects_expect hR _ trivial) fun _ => .bind hR he fun condition =>
    .bind hR (respects_expect hR _ trivial) fun _ => .bind hR hs fun yes =>
    .bind hR (respects_accept hR _) fun elses => ?_
  split
  · exact .bind hR hs fun no => respects_pure hR _
  · exact respects_pure hR _

/-- What follows `while`. -/
theorem respects_whileStatement {expression : Rule Expr} {statement : Rule (Stmt Unit)}
    (he : Respects R expression) (hs : Respects R statement) :
    Respects R (whileStatement expression statement) :=
  .bind hR (respects_expect hR _ trivial) fun _ => .bind hR he fun _ =>
    .bind hR (respects_expect hR _ trivial) fun _ => .bind hR hs fun _ => respects_pure hR _

/-- The first clause of a `for`, which may be missing. -/
theorem respects_forInitializer {expression : Rule Expr} (he : Respects R expression) :
    Respects R (forInitializer expression) := by
  refine .bind hR (respects_current hR) fun token => ?_
  split
  · exact .bind hR (respects_advance hR) fun _ => respects_pure hR _
  · exact .bind hR (respects_advance hR) fun _ =>
      .bind hR (respects_variableDeclaration hR he) fun s => respects_pure hR _
  · exact .bind hR (respects_expressionStatement hR he) fun s => respects_pure hR _

/-- What follows `for`. Each of the three clauses may be missing. -/
theorem respects_forStatement {expression : Rule Expr} {statement : Rule (Stmt Unit)}
    (he : Respects R expression) (hs : Respects R statement) :
    Respects R (forStatement expression statement) := by
  -- From the end backwards: the parenthesis and the body, the step in front of them, the condition
  -- in front of that.
  have hbody (initializer : Option (Stmt Unit)) (condition : Expr) (step : Option Expr) :
      Respects R (do
        let _ ← expect Symbol.rightParen .missingCloseOfFor
        return Stmt.forLoop initializer condition step (← statement)) :=
    .bind hR (respects_expect hR _ trivial) fun _ => .bind hR hs fun body => respects_pure hR _
  have hstep (initializer : Option (Stmt Unit)) (condition : Expr) : Respects R (do
      let _ ← expect Symbol.semicolon .missingEndOfForCondition
      let step ← if ← sees Symbol.rightParen then pure none else some <$> expression
      let _ ← expect Symbol.rightParen .missingCloseOfFor
      return Stmt.forLoop initializer condition step (← statement)) := by
    refine .bind hR (respects_expect hR _ trivial) fun _ => .bind hR (respects_sees hR _)
      fun noStep => ?_
    dsimp only
    split
    · exact .bind hR (respects_pure hR _) (hbody initializer condition)
    · exact .bind hR (.bind hR he fun e => respects_pure hR _) (hbody initializer condition)
  refine .bind hR (respects_expect hR _ trivial) fun _ =>
    .bind hR (respects_forInitializer hR he) fun initializer => .bind hR (respects_sees hR _)
    fun noCondition => ?_
  dsimp only
  split
  · exact .bind hR (respects_pure hR _) (hstep initializer)
  · exact .bind hR he (hstep initializer)

/-- A statement is told by its first token, which is taken except in front of an expression. -/
theorem respects_anyStatement (hF : FunctionClosed R) {expression : Rule Expr}
    {statement : Rule (Stmt Unit)} {block : Rule (List (Stmt Unit))} (he : Respects R expression)
    (hs : Respects R statement) (hb : Respects R block) :
    Respects R (anyStatement expression statement block) := by
  intro s
  rw [anyStatement, current_bind]
  -- The kind of the token decides; the state itself is needed by `return` only.
  generalize hk : s.current.kind = kind
  split
  · exact .of_rel hR (hR.advanced s) (respects_printStatement hR he _ _)
  · have hblock : Respects R (do return (.block (← block) : Stmt Unit)) :=
      .bind hR hb fun _ => respects_pure hR _
    exact .of_rel hR (hR.advanced s) (hblock _)
  · exact .of_rel hR (hR.advanced s) (respects_ifStatement hR he hs _)
  · exact .of_rel hR (hR.advanced s) (respects_whileStatement hR he hs _)
  · exact .of_rel hR (hR.advanced s) (respects_forStatement hR he hs _)
  · exact ends_returnStatement hR hF he hk
  · exact respects_expressionStatement hR he s

/-- Statements and blocks nest each other: by induction on the levels that are left. -/
theorem respects_statement_block (hF : FunctionClosed R) (free : Nat) :
    Respects R (statement free) ∧ Respects R (block free) := by
  induction free with
  | zero => exact ⟨respects_failHere hR trivial, respects_failHere hR trivial⟩
  | succ free ih =>
    have he := respects_expression hR free
    exact ⟨respects_nested hR (respects_anyStatement hR hF he ih.1 ih.2),
      respects_nested hR (respects_blockContents hR (rel_declaration hR hF he ih.1 ih.2))⟩

/-- Every run of the rule for statements respects a relation that the steps respect. -/
theorem respects_statement (hF : FunctionClosed R) (free : Nat) : Respects R (statement free) :=
  (respects_statement_block hR hF free).1

/-- Every run of the rule for blocks respects a relation that the steps respect. -/
theorem respects_block (hF : FunctionClosed R) (free : Nat) : Respects R (block free) :=
  (respects_statement_block hR hF free).2

/-- Every declaration respects a relation that the steps respect. -/
theorem rel_declaration_free (hF : FunctionClosed R) (free : Nat) (s : State) :
    R s (declaration (expression free) (statement free) (block free) s).2 :=
  rel_declaration hR hF (respects_expression hR free) (respects_statement hR hF free)
    (respects_block hR hF free) s

/-- Reading declarations respects a relation that the steps respect. -/
theorem rel_declarations (hF : FunctionClosed R) (free : Nat) (closes : Token.Kind → Bool)
    (bound : List Token) (s : State) :
    R s (declarations (declaration (expression free) (statement free) (block free)) closes
      bound s).2 :=
  rel_declarations_of_rel hR (rel_declaration_free hR hF free) closes bound s

end

end Grammar

end Lox
