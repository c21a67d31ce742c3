import Lox.Proofs.Grammar.Language
import Lox.Proofs.Grammar.Step

namespace Lox.Grammar

/-!
# How phrases begin

Every phrase takes at least one token, and the kind of its first token tells what it is. This is
what lets the rules decide by the token in front of them, and what makes their loops end.

* `Opens p L` — every phrase of `L` begins with a token of a kind for which `p` holds.
* `startsPrimary`, `startsExpression`, `startsStatement`, `startsDeclaration` — the kinds that begin
  the phrases of the grammar.
* `opens_expression`, `opens_statement`, `opens_declaration` — they do.
-/

/-- The kinds of tokens that begin an operand without a unary operator in front. -/
def startsPrimary : Token.Kind → Bool
  | .keyword .false_ | .keyword .true_ | .keyword .nil_ => true
  | .identifier | .string | .number | .symbol .leftParen => true
  | _ => false

/-- The kinds of tokens that begin an expression. -/
def startsExpression (k : Token.Kind) : Bool := isUnaryOperator k || startsPrimary k

/-- The kinds of tokens that begin a statement. -/
def startsStatement : Token.Kind → Bool
  | .keyword .print_ | .keyword .if_ | .keyword .while_ | .keyword .for_ | .keyword .return_ => true
  | .symbol .leftBrace => true
  | k => startsExpression k

/-- The kinds of tokens that begin a declaration. -/
def startsDeclaration : Token.Kind → Bool
  | .keyword .var_ | .keyword .fun_ => true
  | k => startsStatement k

/-- No primary expression begins with an operator. -/
theorem isUnaryOperator_of_startsPrimary {k : Token.Kind} (h : startsPrimary k = true) :
    isUnaryOperator k = false := by
  unfold isUnaryOperator
  split
  · exact absurd h (by decide)
  · exact absurd h (by decide)
  · rfl

/-- Every primary expression is an expression. -/
theorem startsExpression_of_startsPrimary {k : Token.Kind} (h : startsPrimary k = true) :
    startsExpression k = true := by
  rw [startsExpression, h, Bool.or_true]

/-- An expression can stand as a statement. -/
theorem startsStatement_of_startsExpression {k : Token.Kind} (h : startsExpression k = true) :
    startsStatement k = true := by
  unfold startsStatement
  split
  iterate 6 rfl
  exact h

/-- A statement can stand where declarations do. -/
theorem startsDeclaration_of_startsStatement {k : Token.Kind} (h : startsStatement k = true) :
    startsDeclaration k = true := by
  unfold startsDeclaration
  split
  iterate 2 rfl
  exact h

/-- What begins a declaration is known to the grammar and closes nothing. -/
theorem isKnown_of_startsDeclaration {k : Token.Kind} (h : startsDeclaration k = true) :
    k.IsKnown ∧ k ≠ .eof ∧ k ≠ .symbol .rightBrace := by
  refine ⟨?_, ?_, ?_⟩
  · rintro cause rfl
    exact absurd h (by simp [startsDeclaration, startsStatement, startsExpression, startsPrimary,
      isUnaryOperator])
  · rintro rfl
    exact absurd h (by decide)
  · rintro rfl
    exact absurd h (by decide)

/-! ### First tokens -/

/-- The tokens begin with one of a kind for which `p` holds, and `rest` are tokens behind it. -/
def Begins (p : Token.Kind → Bool) (tokens rest : List Token) : Prop :=
  ∃ token taken, tokens = token :: taken ∧ p token.kind = true ∧ rest <:+ taken

/-- Every phrase of a language takes a token, and the first one is of a kind for which `p`
    holds. -/
def Opens {α : Type} (p : Token.Kind → Bool) (L : Language α) : Prop :=
  ∀ ⦃tokens rest : List Token⦄ ⦃a : α⦄, L tokens a rest → Begins p tokens rest

variable {α : Type} {p q : Token.Kind → Bool}

/-- A phrase that goes on behind another one begins as that one does. -/
theorem Begins.extend {tokens between rest : List Token} (h : Begins p tokens between)
    (hs : rest <:+ between) : Begins p tokens rest := by
  obtain ⟨token, taken, htokens, hk, hs'⟩ := h
  exact ⟨token, taken, htokens, hk, hs.trans hs'⟩

/-- The tokens behind a phrase are the last ones of those that it was read from. -/
theorem Opens.suffix {L : Language α} (h : Opens p L) {tokens rest : List Token} {a : α}
    (hL : L tokens a rest) : rest <:+ tokens := by
  obtain ⟨token, taken, rfl, -, hs⟩ := h hL
  exact hs.trans (List.suffix_cons token taken)

/-- Every phrase takes at least one token. -/
theorem Opens.length_lt {L : Language α} (h : Opens p L) {tokens rest : List Token} {a : α}
    (hL : L tokens a rest) : rest.length < tokens.length := by
  obtain ⟨token, taken, rfl, -, hs⟩ := h hL
  exact Nat.lt_succ_of_le hs.length_le

/-- More kinds of first tokens may be allowed. -/
theorem Opens.mono {L : Language α} (h : Opens p L) (hpq : ∀ k, p k = true → q k = true) :
    Opens q L := by
  intro tokens rest a hL
  obtain ⟨token, taken, htokens, hk, hs⟩ := h hL
  exact ⟨token, taken, htokens, hpq _ hk, hs⟩

/-- There are no phrases that could begin otherwise. -/
theorem opens_none : Opens p (Language.none (α := α)) := fun _ _ _ h => h.elim

/-- What may be missing takes no tokens, or those of its phrase. -/
theorem Maybe.suffix {Item : Language α} (hi : Opens p Item) {tokens rest : List Token}
    {a : Option α} (h : Maybe Item tokens a rest) : rest <:+ tokens := by
  cases h with
  | missing => exact List.suffix_refl tokens
  | given h => exact hi.suffix h

/-- Phrases that follow one another take tokens one after the other. -/
theorem Repeated.suffix {Item : Language α} (hi : Opens p Item) {tokens rest : List Token}
    {as : List α} (h : Repeated Item tokens as rest) : rest <:+ tokens := by
  induction h with
  | nil tokens => exact List.suffix_refl tokens
  | cons h _ ih => exact ih.trans (hi.suffix h)

/-- A list begins with its first item. -/
theorem Separated.opens {Item : Language α} (hi : Opens p Item) : Opens p (Separated Item) := by
  intro tokens rest as h
  induction h with
  | last h => exact hi h
  | cons h _ _ ih =>
    obtain ⟨token, taken, rfl, hk, hs⟩ := hi h
    -- Behind the item stand the comma and what the others take.
    obtain ⟨_, _, rfl, -, hs'⟩ := ih
    exact ⟨token, taken, rfl, hk,
      hs'.trans <| (List.suffix_cons _ _).trans <| (List.suffix_cons _ _).trans hs⟩

/-- A list that may be empty takes no tokens, or those of its items. -/
theorem Listed.suffix {Item : Language α} (hi : Opens p Item) {tokens rest : List Token}
    {as : List α} (h : Listed Item tokens as rest) : rest <:+ tokens := by
  cases h with
  | none => exact List.suffix_refl tokens
  | some h _ => exact (Separated.opens hi).suffix h

/-! ### Expressions -/

section

variable {Expression Operand Inner : Language Expr}

/-- A chain begins with its first operand. -/
theorem opens_chain {isOperator : Token.Kind → Bool} {join : Expr → Token → Expr → Expr}
    (ho : Opens p Operand) : Opens p (Chain isOperator join Operand) := by
  intro tokens rest e h
  induction h with
  | operand h => exact ho h
  | operator _ _ hright ih =>
    exact .extend ih ((ho.suffix hright).trans (List.suffix_cons _ _))

/-- Six chains within one another begin with the innermost operand. -/
theorem opens_disjunction (ho : Opens p Operand) : Opens p (Disjunction Operand) :=
  opens_chain (opens_chain (opens_chain (opens_chain (opens_chain (opens_chain ho)))))

/-- An assignment begins with a name. -/
theorem opens_assignment (he : Opens startsExpression Expression)
    (ho : Opens startsExpression Operand) :
    Opens startsExpression (Assignment Expression Operand) := by
  intro tokens rest e h
  cases h with
  | assign hname hequal hvalue =>
    refine ⟨_, _, rfl, by rw [hname]; rfl, ?_⟩
    exact (he.suffix hvalue).trans (List.suffix_cons _ _)
  | disjunction h => exact opens_disjunction ho h

/-- The first token of a primary expression tells what it is. -/
theorem opens_primary (he : Opens startsExpression Expression) :
    Opens startsPrimary (Primary Expression) := by
  intro tokens rest e h
  cases h with
  | falsehood rest hk => exact ⟨_, _, rfl, by rw [hk]; rfl, List.suffix_refl rest⟩
  | truth rest hk => exact ⟨_, _, rfl, by rw [hk]; rfl, List.suffix_refl rest⟩
  | nil rest hk => exact ⟨_, _, rfl, by rw [hk]; rfl, List.suffix_refl rest⟩
  | literal rest hk _ =>
    refine ⟨_, _, rfl, ?_, List.suffix_refl rest⟩
    rcases hk with hk | hk
    · rw [hk]; rfl
    · rw [hk]; rfl
  | name rest hk => exact ⟨_, _, rfl, by rw [hk]; rfl, List.suffix_refl rest⟩
  | group hopen hinner _ =>
    refine ⟨_, _, rfl, by rw [hopen]; rfl, ?_⟩
    exact (List.suffix_cons _ _).trans (he.suffix hinner)

/-- A call begins with what is called. -/
theorem opens_calls (he : Opens startsExpression Expression) :
    Opens startsPrimary (Calls Expression) := by
  intro tokens rest e h
  induction h with
  | primary h => exact opens_primary he h
  | call _ _ hlist _ ih =>
    exact .extend ih <|
      (List.suffix_cons _ _).trans ((hlist.suffix he).trans (List.suffix_cons _ _))

/-- An operator in front, or what a call begins with. -/
theorem opens_unaryOr (hi : Opens startsExpression Inner)
    (he : Opens startsExpression Expression) :
    Opens startsExpression (UnaryOr Inner (Calls Expression)) := by
  intro tokens rest e h
  cases h with
  | operator hk h => exact ⟨_, _, rfl, by rw [startsExpression, hk, Bool.true_or], hi.suffix h⟩
  | operand h => exact (opens_calls he).mono (fun _ => startsExpression_of_startsPrimary) h

/-- Expressions open alike at every level of nesting. -/
theorem opens_expression_unary (free : Nat) :
    Opens startsExpression (Grammar.Expression free) ∧ Opens startsExpression (Unary free) := by
  induction free with
  | zero => exact ⟨opens_none, opens_unaryOr opens_none opens_none⟩
  | succ free ih =>
    have he : Opens startsExpression (Grammar.Expression (free + 1)) := opens_assignment ih.1 ih.2
    exact ⟨he, opens_unaryOr ih.2 he⟩

/-- Every expression begins with a token that `startsExpression` allows. -/
theorem opens_expression (free : Nat) : Opens startsExpression (Grammar.Expression free) :=
  (opens_expression_unary free).1

end

/-! ### Statements and declarations -/

section

variable {Expression : Language Expr} {Statement : Language (Stmt Unit)}
  {Body : Language (List (Stmt Unit))}

/-- The name of a parameter begins with itself. -/
theorem opens_name : Opens (· == .identifier) Name := by
  intro tokens rest name h
  cases h with
  | name rest hk => exact ⟨_, _, rfl, by simp [hk], List.suffix_refl rest⟩

/-- Behind `var` stands a name. -/
theorem opens_variableDeclaration (he : Opens startsExpression Expression) :
    Opens (· == .identifier) (VariableDeclaration Expression) := by
  intro tokens rest s h
  cases h with
  | initialized hname _ hvalue _ =>
    refine ⟨_, _, rfl, by simp [hname], ?_⟩
    exact (List.suffix_cons _ _).trans ((he.suffix hvalue).trans (List.suffix_cons _ _))
  | bare rest hname _ => exact ⟨_, _, rfl, by simp [hname], List.suffix_cons _ _⟩

/-- An expression statement begins with its expression. -/
theorem opens_expressionStatement (he : Opens startsExpression Expression) :
    Opens startsExpression (ExpressionStatement Expression) := by
  intro tokens rest s h
  cases h with
  | expression h _ => exact .extend (he h) (List.suffix_cons _ _)

/-- Every initializer takes a token, be it the semicolon alone. -/
theorem opens_initializer (he : Opens startsExpression Expression) :
    Opens (fun _ => true) (Initializer Expression) := by
  intro tokens rest s h
  cases h with
  | none rest _ => exact ⟨_, _, rfl, rfl, List.suffix_refl rest⟩
  | «variable» _ h => exact ⟨_, _, rfl, rfl, (opens_variableDeclaration he).suffix h⟩
  | expression h => exact (opens_expressionStatement he).mono (fun _ _ => rfl) h

/-- A statement begins with its keyword, with a brace or with an expression. -/
theorem opens_anyStatement {inside : Bool} (he : Opens startsExpression Expression)
    (hs : Opens startsStatement Statement)
    (hb : ∀ {tokens body rest}, Body tokens body rest → rest <:+ tokens) :
    Opens startsStatement (AnyStatement inside Expression Statement Body) := by
  intro tokens rest s h
  cases h with
  | print hk h _ =>
    exact ⟨_, _, rfl, by rw [hk]; rfl, (List.suffix_cons _ _).trans (he.suffix h)⟩
  | block hk h => exact ⟨_, _, rfl, by rw [hk]; rfl, hb h⟩
  | ifThen hk _ hc _ hyes _ =>
    -- The parts are passed from the last one to the first, and so in the cases that follow.
    refine ⟨_, _, rfl, by rw [hk]; rfl, ?_⟩
    exact (hs.suffix hyes).trans <| (List.suffix_cons _ _).trans <|
      (he.suffix hc).trans (List.suffix_cons _ _)
  | ifElse hk _ hc _ hyes _ hno =>
    refine ⟨_, _, rfl, by rw [hk]; rfl, ?_⟩
    exact (hs.suffix hno).trans <| (List.suffix_cons _ _).trans <| (hs.suffix hyes).trans <|
      (List.suffix_cons _ _).trans <| (he.suffix hc).trans (List.suffix_cons _ _)
  | «while» hk _ hc _ hbody =>
    refine ⟨_, _, rfl, by rw [hk]; rfl, ?_⟩
    exact (hs.suffix hbody).trans <| (List.suffix_cons _ _).trans <|
      (he.suffix hc).trans (List.suffix_cons _ _)
  | «for» hk _ hinit hc _ hstep _ hbody =>
    refine ⟨_, _, rfl, by rw [hk]; rfl, ?_⟩
    exact (hs.suffix hbody).trans <| (List.suffix_cons _ _).trans <| (hstep.suffix he).trans <|
      (List.suffix_cons _ _).trans <| (hc.suffix he).trans <|
      ((opens_initializer he).suffix hinit).trans (List.suffix_cons _ _)
  | «return» _ hk hvalue _ =>
    exact ⟨_, _, rfl, by rw [hk]; rfl, (List.suffix_cons _ _).trans (hvalue.suffix he)⟩
  | expression h =>
    exact (opens_expressionStatement he).mono (fun _ => startsStatement_of_startsExpression) h

/-- A function declaration ends where its body does. -/
theorem FunctionDeclaration.suffix
    (hb : ∀ {tokens body rest}, Body tokens body rest → rest <:+ tokens)
    {tokens rest : List Token} {s : Stmt Unit} (h : FunctionDeclaration Body tokens s rest) :
    rest <:+ tokens := by
  cases h with
  | function _ _ hlist _ _ hbody =>
    exact (hb hbody).trans <| (List.suffix_cons _ _).trans <| (List.suffix_cons _ _).trans <|
      (hlist.suffix opens_name).trans <| (List.suffix_cons _ _).trans (List.suffix_cons _ _)

/-- A declaration begins with `var`, with `fun` or with a statement. -/
theorem opens_anyDeclaration (he : Opens startsExpression Expression)
    (hs : Opens startsStatement Statement)
    (hb : ∀ {tokens body rest}, Body tokens body rest → rest <:+ tokens) :
    Opens startsDeclaration (AnyDeclaration Expression Statement Body) := by
  intro tokens rest s h
  cases h with
  | «variable» hk h =>
    exact ⟨_, _, rfl, by rw [hk]; rfl, (opens_variableDeclaration he).suffix h⟩
  | function hk h => exact ⟨_, _, rfl, by rw [hk]; rfl, h.suffix hb⟩
  | statement h => exact hs.mono (fun _ => startsDeclaration_of_startsStatement) h

/-- Statements open alike at every level of nesting, and blocks take tokens from the front. -/
theorem opens_statement_block (free : Nat) (inside : Bool) :
    Opens startsStatement (Grammar.Statement free inside) ∧
      ∀ {tokens body rest}, Block free inside tokens body rest → rest <:+ tokens := by
  induction free generalizing inside with
  | zero => exact ⟨opens_none, fun h => h.elim⟩
  | succ free ih =>
    have he := opens_expression free
    refine ⟨opens_anyStatement he (ih inside).1 (ih inside).2, ?_⟩
    intro tokens body rest h
    cases h with
    | close h _ =>
      exact (List.suffix_cons _ _).trans
        (h.suffix (opens_anyDeclaration he (ih inside).1 (ih true).2))

/-- Every statement begins with a token that `startsStatement` allows. -/
theorem opens_statement (free : Nat) (inside : Bool) :
    Opens startsStatement (Grammar.Statement free inside) :=
  (opens_statement_block free inside).1

/-- Every declaration begins with a token that `startsDeclaration` allows. -/
theorem opens_declaration (free : Nat) (inside : Bool) :
    Opens startsDeclaration (Declaration free inside) :=
  opens_anyDeclaration (opens_expression free) (opens_statement free inside)
    (opens_statement_block free true).2

end

end Lox.Grammar
