import Lox.Grammar

namespace Lox.Grammar

/-!
# The grammar as relations

Which tokens are which phrases, said without reference to how they are read. A language relates
tokens to a tree and to the tokens behind the phrase, so phrases are put together by leaving to the
next what one leaves.

As for the rules, the languages of whole expressions, statements and blocks are given as arguments
to the languages above them, and only `Expression`, `Unary`, `Statement` and `Block` tie the knot.
They are counted by the levels of nesting that may still be opened: an expression, the operand of
a unary operator, a statement and a block open one level each.

* `Language` — phrases with their trees.
* `Chain`, `Assignment`, `Unary`, `Calls`, `Primary` — expressions by how strongly they bind.
* `Statement`, `Block`, `Declaration`, `Program` — the phrases that programs are made of.
-/

/-- How tokens read as trees. In `L tokens a rest`, the tokens begin with a phrase whose tree is
    `a`, and `rest` are the tokens behind the phrase. -/
abbrev Language (α : Type) := List Token → α → List Token → Prop

/-- The language without phrases. -/
def Language.none {α : Type} : Language α := fun _ _ _ => False

variable {α : Type}

/-! ### Lists of phrases -/

/-- A phrase, or nothing. -/
inductive Maybe (Item : Language α) : Language (Option α)
  | missing (tokens : List Token) : Maybe Item tokens .none tokens
  | given {tokens rest : List Token} {a : α} : Item tokens a rest → Maybe Item tokens (some a) rest

/-- Phrases one behind the other. -/
inductive Repeated (Item : Language α) : Language (List α)
  | nil (tokens : List Token) : Repeated Item tokens [] tokens
  | cons {tokens between rest : List Token} {a : α} {as : List α} :
      Item tokens a between → Repeated Item between as rest → Repeated Item tokens (a :: as) rest

/-- One phrase or more, with commas between them. -/
inductive Separated (Item : Language α) : Language (List α)
  | last {tokens rest : List Token} {a : α} : Item tokens a rest → Separated Item tokens [a] rest
  | cons {tokens between rest : List Token} {comma : Token} {a : α} {as : List α} :
      Item tokens a (comma :: between) → comma.kind = Symbol.comma →
      Separated Item between as rest → Separated Item tokens (a :: as) rest

/-- The items of a list in parentheses: none, or at most `maxArguments` with commas between
    them. -/
inductive Listed (Item : Language α) : Language (List α)
  | none (tokens : List Token) : Listed Item tokens [] tokens
  | some {tokens rest : List Token} {as : List α} :
      Separated Item tokens as rest → as.length ≤ maxArguments → Listed Item tokens as rest

/-! ### Expressions -/

/-- Operands with operators of one level between them. The tree grows to the left: what stands on
    the left of the last operator is one operand of it. -/
inductive Chain (isOperator : Token.Kind → Bool) (join : Expr → Token → Expr → Expr)
    (Operand : Language Expr) : Language Expr
  | operand {tokens rest : List Token} {e : Expr} :
      Operand tokens e rest → Chain isOperator join Operand tokens e rest
  | operator {tokens between rest : List Token} {op : Token} {left right : Expr} :
      Chain isOperator join Operand tokens left (op :: between) → isOperator op.kind = true →
      Operand between right rest → Chain isOperator join Operand tokens (join left op right) rest

/-- Products of operands. -/
def Product (Operand : Language Expr) : Language Expr := Chain isFactorOperator .binary Operand

/-- Sums of products. -/
def Sum (Operand : Language Expr) : Language Expr :=
  Chain isTermOperator .binary (Product Operand)

/-- Comparisons of sums. -/
def Comparison (Operand : Language Expr) : Language Expr :=
  Chain isComparison .binary (Sum Operand)

/-- Equalities of comparisons. -/
def Equality (Operand : Language Expr) : Language Expr :=
  Chain isEquality .binary (Comparison Operand)

/-- Equalities joined by `and`. -/
def Conjunction (Operand : Language Expr) : Language Expr :=
  Chain (· == .keyword .and_) .logical (Equality Operand)

/-- Conjunctions joined by `or`. -/
def Disjunction (Operand : Language Expr) : Language Expr :=
  Chain (· == .keyword .or_) .logical (Conjunction Operand)

/-- A disjunction, or a name with `=` and an expression behind it. -/
inductive Assignment (Expression Operand : Language Expr) : Language Expr
  | assign {name equal : Token} {tokens rest : List Token} {value : Expr} :
      name.kind = .identifier → equal.kind = Symbol.equal → Expression tokens value rest →
      Assignment Expression Operand (name :: equal :: tokens) (.assign name value) rest
  | disjunction {tokens rest : List Token} {e : Expr} :
      Disjunction Operand tokens e rest → Assignment Expression Operand tokens e rest

/-- A literal, a name or an expression in parentheses. -/
inductive Primary (Expression : Language Expr) : Language Expr
  | falsehood {token : Token} (rest : List Token) :
      token.kind = Keyword.false_ →
      Primary Expression (token :: rest) (.constant (.bool false)) rest
  | truth {token : Token} (rest : List Token) :
      token.kind = Keyword.true_ → Primary Expression (token :: rest) (.constant (.bool true)) rest
  | nil {token : Token} (rest : List Token) :
      token.kind = Keyword.nil_ → Primary Expression (token :: rest) (.constant .nil) rest
  | literal {token : Token} {value : Literal} (rest : List Token) :
      token.kind = .number ∨ token.kind = .string → token.literal = some value →
      Primary Expression (token :: rest) (.constant (.ofLiteral value)) rest
  | name {token : Token} (rest : List Token) :
      token.kind = .identifier → Primary Expression (token :: rest) (.name token) rest
  | group {opening closing : Token} {tokens rest : List Token} {inner : Expr} :
      opening.kind = Symbol.leftParen → Expression tokens inner (closing :: rest) →
      closing.kind = Symbol.rightParen → Primary Expression (opening :: tokens) (.group inner) rest

/-- A primary expression with any number of argument lists behind it. -/
inductive Calls (Expression : Language Expr) : Language Expr
  | primary {tokens rest : List Token} {e : Expr} :
      Primary Expression tokens e rest → Calls Expression tokens e rest
  | call {tokens between rest : List Token} {opening closing : Token} {callee : Expr}
      {arguments : List Expr} :
      Calls Expression tokens callee (opening :: between) → opening.kind = Symbol.leftParen →
      Listed Expression between arguments (closing :: rest) → closing.kind = Symbol.rightParen →
      Calls Expression tokens (.call callee closing arguments) rest

/-- A unary operator with its operand, or what has no such operator in front. -/
inductive UnaryOr (Inner Operand : Language Expr) : Language Expr
  | operator {op : Token} {tokens rest : List Token} {e : Expr} :
      isUnaryOperator op.kind = true → Inner tokens e rest →
      UnaryOr Inner Operand (op :: tokens) (.unary op e) rest
  | operand {tokens rest : List Token} {e : Expr} :
      Operand tokens e rest → UnaryOr Inner Operand tokens e rest

mutual

/-- Expressions, with `free` levels of nesting left to open. -/
def Expression : (free : Nat) → Language Expr
  | 0 => .none
  | free + 1 => Assignment (Expression free) (Unary free)

/-- Operands of products, with `free` levels of nesting left to open. -/
def Unary : (free : Nat) → Language Expr
  | 0 => UnaryOr .none (Calls .none)
  | free + 1 => UnaryOr (Unary free) (Calls (Assignment (Expression free) (Unary free)))

end

/-! ### Names among the expressions

Only a single token reads as a name, so the target of an assignment is one token. -/

/-- In the language, a name is one identifier. -/
def NamesAreTokens (L : Language Expr) : Prop :=
  ∀ ⦃tokens rest : List Token⦄ ⦃name : Token⦄, L tokens (.name name) rest →
    name.kind = .identifier ∧ tokens = name :: rest

/-- A chain that is a name is one token, since joining never makes a name. -/
theorem NamesAreTokens.chain {isOperator : Token.Kind → Bool} {join : Expr → Token → Expr → Expr}
    {Operand : Language Expr} (h : NamesAreTokens Operand)
    (hjoin : ∀ left op right name, join left op right ≠ .name name) :
    NamesAreTokens (Chain isOperator join Operand) := by
  intro tokens rest name hc
  generalize he : Expr.name name = e at hc
  cases hc with
  | operand ho => exact h (he ▸ ho)
  | operator => exact absurd he.symm (hjoin _ _ _ _)

/-- A disjunction that is a name is one token, if an operand is. -/
theorem NamesAreTokens.disjunction {Operand : Language Expr} (h : NamesAreTokens Operand) :
    NamesAreTokens (Disjunction Operand) := by
  have hbinary (left : Expr) (op : Token) (right : Expr) (name : Token) :
      Expr.binary left op right ≠ .name name := by simp
  have hlogical (left : Expr) (op : Token) (right : Expr) (name : Token) :
      Expr.logical left op right ≠ .name name := by simp
  have h₁ : NamesAreTokens (Product Operand) := h.chain hbinary
  have h₂ : NamesAreTokens (Sum Operand) := h₁.chain hbinary
  have h₃ : NamesAreTokens (Comparison Operand) := h₂.chain hbinary
  have h₄ : NamesAreTokens (Equality Operand) := h₃.chain hbinary
  have h₅ : NamesAreTokens (Conjunction Operand) := h₄.chain hlogical
  exact h₅.chain hlogical

/-- An operand that is a name is one token. -/
theorem NamesAreTokens.unaryOr {Inner Expression : Language Expr} :
    NamesAreTokens (UnaryOr Inner (Calls Expression)) := by
  intro tokens rest name h
  cases h with
  | operand h =>
    cases h with
    | primary h =>
      cases h with
      | name rest hk => exact ⟨hk, rfl⟩

/-- On each level, an operand that is a name is one token. -/
theorem namesAreTokens_unary (free : Nat) : NamesAreTokens (Unary free) := by
  cases free with
  | zero => exact NamesAreTokens.unaryOr
  | succ free => exact NamesAreTokens.unaryOr

/-! ### Statements -/

/-- What follows `var`: a name, perhaps an initializer, and a semicolon. -/
inductive VariableDeclaration (Expression : Language Expr) : Language (Stmt Unit)
  | initialized {name equal semicolon : Token} {tokens rest : List Token} {value : Expr} :
      name.kind = .identifier → equal.kind = Symbol.equal →
      Expression tokens value (semicolon :: rest) → semicolon.kind = Symbol.semicolon →
      VariableDeclaration Expression (name :: equal :: tokens) (.variable name value) rest
  | bare {name semicolon : Token} (rest : List Token) :
      name.kind = .identifier → semicolon.kind = Symbol.semicolon →
      VariableDeclaration Expression (name :: semicolon :: rest) (.variable name .nil) rest

/-- An expression with a semicolon behind it. -/
inductive ExpressionStatement (Expression : Language Expr) : Language (Stmt Unit)
  | expression {tokens rest : List Token} {semicolon : Token} {value : Expr} :
      Expression tokens value (semicolon :: rest) → semicolon.kind = Symbol.semicolon →
      ExpressionStatement Expression tokens (.expression value) rest

/-- The first clause of a `for` with its semicolon: nothing, a variable or an expression. -/
inductive Initializer (Expression : Language Expr) : Language (Option (Stmt Unit))
  | none {semicolon : Token} (rest : List Token) :
      semicolon.kind = Symbol.semicolon → Initializer Expression (semicolon :: rest) .none rest
  | variable {keyword : Token} {tokens rest : List Token} {s : Stmt Unit} :
      keyword.kind = Keyword.var_ → VariableDeclaration Expression tokens s rest →
      Initializer Expression (keyword :: tokens) (some s) rest
  | expression {tokens rest : List Token} {s : Stmt Unit} :
      ExpressionStatement Expression tokens s rest → Initializer Expression tokens (some s) rest

/-- The tokens do not begin with `else`. -/
def NoElse (tokens : List Token) : Prop :=
  ∀ token ∈ tokens.head?, token.kind ≠ Keyword.else_

/-- A statement. `inside` tells whether it stands in the body of a function, where alone there are
    `return` statements. An `if` takes the `else` that follows its branch; so an `if` without
    `else` is not followed by one. -/
inductive AnyStatement (inside : Bool) (Expression : Language Expr)
    (Statement : Language (Stmt Unit)) (Block : Language (List (Stmt Unit))) :
    Language (Stmt Unit)
  | print {keyword semicolon : Token} {tokens rest : List Token} {value : Expr} :
      keyword.kind = Keyword.print_ → Expression tokens value (semicolon :: rest) →
      semicolon.kind = Symbol.semicolon →
      AnyStatement inside Expression Statement Block (keyword :: tokens) (.print keyword value) rest
  | block {opening : Token} {tokens rest : List Token} {body : List (Stmt Unit)} :
      opening.kind = Symbol.leftBrace → Block tokens body rest →
      AnyStatement inside Expression Statement Block (opening :: tokens) (.block body) rest
  | ifThen {keyword opening closing : Token} {tokens between rest : List Token}
      {condition : Expr} {yes : Stmt Unit} :
      keyword.kind = Keyword.if_ → opening.kind = Symbol.leftParen →
      Expression tokens condition (closing :: between) → closing.kind = Symbol.rightParen →
      Statement between yes rest → NoElse rest →
      AnyStatement inside Expression Statement Block (keyword :: opening :: tokens)
        (.ifThen condition yes) rest
  | ifElse {keyword opening closing other : Token} {tokens between behind rest : List Token}
      {condition : Expr} {yes no : Stmt Unit} :
      keyword.kind = Keyword.if_ → opening.kind = Symbol.leftParen →
      Expression tokens condition (closing :: between) → closing.kind = Symbol.rightParen →
      Statement between yes (other :: behind) → other.kind = Keyword.else_ →
      Statement behind no rest →
      AnyStatement inside Expression Statement Block (keyword :: opening :: tokens)
        (.ifElse condition yes no) rest
  | while {keyword opening closing : Token} {tokens between rest : List Token} {condition : Expr}
      {body : Stmt Unit} :
      keyword.kind = Keyword.while_ → opening.kind = Symbol.leftParen →
      Expression tokens condition (closing :: between) → closing.kind = Symbol.rightParen →
      Statement between body rest →
      AnyStatement inside Expression Statement Block (keyword :: opening :: tokens)
        (.while condition body) rest
  | for {keyword opening semicolon closing : Token}
      {tokens conditions steps bodies rest : List Token} {initializer : Option (Stmt Unit)}
      {condition step : Option Expr} {body : Stmt Unit} :
      keyword.kind = Keyword.for_ → opening.kind = Symbol.leftParen →
      Initializer Expression tokens initializer conditions →
      Maybe Expression conditions condition (semicolon :: steps) →
      semicolon.kind = Symbol.semicolon →
      Maybe Expression steps step (closing :: bodies) → closing.kind = Symbol.rightParen →
      Statement bodies body rest →
      AnyStatement inside Expression Statement Block (keyword :: opening :: tokens)
        (.forLoop initializer (condition.getD (.constant (.bool true))) step body) rest
  | return {keyword semicolon : Token} {tokens rest : List Token} {value : Option Expr} :
      inside = true → keyword.kind = Keyword.return_ →
      Maybe Expression tokens value (semicolon :: rest) → semicolon.kind = Symbol.semicolon →
      AnyStatement inside Expression Statement Block (keyword :: tokens)
        (.return keyword (value.getD .nil)) rest
  | expression {tokens rest : List Token} {s : Stmt Unit} :
      ExpressionStatement Expression tokens s rest →
      AnyStatement inside Expression Statement Block tokens s rest

/-! ### Declarations -/

/-- One name. -/
inductive Name : Language Token
  | name {token : Token} (rest : List Token) :
      token.kind = .identifier → Name (token :: rest) token rest

/-- What follows `fun`: a name, parameters in parentheses, and a body behind its opening brace. -/
inductive FunctionDeclaration (Body : Language (List (Stmt Unit))) : Language (Stmt Unit)
  | function {name opening closing brace : Token} {tokens bodies rest : List Token}
      {parameters : List Token} {body : List (Stmt Unit)} :
      name.kind = .identifier → opening.kind = Symbol.leftParen →
      Listed Name tokens parameters (closing :: brace :: bodies) →
      closing.kind = Symbol.rightParen → brace.kind = Symbol.leftBrace → Body bodies body rest →
      FunctionDeclaration Body (name :: opening :: tokens) (.function () name parameters body) rest

/-- A declaration of a variable or a function, or a statement. -/
inductive AnyDeclaration (Expression : Language Expr) (Statement : Language (Stmt Unit))
    (Body : Language (List (Stmt Unit))) : Language (Stmt Unit)
  | variable {keyword : Token} {tokens rest : List Token} {s : Stmt Unit} :
      keyword.kind = Keyword.var_ → VariableDeclaration Expression tokens s rest →
      AnyDeclaration Expression Statement Body (keyword :: tokens) s rest
  | function {keyword : Token} {tokens rest : List Token} {s : Stmt Unit} :
      keyword.kind = Keyword.fun_ → FunctionDeclaration Body tokens s rest →
      AnyDeclaration Expression Statement Body (keyword :: tokens) s rest
  | statement {tokens rest : List Token} {s : Stmt Unit} :
      Statement tokens s rest → AnyDeclaration Expression Statement Body tokens s rest

/-- Declarations with a closing brace behind them. -/
inductive BlockContents (Declaration : Language (Stmt Unit)) : Language (List (Stmt Unit))
  | close {tokens rest : List Token} {closing : Token} {body : List (Stmt Unit)} :
      Repeated Declaration tokens body (closing :: rest) → closing.kind = Symbol.rightBrace →
      BlockContents Declaration tokens body rest

mutual

/-- Statements, with `free` levels of nesting left to open. -/
def Statement : (free : Nat) → (inside : Bool) → Language (Stmt Unit)
  | 0, _ => .none
  | free + 1, inside =>
    AnyStatement inside (Expression free) (Statement free inside) (Block free inside)

/-- What follows an opening brace, with `free` levels of nesting left to open. The body of a
    function is a block, too. -/
def Block : (free : Nat) → (inside : Bool) → Language (List (Stmt Unit))
  | 0, _ => .none
  | free + 1, inside =>
    BlockContents (AnyDeclaration (Expression free) (Statement free inside) (Block free true))

end

/-- Declarations, with `free` levels of nesting left to open. -/
def Declaration (free : Nat) (inside : Bool) : Language (Stmt Unit) :=
  AnyDeclaration (Expression free) (Statement free inside) (Block free true)

/-- Programs. They stand outside of all functions. -/
def Program : Language (List (Stmt Unit)) := Repeated (Declaration maxNesting false)

end Lox.Grammar
