import Lox.Grammar.Rule

namespace Lox.Grammar

/-!
# Expressions

The grammar of expressions, one rule per level of binding: assignment binds least, then `or`,
`and`, equality, comparison, sums, products, unary operators, calls. Binary operators associate to
the left; assignment and unary operators nest to the right.

The rules for whole expressions and for operands are given as arguments to the rules below them.
Only `expression` and `unary` tie the knot, by recursion on the number of levels that may still be
opened.

* `chain` — operands with left-associative operators between them.
* `assignment`, `calls`, `primary` — the levels that are not chains.
* `expression`, `unary` — whole expressions, and operands of products.
-/

/-! ### Chains of operators -/

/-- Extends a chain that has been read up to `left`. -/
def chainFrom (isOperator : Token.Kind → Bool) (join : Expr → Token → Expr → Expr)
    (operand : Rule Expr) : (bound : List Token) → (left : Expr) → Rule Expr
  | [], left => return left
  | _ :: bound, left => do
    if isOperator (← current).kind then
      let op ← advance
      let right ← operand
      chainFrom isOperator join operand bound (join left op right)
    else
      return left

/-- Operands with operators of one level between them, joined from the left. -/
def chain (isOperator : Token.Kind → Bool) (join : Expr → Token → Expr → Expr)
    (operand : Rule Expr) : Rule Expr := do
  let first ← operand
  chainFrom isOperator join operand (← get).remaining first

/-- Whether a token is an operator of products. -/
def isFactorOperator : Token.Kind → Bool
  | .symbol .star | .symbol .slash => true
  | _ => false

/-- Whether a token is an operator of sums. -/
def isTermOperator : Token.Kind → Bool
  | .symbol .plus | .symbol .minus => true
  | _ => false

/-- Whether a token compares numbers. -/
def isComparison : Token.Kind → Bool
  | .symbol .greater | .symbol .greaterEqual | .symbol .less | .symbol .lessEqual => true
  | _ => false

/-- Whether a token compares values for equality. -/
def isEquality : Token.Kind → Bool
  | .symbol .bangEqual | .symbol .equalEqual => true
  | _ => false

/-- Whether a token is a unary operator. -/
def isUnaryOperator : Token.Kind → Bool
  | .symbol .bang | .symbol .minus => true
  | _ => false

/-- Products of operands. -/
def product (operand : Rule Expr) : Rule Expr := chain isFactorOperator .binary operand

/-- Sums of products. -/
def sum (operand : Rule Expr) : Rule Expr := chain isTermOperator .binary (product operand)

/-- Comparisons of sums. -/
def comparison (operand : Rule Expr) : Rule Expr := chain isComparison .binary (sum operand)

/-- Equalities of comparisons. -/
def equality (operand : Rule Expr) : Rule Expr := chain isEquality .binary (comparison operand)

/-- Equalities joined by `and`. -/
def conjunction (operand : Rule Expr) : Rule Expr :=
  chain (· == .keyword .and_) .logical (equality operand)

/-- Conjunctions joined by `or`. -/
def disjunction (operand : Rule Expr) : Rule Expr :=
  chain (· == .keyword .or_) .logical (conjunction operand)

/-! ### Assignments -/

/-- A disjunction, or an assignment to a name. The value is again an `expression`. A target that is
    no name is objected to at the `=` and stands for the whole assignment. -/
def assignment (expression operand : Rule Expr) : Rule Expr := do
  let target ← disjunction operand
  if ← sees Symbol.equal then
    match target with
    | .name name =>
      let _ ← advance
      return .assign name (← expression)
    | _ =>
      note (← current) .invalidAssignmentTarget
      let _ ← advance
      let _ ← expression
      return target
  else
    return target

/-! ### Operands -/

/-- A literal, a name or an `expression` in parentheses. The literal of a number or string token is
    taken as it is; a token that lacks one does not start an expression. -/
def primary (expression : Rule Expr) : Rule Expr := do
  let token ← current
  match token.kind with
  | .keyword .false_ => constant (.bool false)
  | .keyword .true_ => constant (.bool true)
  | .keyword .nil_ => constant .nil
  | .number | .string =>
    match token.literal with
    | some literal => constant (.ofLiteral literal)
    | none => failHere .missingExpression
  | .identifier => return .name (← advance)
  | .symbol .leftParen =>
    let _ ← advance
    let inner ← expression
    let _ ← expect Symbol.rightParen .missingCloseOfGroup
    return .group inner
  | _ => failHere .missingExpression
where
  /-- Takes the current token, which stands for a constant. -/
  constant (c : Constant) : Rule Expr := do
    let _ ← advance
    return .constant c

/-- Extends a call that has been read up to `callee`. -/
def callsFrom (expression : Rule Expr) : (bound : List Token) → (callee : Expr) → Rule Expr
  | [], callee => return callee
  | _ :: bound, callee => do
    if ← accept Symbol.leftParen then
      let arguments ← separated expression .tooManyArguments
      let paren ← expect Symbol.rightParen .missingCloseOfArguments
      callsFrom expression bound (.call callee paren arguments)
    else
      return callee

/-- A primary expression with any number of argument lists behind it. -/
def calls (expression : Rule Expr) : Rule Expr := do
  let callee ← primary expression
  callsFrom expression (← get).remaining callee

/-- An operator with the operand that `inner` reads, or else a call. -/
def unaryOr (inner operand : Rule Expr) : Rule Expr := do
  if isUnaryOperator (← current).kind then
    let op ← advance
    return .unary op (← inner)
  else
    operand

/-! ### The recursion -/

mutual

/-- An expression, with `free` levels of nesting left to open. -/
def expression : (free : Nat) → Rule Expr
  | 0, s => failHere .tooMuchNesting s
  | free + 1, s => nested (assignment (expression free) (unary free)) s

/-- An operand of a product, with `free` levels of nesting left to open. An operator opens a level
    for its operand. -/
def unary : (free : Nat) → Rule Expr
  | 0, s => unaryOr (failHere .tooMuchNesting) (calls (failHere .tooMuchNesting)) s
  | free + 1, s =>
    unaryOr (nested (unary free)) (calls (nested (assignment (expression free) (unary free)))) s

end

theorem unary_succ (free : Nat) :
    unary (free + 1) = unaryOr (nested (unary free)) (calls (expression (free + 1))) := rfl

end Lox.Grammar
