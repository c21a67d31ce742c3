import Lox.Grammar.Expression

namespace Lox.Grammar

/-!
# Statements

The grammar of statements and declarations. As for expressions, each rule is given the rules that
it nests; `statement` and `block` tie the knot.

A declaration never fails: it records its error, skips to where a statement may begin, and yields
nothing. So one run over a program reports all malformed statements.

* `synchronized` — the state in front of the next statement after an error.
* `declarations` — declarations up to a closing token or the end of the text.
* `statement`, `block`, `declaration` — the rules of the grammar.
-/

/-! ### Recovery -/

/-- Skips tokens until `passed`, the one taken last, ends a statement or the current one begins
    one. -/
def synchronizedFrom : (bound : List Token) → (passed : Token) → State → State
  | [], _, s => s
  | _ :: bound, passed, s =>
    if s.atEnd || passed.kind == .symbol .semicolon || s.current.kind.startsStatement then s
    else synchronizedFrom bound s.current s.advanced

/-- The state in front of the next statement. One token is skipped whatever it is, so that a
    declaration that fails at its first token does not fail there again. -/
def synchronized (s : State) : State :=
  synchronizedFrom s.advanced.remaining s.current s.advanced

/-- Runs a rule; an error is recorded and the tokens up to the next statement are skipped. -/
def recovering {α : Type} (rule : Rule α) (s : State) : Option α × State :=
  match rule s with
  | .ok a s => (some a, s)
  | .error e s => (none, synchronized (s.record e))

/-! ### Declarations -/

/-- What follows `var`: a name, perhaps an initializer, and a semicolon. -/
def variableDeclaration (expression : Rule Expr) : Rule (Stmt Unit) := do
  let name ← expect .identifier .missingVariableName
  let initializer ← if ← accept Symbol.equal then expression else pure .nil
  let _ ← expect Symbol.semicolon .missingEndOfVariable
  return .variable name initializer

/-- What follows `fun`: a name, parameters in parentheses, and a body, which is a `block`. -/
def functionDeclaration (block : Rule (List (Stmt Unit))) : Rule (Stmt Unit) := do
  let name ← expect .identifier .missingFunctionName
  let _ ← expect Symbol.leftParen .missingOpenOfParameters
  let parameters ← separated (expect .identifier .missingParameterName) .tooManyParameters
  let _ ← expect Symbol.rightParen .missingCloseOfParameters
  let _ ← expect Symbol.leftBrace .missingFunctionBody
  let body ← inFunction block
  return .function () name parameters body

/-- A declaration of a variable or a function, or a `statement`; nothing if it is malformed. -/
def declaration (expression : Rule Expr) (statement : Rule (Stmt Unit))
    (block : Rule (List (Stmt Unit))) : State → Option (Stmt Unit) × State :=
  recovering do
    match (← current).kind with
    | .keyword .var_ =>
      let _ ← advance
      variableDeclaration expression
    | .keyword .fun_ =>
      let _ ← advance
      functionDeclaration block
    | _ => statement

/-- Declarations up to the end of the text or to a token for which `closes` holds. Those that are
    malformed are left out. -/
def declarations (declaration : State → Option (Stmt Unit) × State) (closes : Token.Kind → Bool) :
    (bound : List Token) → State → List (Stmt Unit) × State
  | [], s => ([], s)
  | _ :: bound, s =>
    if s.atEnd || closes s.current.kind then ([], s)
    else
      match declaration s with
      | (first, s) =>
        match declarations declaration closes bound s with
        | (rest, s) => (first.toList ++ rest, s)

/-- What follows the opening brace of a block: declarations and the closing brace. -/
def blockContents (declaration : State → Option (Stmt Unit) × State) :
    Rule (List (Stmt Unit)) := do
  let s ← get
  match declarations declaration (· == .symbol .rightBrace) s.remaining s with
  | (body, s) =>
    set s
    let _ ← expect Symbol.rightBrace .missingEndOfBlock
    return body

/-! ### Statements -/

/-- What follows `print`. -/
def printStatement (expression : Rule Expr) (keyword : Token) : Rule (Stmt Unit) := do
  let value ← expression
  let _ ← expect Symbol.semicolon .missingEndOfPrint
  return .print keyword value

/-- An expression used as a statement. -/
def expressionStatement (expression : Rule Expr) : Rule (Stmt Unit) := do
  let value ← expression
  let _ ← expect Symbol.semicolon .missingEndOfStatement
  return .expression value

/-- What follows `return`. Outside of functions the statement is objected to, at the keyword, once
    the keyword has been passed. -/
def returnStatement (expression : Rule Expr) (keyword : Token) : Rule (Stmt Unit) := do
  if (← get).functionDepth = 0 then note keyword .returnAtTopLevel
  let value ← if ← sees Symbol.semicolon then pure .nil else expression
  let _ ← expect Symbol.semicolon .missingEndOfReturn
  return .return keyword value

/-- What follows `if`. An `else` belongs to the innermost `if` that can take it. -/
def ifStatement (expression : Rule Expr) (statement : Rule (Stmt Unit)) : Rule (Stmt Unit) := do
  let _ ← expect Symbol.leftParen .missingOpenOfIf
  let condition ← expression
  let _ ← expect Symbol.rightParen .missingCloseOfIf
  let yes ← statement
  if ← accept Keyword.else_ then
    return .ifElse condition yes (← statement)
  else
    return .ifThen condition yes

/-- What follows `while`. -/
def whileStatement (expression : Rule Expr) (statement : Rule (Stmt Unit)) :
    Rule (Stmt Unit) := do
  let _ ← expect Symbol.leftParen .missingOpenOfWhile
  let condition ← expression
  let _ ← expect Symbol.rightParen .missingCloseOfWhile
  return .while condition (← statement)

/-- The first clause of a `for` with its semicolon: nothing, a variable or an expression. -/
def forInitializer (expression : Rule Expr) : Rule (Option (Stmt Unit)) := do
  match (← current).kind with
  | .symbol .semicolon =>
    let _ ← advance
    return none
  | .keyword .var_ =>
    let _ ← advance
    return some (← variableDeclaration expression)
  | _ => return some (← expressionStatement expression)

/-- What follows `for`. A missing condition always holds. -/
def forStatement (expression : Rule Expr) (statement : Rule (Stmt Unit)) :
    Rule (Stmt Unit) := do
  let _ ← expect Symbol.leftParen .missingOpenOfFor
  let initializer ← forInitializer expression
  let condition ←
    if ← sees Symbol.semicolon then pure (.constant (.bool true)) else expression
  let _ ← expect Symbol.semicolon .missingEndOfForCondition
  let step ← if ← sees Symbol.rightParen then pure none else some <$> expression
  let _ ← expect Symbol.rightParen .missingCloseOfFor
  return .forLoop initializer condition step (← statement)

/-- A statement, told by its first token. -/
def anyStatement (expression : Rule Expr) (statement : Rule (Stmt Unit))
    (block : Rule (List (Stmt Unit))) : Rule (Stmt Unit) := do
  match (← current).kind with
  | .keyword .print_ => printStatement expression (← advance)
  | .symbol .leftBrace =>
    let _ ← advance
    return .block (← block)
  | .keyword .if_ =>
    let _ ← advance
    ifStatement expression statement
  | .keyword .while_ =>
    let _ ← advance
    whileStatement expression statement
  | .keyword .for_ =>
    let _ ← advance
    forStatement expression statement
  | .keyword .return_ => returnStatement expression (← advance)
  | _ => expressionStatement expression

/-! ### The recursion -/

mutual

/-- A statement, with `free` levels of nesting left to open. -/
def statement : (free : Nat) → Rule (Stmt Unit)
  | 0, s => failHere .tooMuchNesting s
  | free + 1, s => nested (anyStatement (expression free) (statement free) (block free)) s

/-- What follows an opening brace, with `free` levels of nesting left to open. -/
def block : (free : Nat) → Rule (List (Stmt Unit))
  | 0, s => failHere .tooMuchNesting s
  | free + 1, s =>
    nested (blockContents (declaration (expression free) (statement free) (block free))) s

end

end Lox.Grammar
