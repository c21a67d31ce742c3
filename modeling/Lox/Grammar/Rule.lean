import Lox.Diagnostic
import Lox.Syntax

namespace Lox.Grammar

/-!
# Grammar rules

A rule of the grammar reads tokens and yields a tree or fails at a token. It looks one token
ahead. Failing is not final: whoever runs a rule may record the error and read on from where the
rule stopped, so the state survives an error. Some faults do not even stop the rule that meets
them; they are recorded on the spot (`note`).

* `State` — the tokens still to be read, the errors recorded, and what encloses the current token.
* `Rule` — a computation on the state that may fail.
* `advance`, `expect`, `accept` — the steps from token to token.
* `nested` — runs a rule one level deeper, up to `maxNesting` levels.
-/

/-- The number of statements, blocks, expressions and unary operators that may be open at once. -/
def maxNesting : Nat := 128

/-- What a rule knows between two tokens. -/
structure State where
  /-- The token that is looked at and not yet taken. -/
  current : Token
  /-- The tokens behind the current one. -/
  ahead : List Token
  /-- The errors recorded so far, in the order of recording. -/
  errors : Array SyntaxError
  /-- The number of function bodies around the current token. -/
  functionDepth : Nat
  /-- The number of levels of nesting around the current token. -/
  nesting : Nat

namespace State

/-- The next token that the grammar knows, with the tokens behind it and the errors so far. Each
    unreadable token on the way is recorded as an error. If the tokens run out, the end of the text
    is on the line `line`, that of the last token the grammar knew. -/
def pull (line : Nat) (errors : Array SyntaxError) :
    List Token → Token × List Token × Array SyntaxError
  | [] => (Token.eof line, [], errors)
  | token :: ahead =>
    match token.kind with
    | .invalid cause => pull line (errors.push ⟨token, .lexical cause⟩) ahead
    | _ => (token, ahead, errors)

/-- The state in front of a list of tokens. -/
def start (tokens : List Token) : State :=
  match pull 1 #[] tokens with
  | (current, ahead, errors) => ⟨current, ahead, errors, 0, 0⟩

/-- Whether the end of the text has been reached. -/
def atEnd (s : State) : Bool := s.current.kind == .eof

/-- The state behind the current token. The end of the text is never passed. -/
def advanced (s : State) : State :=
  if s.atEnd then s
  else
    match pull s.current.line s.errors s.ahead with
    | (current, ahead, errors) => { s with current, ahead, errors }

/-- The state with one more error recorded. -/
def record (s : State) (e : SyntaxError) : State := { s with errors := s.errors.push e }

/-- The tokens still to be read, the current one first. Every turn of a loop takes one of them, so
    they bound the number of turns. -/
def remaining (s : State) : List Token := s.current :: s.ahead

end State

/-- A rule of the grammar. The state is kept when a rule fails. -/
abbrev Rule (α : Type) := EStateM SyntaxError State α

/-! ### Steps -/

/-- The token looked at. -/
def current : Rule Token := return (← get).current

/-- Whether the token looked at is of a given kind. -/
def sees (kind : Token.Kind) : Rule Bool := return (← current).kind == kind

/-- Takes the current token. -/
def advance : Rule Token := fun s => .ok s.current s.advanced

/-- Records an error and goes on. -/
def note (token : Token) (cause : SyntaxError.Cause) : Rule Unit := fun s =>
  .ok () (s.record ⟨token, cause⟩)

/-- Fails at the current token. -/
def failHere {α : Type} (cause : SyntaxError.Cause) : Rule α := fun s =>
  .error ⟨s.current, cause⟩ s

/-- Takes the current token if it is of a given kind, and tells whether it was. -/
def accept (kind : Token.Kind) : Rule Bool := do
  if ← sees kind then
    let _ ← advance
    return true
  else
    return false

/-- Takes a token of a given kind or fails at the current one. -/
def expect (kind : Token.Kind) (missing : SyntaxError.Cause) : Rule Token := do
  if ← sees kind then advance else failHere missing

/-! ### Levels -/

/-- Runs a rule one level deeper and comes back up, whether the rule fails or not. A rule that
    would go deeper than `maxNesting` levels fails at the current token instead. -/
def nested {α : Type} (rule : Rule α) : Rule α := fun s =>
  if s.nesting < maxNesting then
    match rule { s with nesting := s.nesting + 1 } with
    | .ok a s => .ok a { s with nesting := s.nesting - 1 }
    | .error e s => .error e { s with nesting := s.nesting - 1 }
  else
    failHere .tooMuchNesting s

/-- Runs a rule inside the body of a function. -/
def inFunction {α : Type} (rule : Rule α) : Rule α := fun s =>
  match rule { s with functionDepth := s.functionDepth + 1 } with
  | .ok a s => .ok a { s with functionDepth := s.functionDepth - 1 }
  | .error e s => .error e { s with functionDepth := s.functionDepth - 1 }

/-! ### Lists -/

/-- The items of a list with commas between them, `count` of which have been read. Items beyond
    `maxArguments` are objected to and read all the same. -/
def separatedFrom {α : Type} (item : Rule α) (tooMany : SyntaxError.Cause) :
    (bound : List Token) → (count : Nat) → Rule (List α)
  | [], _ => return []
  | _ :: bound, count => do
    if maxArguments ≤ count then note (← current) tooMany
    let first ← item
    if ← accept Symbol.comma then
      return first :: (← separatedFrom item tooMany bound (count + 1))
    else
      return [first]

/-- The items of a list in parentheses, up to the closing one, which is not taken. -/
def separated {α : Type} (item : Rule α) (tooMany : SyntaxError.Cause) : Rule (List α) := do
  if ← sees Symbol.rightParen then return []
  else separatedFrom item tooMany (← get).remaining 0

end Lox.Grammar
