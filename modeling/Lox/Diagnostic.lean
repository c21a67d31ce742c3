import Lox.Token

namespace Lox

/-!
# Diagnostics

What is reported about a faulty program: the place, given by a token, and a message. Syntax errors
are kept as causes; their wording is one function.

* `Report` — line, location and message, and the one-line text made of them.
* `SyntaxError.Cause`, `SyntaxError` — what the parser objects to, and where.
* `maxArguments` — the number of arguments and of parameters that is named in two of the messages.
-/

/-! ### Reports -/

/-- An error as it is shown to the user. -/
structure Report where
  line : Nat
  /-- Either `at end` or `at 'LEXEME'`. -/
  location : String
  message : String
deriving DecidableEq, Repr

namespace Report

/-- The report of a message about a token. -/
def about (token : Token) (message : String) : Report where
  line := token.line
  location := "at " ++ token.describe
  message := message

/-- The text of a report, one line if the message is one. -/
def text (r : Report) : String :=
  "[line " ++ toString r.line ++ "] Error " ++ r.location ++ ": " ++ r.message

end Report

/-! ### Syntax errors -/

/-- The largest number of arguments in a call and of parameters of a function. -/
def maxArguments : Nat := 255

namespace SyntaxError

/-- What is wrong with a program text. The constructors whose names start with `missing` say what
    should have stood where the offending token stands. -/
inductive Cause
  /-- The token is itself unreadable. -/
  | lexical (cause : LexicalError)
  | tooMuchNesting
  | tooManyParameters
  | tooManyArguments
  | invalidAssignmentTarget
  | returnAtTopLevel
  | missingExpression
  | missingEndOfExpression
  | missingCloseOfGroup
  | missingCloseOfArguments
  | missingVariableName
  | missingEndOfVariable
  | missingFunctionName
  | missingOpenOfParameters
  | missingParameterName
  | missingCloseOfParameters
  | missingFunctionBody
  | missingEndOfPrint
  | missingEndOfStatement
  | missingOpenOfWhile
  | missingCloseOfWhile
  | missingOpenOfIf
  | missingCloseOfIf
  | missingOpenOfFor
  | missingEndOfForCondition
  | missingCloseOfFor
  | missingEndOfReturn
  | missingEndOfBlock
deriving DecidableEq, Repr

/-- The wording of a cause. -/
def Cause.message : Cause → String
  | .lexical cause => cause.message
  | .tooMuchNesting => "Too much nesting."
  | .tooManyParameters => "Can't have more than " ++ toString maxArguments ++ " parameters."
  | .tooManyArguments => "Can't have more than " ++ toString maxArguments ++ " arguments."
  | .invalidAssignmentTarget => "Invalid assignment target."
  | .returnAtTopLevel => "Can't return from top-level code."
  | .missingExpression => "Expect expression."
  | .missingEndOfExpression => "Expect end of expression."
  | .missingCloseOfGroup => "Expect ')' after expression."
  | .missingCloseOfArguments => "Expect ')' after arguments."
  | .missingVariableName => "Expect variable name."
  | .missingEndOfVariable => "Expect ';' after variable declaration."
  | .missingFunctionName => "Expect function name."
  | .missingOpenOfParameters => "Expect '(' after function name."
  | .missingParameterName => "Expect parameter name."
  | .missingCloseOfParameters => "Expect ')' after parameters."
  | .missingFunctionBody => "Expect '\x7b' before function body."
  | .missingEndOfPrint => "Expect ';' after value."
  | .missingEndOfStatement => "Expect ';' after expression."
  | .missingOpenOfWhile => "Expect '(' after 'while'."
  | .missingCloseOfWhile => "Expect ')' after condition."
  | .missingOpenOfIf => "Expect '(' after 'if'."
  | .missingCloseOfIf => "Expect ')' after if condition."
  | .missingOpenOfFor => "Expect '(' after 'for'."
  | .missingEndOfForCondition => "Expect ';' after loop condition."
  | .missingCloseOfFor => "Expect ')' after for clauses."
  | .missingEndOfReturn => "Expect ';' after return value."
  | .missingEndOfBlock => "Expect '\x7d' after block."

end SyntaxError

/-- A syntax error: its cause and the token at which it is reported. -/
structure SyntaxError where
  token : Token
  cause : SyntaxError.Cause

namespace SyntaxError

/-- The wording of an error. -/
def message (e : SyntaxError) : String := e.cause.message

/-- How an error is shown to the user. -/
def report (e : SyntaxError) : Report := Report.about e.token e.message

end SyntaxError

end Lox
