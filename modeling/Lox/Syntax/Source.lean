import Lox.Syntax.Sexpr

namespace Lox

/-!
# Expressions as program text

The text of an expression in the language itself. Layout is normal: one space on each side of a
binary operator, none elsewhere, apart from the one that keeps two unary operators apart. The
groups of the tree are the only parentheses, so a tree that was parsed reads back as itself.

* `Constant.source` — the literal for a constant.
* `Expr.source` — the text of an expression.
-/

/-- The literal that stands for a constant: strings are quoted. -/
def Constant.source : Constant → String
  | .string s => "\"" ++ s ++ "\""
  | c => c.text

/-- Whether an expression starts with an operator. -/
def Expr.isUnary : Expr → Bool
  | .unary _ _ => true
  | _ => false

mutual

/-- The text of an expression. -/
def Expr.source : Expr → String
  | .constant c => c.source
  | .group e => "(" ++ e.source ++ ")"
  | .unary op e => op.lexeme ++ (if e.isUnary then " " else "") ++ e.source
  | .binary l op r | .logical l op r => l.source ++ " " ++ op.lexeme ++ " " ++ r.source
  | .name n => n.lexeme
  | .assign n e => n.lexeme ++ " = " ++ e.source
  | .call callee _ args => callee.source ++ "(" ++ Expr.sourceList args ++ ")"

/-- The texts of the arguments of a call, with commas between them. -/
def Expr.sourceList : List Expr → String
  | [] => ""
  | [e] => e.source
  | e :: es => e.source ++ ", " ++ Expr.sourceList es

end

end Lox
