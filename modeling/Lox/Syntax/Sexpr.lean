import Lox.Number
import Lox.Syntax

namespace Lox

/-!
# Trees as s-expressions

The fully parenthesised form of a tree, operators first. It shows the structure that the grammar
gave to a text and nothing of its layout.

* `Constant.text` — a constant as it would be printed by a program.
* `Expr.sexpr`, `Stmt.sexpr` — the forms of expressions and statements.
-/

/-- The text of a constant, strings without quotes. -/
def Constant.text : Constant → String
  | .nil => "nil"
  | .bool true => "true"
  | .bool false => "false"
  | .number x => Number.text x
  | .string s => s

mutual

/-- The s-expression of an expression. -/
def Expr.sexpr : Expr → String
  | .constant c => c.text
  | .group e => "(group " ++ e.sexpr ++ ")"
  | .unary op e => "(" ++ op.lexeme ++ " " ++ e.sexpr ++ ")"
  | .binary l op r | .logical l op r =>
    "(" ++ op.lexeme ++ " " ++ l.sexpr ++ " " ++ r.sexpr ++ ")"
  | .name n => n.lexeme
  | .assign n e => "(= " ++ n.lexeme ++ " " ++ e.sexpr ++ ")"
  | .call callee _ args => "(call " ++ callee.sexpr ++ Expr.sexprTail args ++ ")"

/-- The s-expressions of a list, each after a space. -/
def Expr.sexprTail : List Expr → String
  | [] => ""
  | e :: es => " " ++ e.sexpr ++ Expr.sexprTail es

end

mutual

/-- The s-expression of a statement. -/
def Stmt.sexpr {ι : Type} : Stmt ι → String
  | .expression e => "(; " ++ e.sexpr ++ ")"
  | .print _ e => "(print " ++ e.sexpr ++ ")"
  | .variable n e => "(var " ++ n.lexeme ++ " " ++ e.sexpr ++ ")"
  | .block body => "(block" ++ Stmt.sexprTail body ++ ")"
  | .ifThen c yes => "(if " ++ c.sexpr ++ " " ++ yes.sexpr ++ ")"
  | .ifElse c yes no => "(if " ++ c.sexpr ++ " " ++ yes.sexpr ++ " " ++ no.sexpr ++ ")"
  | .while c body => "(while " ++ c.sexpr ++ " " ++ body.sexpr ++ ")"
  | .function _ n ps body =>
    "(fun " ++ n.lexeme ++ " (" ++ " ".intercalate (ps.map Token.lexeme) ++ ")" ++
      Stmt.sexprTail body ++ ")"
  | .return _ e => "(return " ++ e.sexpr ++ ")"

/-- The s-expressions of a list of statements, each after a space. -/
def Stmt.sexprTail {ι : Type} : List (Stmt ι) → String
  | [] => ""
  | s :: rest => " " ++ s.sexpr ++ Stmt.sexprTail rest

end

end Lox
