import Lox.Token

namespace Lox

/-!
# Syntax trees

Expressions and statements. The trees keep the tokens to which run-time errors are attributed:
operators, names, the closing parenthesis of a call, the keywords of `print` and `return`.

* `Constant`, `Expr`, `Stmt` — the trees.
* `Stmt.forLoop` — the `for` loop, which is no tree of its own.
* `Expr.equal` — equality of expressions, lexemes and lines of all tokens included. Numbers are
  compared as numbers.
* `Stmt.number` — gives the functions declared in a statement their numbers.
-/

/-- A literal in an expression. -/
inductive Constant
  | nil
  | bool (value : Bool)
  | number (value : Float)
  | string (value : String)
deriving BEq

/-- The constant that the literal of a token stands for. -/
def Constant.ofLiteral : Literal → Constant
  | .number x => .number x
  | .string s => .string s

/-- Expressions. -/
inductive Expr
  | constant (value : Constant)
  /-- An expression in parentheses. -/
  | group (inner : Expr)
  | unary (op : Token) (operand : Expr)
  | binary (left : Expr) (op : Token) (right : Expr)
  /-- An `and` or `or`, which evaluates its right operand only if the left one does not decide. -/
  | logical (left : Expr) (op : Token) (right : Expr)
  | name (name : Token)
  | assign (name : Token) (value : Expr)
  /-- A call; the token is the parenthesis that closes the arguments. -/
  | call (callee : Expr) (paren : Token) (arguments : List Expr)

/-- The constant `nil`, which stands for a missing initializer and a missing return value. -/
def Expr.nil : Expr := .constant .nil

mutual

/-- Equality of expressions: same shape, same tokens, same constants. -/
def Expr.equal : Expr → Expr → Bool
  | .constant c, .constant d => c == d
  | .group e, .group f => e.equal f
  | .unary op e, .unary op' f => op == op' && e.equal f
  | .binary l op r, .binary l' op' r' => l.equal l' && op == op' && r.equal r'
  | .logical l op r, .logical l' op' r' => l.equal l' && op == op' && r.equal r'
  | .name n, .name n' => n == n'
  | .assign n e, .assign n' f => n == n' && e.equal f
  | .call c p as, .call c' p' as' => c.equal c' && p == p' && Expr.equalAll as as'
  | _, _ => false

/-- Equality of lists of expressions, one by one. -/
def Expr.equalAll : List Expr → List Expr → Bool
  | [], [] => true
  | e :: es, f :: fs => e.equal f && Expr.equalAll es fs
  | _, _ => false

end

instance : BEq Expr := ⟨Expr.equal⟩

/-- Statements. A declaration of a function carries a mark of type `ι`: nothing in a tree that was
    just parsed, the number of the declaration in a program that is run. -/
inductive Stmt (ι : Type)
  | expression (value : Expr)
  | print (keyword : Token) (value : Expr)
  | variable (name : Token) (initializer : Expr)
  | block (body : List (Stmt ι))
  | ifThen (condition : Expr) (yes : Stmt ι)
  | ifElse (condition : Expr) (yes no : Stmt ι)
  | while (condition : Expr) (body : Stmt ι)
  | function (id : ι) (name : Token) (parameters : List Token) (body : List (Stmt ι))
  | return (keyword : Token) (value : Expr)

/-- The loop `for (initializer; condition; step) body`, written with `while`: the step follows the
    body in a block of their own, and the initializer, if there is one, opens a block around the
    loop. -/
def Stmt.forLoop {ι : Type} (initializer : Option (Stmt ι)) (condition : Expr)
    (step : Option Expr) (body : Stmt ι) : Stmt ι :=
  let turn := match step with
    | some e => .block [body, .expression e]
    | none => body
  match initializer with
  | some s => .block [s, .while condition turn]
  | none => .while condition turn

/-! ### Numbering functions

Two function values are the same function exactly if they come from the same declaration. So each
declaration gets a number of its own when a program is loaded, in the order in which the
declarations end in the text, and the count goes on from one program to the next. -/

mutual

/-- Numbers the functions declared in a statement from `next` on, inner ones first, and returns
    the next free number. -/
def Stmt.number {ι : Type} (next : Nat) : Stmt ι → Stmt Nat × Nat
  | .expression e => (.expression e, next)
  | .print k e => (.print k e, next)
  | .variable n e => (.variable n e, next)
  | .block body =>
    let (body, next) := Stmt.numberAll next body
    (.block body, next)
  | .ifThen c yes =>
    let (yes, next) := Stmt.number next yes
    (.ifThen c yes, next)
  | .ifElse c yes no =>
    let (yes, next) := Stmt.number next yes
    let (no, next) := Stmt.number next no
    (.ifElse c yes no, next)
  | .while c body =>
    let (body, next) := Stmt.number next body
    (.while c body, next)
  | .function _ n ps body =>
    let (body, next) := Stmt.numberAll next body
    (.function next n ps body, next + 1)
  | .return k e => (.return k e, next)

/-- Numbers the functions declared in a list of statements, from the first statement on. -/
def Stmt.numberAll {ι : Type} (next : Nat) : List (Stmt ι) → List (Stmt Nat) × Nat
  | [] => ([], next)
  | s :: rest =>
    let (s, next) := Stmt.number next s
    let (rest, next) := Stmt.numberAll next rest
    (s :: rest, next)

end

end Lox
