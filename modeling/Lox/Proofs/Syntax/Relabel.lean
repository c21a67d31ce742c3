import Lox.Diagnostic
import Lox.Syntax

namespace Lox

/-!
# Changing the tokens in trees

Trees and errors keep tokens. A function on tokens that keeps what the parser looks at, their kinds
and literals, can be applied to all of them: to number tokens, to move them to other lines, or to
compare trees that differ in layout only.

* `Token.IsRelabelling f` — the function `f` keeps the kinds and literals of tokens.
* `Token.onLine` — a token on another line, for one.
* `Expr.relabel`, `Stmt.relabel`, `SyntaxError.relabel` — the change in a tree or an error.
-/

/-- A function on tokens that keeps what the parser looks at. -/
structure Token.IsRelabelling (f : Token → Token) : Prop where
  kind_eq (token : Token) : (f token).kind = token.kind
  literal_eq (token : Token) : (f token).literal = token.literal

/-- The token on another line. -/
def Token.onLine (line : Nat) (t : Token) : Token := { t with line }

/-- Moving all tokens to one line keeps their kinds and literals. -/
theorem Token.isRelabelling_onLine (line : Nat) : Token.IsRelabelling (Token.onLine line) :=
  ⟨fun _ => rfl, fun _ => rfl⟩

mutual

/-- Applies a function to the tokens in an expression. -/
def Expr.relabel (f : Token → Token) : Expr → Expr
  | .constant c => .constant c
  | .group e => .group (e.relabel f)
  | .unary op e => .unary (f op) (e.relabel f)
  | .binary l op r => .binary (l.relabel f) (f op) (r.relabel f)
  | .logical l op r => .logical (l.relabel f) (f op) (r.relabel f)
  | .name n => .name (f n)
  | .assign n e => .assign (f n) (e.relabel f)
  | .call callee paren arguments =>
    .call (callee.relabel f) (f paren) (Expr.relabelAll f arguments)

/-- Applies a function to the tokens in each of several expressions. -/
def Expr.relabelAll (f : Token → Token) : List Expr → List Expr
  | [] => []
  | e :: es => e.relabel f :: Expr.relabelAll f es

end

/-- Changing the tokens in several expressions is changing them in each. -/
theorem Expr.relabelAll_eq_map (f : Token → Token) (es : List Expr) :
    Expr.relabelAll f es = es.map (Expr.relabel f) := by
  induction es with
  | nil => rfl
  | cons e es ih => rw [Expr.relabelAll, ih, List.map_cons]

mutual

/-- Changing the tokens in an expression twice is changing them once, in both ways one after the
    other. -/
theorem Expr.relabel_relabel (f g : Token → Token) (e : Expr) :
    (e.relabel f).relabel g = e.relabel (g ∘ f) := by
  cases e with
  | constant c => rfl
  | group e => exact congrArg Expr.group (relabel_relabel f g e)
  | unary op e => exact congrArg (Expr.unary _) (relabel_relabel f g e)
  | binary l op r | logical l op r =>
    simp only [Expr.relabel, relabel_relabel f g l, relabel_relabel f g r, Function.comp_apply]
  | name n => rfl
  | assign n e => exact congrArg (Expr.assign _) (relabel_relabel f g e)
  | call callee paren arguments =>
    simp only [Expr.relabel, relabel_relabel f g callee, relabelAll_relabelAll f g arguments,
      Function.comp_apply]

/-- Changing the tokens in several expressions twice is changing them once, in both ways one after
    the other. -/
theorem Expr.relabelAll_relabelAll (f g : Token → Token) (es : List Expr) :
    Expr.relabelAll g (Expr.relabelAll f es) = Expr.relabelAll (g ∘ f) es := by
  cases es with
  | nil => rfl
  | cons e es =>
    simp only [Expr.relabelAll, relabel_relabel f g e, relabelAll_relabelAll f g es]

end

mutual

/-- Applies a function to the tokens in a statement. -/
def Stmt.relabel {ι : Type} (f : Token → Token) : Stmt ι → Stmt ι
  | .expression e => .expression (e.relabel f)
  | .print keyword e => .print (f keyword) (e.relabel f)
  | .variable n e => .variable (f n) (e.relabel f)
  | .block body => .block (Stmt.relabelAll f body)
  | .ifThen c yes => .ifThen (c.relabel f) (yes.relabel f)
  | .ifElse c yes no => .ifElse (c.relabel f) (yes.relabel f) (no.relabel f)
  | .while c body => .while (c.relabel f) (body.relabel f)
  | .function i n parameters body =>
    .function i (f n) (parameters.map f) (Stmt.relabelAll f body)
  | .return keyword e => .return (f keyword) (e.relabel f)

/-- Applies a function to the tokens in each of several statements. -/
def Stmt.relabelAll {ι : Type} (f : Token → Token) : List (Stmt ι) → List (Stmt ι)
  | [] => []
  | s :: rest => s.relabel f :: Stmt.relabelAll f rest

end

/-- Changing the tokens in several statements is changing them in each. -/
theorem Stmt.relabelAll_eq_map {ι : Type} (f : Token → Token) (body : List (Stmt ι)) :
    Stmt.relabelAll f body = body.map (Stmt.relabel f) := by
  induction body with
  | nil => rfl
  | cons s rest ih => rw [Stmt.relabelAll, ih, List.map_cons]

/-- Changing the tokens in a loop is changing them in its parts. -/
theorem Stmt.relabel_forLoop {ι : Type} (f : Token → Token) (initializer : Option (Stmt ι))
    (condition : Expr) (step : Option Expr) (body : Stmt ι) :
    (Stmt.forLoop initializer condition step body).relabel f =
      Stmt.forLoop (initializer.map (Stmt.relabel f)) (condition.relabel f)
        (step.map (Expr.relabel f)) (body.relabel f) := by
  cases initializer <;> cases step <;> rfl

/-- Applies a function to the token of an error. -/
def SyntaxError.relabel (f : Token → Token) (e : SyntaxError) : SyntaxError :=
  { e with token := f e.token }

end Lox
