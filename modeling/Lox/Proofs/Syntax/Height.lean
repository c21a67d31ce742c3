import Lox.Syntax

namespace Lox

/-!
# The height of a tree

Reading an operator or a call behind an expression does not open a level, however long the chain.
So the left spines of trees do not count in their height.

* `Expr.height`, `Stmt.height` — the height of an expression and of a statement.
* `Expr.argumentsHeight_le_iff`, `Stmt.heightAll_le_iff` — lists are as high as their highest item.
* `Stmt.height_forLoop_le` — a loop is three levels higher than its body, and not much higher than
  its clauses.
-/

mutual

/-- The height of an expression. A call is higher than its arguments, but not than what is called,
    and operators between operands add nothing. -/
def Expr.height : Expr → Nat
  | .constant _ | .name _ => 0
  | .group e | .unary _ e | .assign _ e => e.height + 1
  | .binary l _ r | .logical l _ r => max l.height r.height
  | .call callee _ arguments => max callee.height (Expr.argumentsHeight arguments)

/-- What some arguments add to the height of a call. -/
def Expr.argumentsHeight : List Expr → Nat
  | [] => 0
  | e :: rest => max (e.height + 1) (Expr.argumentsHeight rest)

end

mutual

/-- The height of a statement. -/
def Stmt.height {ι : Type} : Stmt ι → Nat
  | .expression e | .print _ e | .variable _ e | .return _ e => e.height + 1
  | .block body | .function _ _ _ body => Stmt.heightAll body + 1
  | .ifThen condition yes => max condition.height yes.height + 1
  | .ifElse condition yes no => max condition.height (max yes.height no.height) + 1
  | .while condition body => max condition.height body.height + 1

/-- The height of the highest of several statements. -/
def Stmt.heightAll {ι : Type} : List (Stmt ι) → Nat
  | [] => 0
  | s :: rest => max s.height (Stmt.heightAll rest)

end

/-- Arguments add no more than `n` just if none of them has a height of `n` or more. -/
theorem Expr.argumentsHeight_le_iff {es : List Expr} {n : Nat} :
    argumentsHeight es ≤ n ↔ ∀ e ∈ es, e.height + 1 ≤ n := by
  induction es with
  | nil => simp [argumentsHeight]
  | cons e rest ih => rw [argumentsHeight, Nat.max_le, ih, List.forall_mem_cons]

/-- Several statements are no higher than `n` just if each of them is not. -/
theorem Stmt.heightAll_le_iff {ι : Type} {body : List (Stmt ι)} {n : Nat} :
    heightAll body ≤ n ↔ ∀ s ∈ body, s.height ≤ n := by
  induction body with
  | nil => simp [heightAll]
  | cons s rest ih => rw [heightAll, Nat.max_le, ih, List.forall_mem_cons]

/-- A loop is a block around a `while`, whose body is another block. -/
theorem Stmt.height_forLoop_le {ι : Type} {initializer : Option (Stmt ι)} {condition : Expr}
    {step : Option Expr} {body : Stmt ι} {n : Nat}
    (hinitializer : ∀ s ∈ initializer, s.height + 1 ≤ n) (hcondition : condition.height + 2 ≤ n)
    (hstep : ∀ e ∈ step, e.height + 4 ≤ n) (hbody : body.height + 3 ≤ n) :
    (forLoop initializer condition step body).height ≤ n := by
  cases initializer with
  | none =>
    cases step with
    | none => simp only [forLoop, height]; omega
    | some e =>
      have := hstep e rfl
      simp only [forLoop, height, heightAll]
      omega
  | some s =>
    have := hinitializer s rfl
    cases step with
    | none => simp only [forLoop, height, heightAll]; omega
    | some e =>
      have := hstep e rfl
      simp only [forLoop, height, heightAll]
      omega

end Lox
