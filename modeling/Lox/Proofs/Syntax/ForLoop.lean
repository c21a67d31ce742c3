import Lox.Syntax

namespace Lox

/-!
# Loops by their parts

A `for` statement is written with `while` once its parts are known. An initializer is a variable
or an expression, and the body of a loop binds no name in the scope in which it stands.

* `Stmt.isPlain`, `Stmt.isClause` — statements that bind no name where they stand, and statements
  that can be initializers.
* `ForLoop` — the parts of a `for` statement; `ForLoop.desugared` writes them with `while`.
* `ForLoop.number_desugared` — functions get the same numbers either way.
* `ForLoop.IsWellFormed` — what the parts look like.
-/

variable {ι : Type}

/-- A statement that binds no name in the scope in which it stands. -/
def Stmt.isPlain : Stmt ι → Bool
  | .variable .. | .function .. => false
  | .ifThen _ yes => yes.isPlain
  | .ifElse _ yes no => yes.isPlain && no.isPlain
  | .while _ body => body.isPlain
  | _ => true

/-- A statement that can be the first clause of a loop. -/
def Stmt.isClause : Stmt ι → Bool
  | .variable .. | .expression _ => true
  | _ => false

/-- Numbering the functions in a statement does not make it bind names. -/
theorem Stmt.isPlain_number (s : Stmt ι) (next : Nat) : (s.number next).1.isPlain = s.isPlain := by
  induction s using Stmt.isPlain.induct generalizing next with
  | case1 | case2 => rfl
  | case3 condition yes ih => exact ih next
  | case4 condition yes no ihyes ihno =>
    show ((yes.number next).1.isPlain && (no.number (yes.number next).2).1.isPlain) = _
    rw [ihyes, ihno]
    rfl
  | case5 condition body ih => exact ih next
  -- None of the others declares a name, nor does it when its functions are numbered.
  | case6 s hvariable hfunction hthen helse hwhile =>
    cases s with
    | «variable» name e => exact absurd rfl (hvariable name e)
    | function id name parameters body => exact absurd rfl (hfunction id name parameters body)
    | ifThen condition yes => exact absurd rfl (hthen condition yes)
    | ifElse condition yes no => exact absurd rfl (helse condition yes no)
    | «while» condition body => exact absurd rfl (hwhile condition body)
    | _ => rfl

/-! ### Loops -/

/-- The parts of a `for` statement. -/
structure ForLoop (ι : Type) where
  initializer : Option (Stmt ι)
  condition : Option Expr
  step : Option Expr
  body : Stmt ι

namespace ForLoop

/-- What is repeated in the loop written with `while`: the body, and the step behind it in a block
    of their own. -/
def turnBlock (l : ForLoop ι) : Stmt ι :=
  match l.step with
  | some e => .block [l.body, .expression e]
  | none => l.body

/-- The loop written with `while`. A missing condition always holds. -/
def desugared (l : ForLoop ι) : Stmt ι :=
  .forLoop l.initializer (l.condition.getD (.constant (.bool true))) l.step l.body

/-- Written with `while`, a loop is a `while` statement, in a block with its initializer if it has
    one. -/
theorem desugared_eq (l : ForLoop ι) :
    l.desugared =
      match l.initializer with
      | some s => .block [s, .while (l.condition.getD (.constant (.bool true))) l.turnBlock]
      | none => .while (l.condition.getD (.constant (.bool true))) l.turnBlock := rfl

/-- Numbers the functions declared in a loop from `next` on. -/
def number (next : Nat) (l : ForLoop ι) : ForLoop Nat × Nat :=
  match l.initializer with
  | some s =>
    let (s, next) := s.number next
    let (body, next) := l.body.number next
    (⟨some s, l.condition, l.step, body⟩, next)
  | none =>
    let (body, next) := l.body.number next
    (⟨none, l.condition, l.step, body⟩, next)

/-- A loop is numbered in the same way before and after it is written with `while`. -/
theorem number_desugared (l : ForLoop ι) (next : Nat) :
    l.desugared.number next = ((l.number next).1.desugared, (l.number next).2) := by
  obtain ⟨initializer, condition, step, body⟩ := l
  cases initializer <;> cases step <;> rfl

/-- What the parts of a loop look like. -/
structure IsWellFormed (l : ForLoop ι) : Prop where
  isClause : ∀ s ∈ l.initializer, s.isClause
  isPlain : l.body.isPlain

/-- Numbering the functions in a loop keeps it well formed. -/
theorem IsWellFormed.number {l : ForLoop ι} (h : l.IsWellFormed) (next : Nat) :
    (l.number next).1.IsWellFormed := by
  obtain ⟨initializer, condition, step, body⟩ := l
  cases initializer with
  | none =>
    refine ⟨fun _ hs => absurd hs (Option.not_mem_none _), ?_⟩
    exact (body.isPlain_number next).trans h.isPlain
  | some s =>
    refine ⟨?_, (body.isPlain_number _).trans h.isPlain⟩
    intro s' hs'
    obtain rfl := Option.some.inj hs'
    have hclause := h.isClause s rfl
    cases s with
    | expression | «variable» => rfl
    | _ => exact absurd hclause Bool.false_ne_true

/-- Written with `while`, a loop binds no name where it stands: an initializer has a block around
    it, and without one it is as plain as its body. -/
theorem isPlain_desugared {l : ForLoop ι} (h : l.IsWellFormed) : l.desugared.isPlain := by
  obtain ⟨initializer, condition, step, body⟩ := l
  cases initializer with
  | some s => rfl
  | none =>
    cases step with
    | some e => rfl
    | none => exact h.isPlain

end ForLoop

end Lox
