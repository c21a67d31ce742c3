import Lox.Proofs.Grammar.Exact
import Lox.Proofs.Token.Reading

namespace Lox

/-!
# Where `return` stands

A `return` outside of all functions is an error, so in a text without errors each one stands in the
body of a function: in the grammar, statements outside of functions have none on any level but in
the functions that they declare.

* `Stmt.returns` — whether a statement has a `return` outside of the functions declared in it.
* `Stmt.returns_number` — numbering functions does not change that.
* `Grammar.returns_statement_block` — no statement outside of functions has one.
* `returns_of_parse_scan` — so no program without errors has one.
-/

variable {ι : Type}

mutual

/-- Whether there is a `return` in a statement that does not stand in the body of a function
    declared there. -/
def Stmt.returns : Stmt ι → Bool
  | .return .. => true
  | .block body => Stmt.returnsAny body
  | .ifThen _ yes => yes.returns
  | .ifElse _ yes no => yes.returns || no.returns
  | .while _ body => body.returns
  | .expression _ | .print .. | .variable .. | .function .. => false

/-- Whether there is such a `return` in one of several statements. -/
def Stmt.returnsAny : List (Stmt ι) → Bool
  | [] => false
  | s :: rest => s.returns || Stmt.returnsAny rest

end

namespace Stmt

/-- There is no `return` in a list of statements just if none of them has one. -/
theorem returnsAny_eq_false {body : List (Stmt ι)} :
    returnsAny body = false ↔ ∀ s ∈ body, s.returns = false := by
  induction body with
  | nil => simp [returnsAny]
  | cons s rest ih => rw [returnsAny, Bool.or_eq_false_iff, ih, List.forall_mem_cons]

/-- A loop has a `return` where its initializer or its body has one. -/
theorem returns_forLoop (initializer : Option (Stmt ι)) (condition : Expr) (step : Option Expr)
    (body : Stmt ι) :
    (forLoop initializer condition step body).returns =
      (initializer.any returns || body.returns) := by
  cases initializer <;> cases step <;> simp [forLoop, returns, returnsAny]

/-! ### Numbering -/

mutual

/-- Numbering the functions in a statement changes nothing about its `return`s. -/
theorem returns_number (s : Stmt ι) (next : Nat) : (s.number next).1.returns = s.returns := by
  match s with
  | .block body => exact returnsAny_numberAll body next
  | .ifThen _ yes => exact returns_number yes next
  | .ifElse _ yes no =>
    show ((yes.number next).1.returns || (no.number (yes.number next).2).1.returns) = _
    rw [returns_number yes, returns_number no]
    rfl
  | .while _ body => exact returns_number body next
  | .expression _ | .print _ _ | .variable _ _ | .function _ _ _ _ | .return _ _ => rfl

/-- Numbering the functions in a list of statements changes nothing about their `return`s. -/
theorem returnsAny_numberAll (body : List (Stmt ι)) (next : Nat) :
    returnsAny (numberAll next body).1 = returnsAny body := by
  match body with
  | [] => rfl
  | s :: rest =>
    show ((s.number next).1.returns || returnsAny (numberAll (s.number next).2 rest).1) = _
    rw [returns_number s, returnsAny_numberAll rest]
    rfl

end

end Stmt

namespace Grammar

variable {tokens rest : List Token} {Expression : Language Expr}
  {Statement : Language (Stmt Unit)} {Block Body : Language (List (Stmt Unit))}

/-! ### Phrases -/

/-- No tree of the language has a `return` outside of functions. -/
def Holds (L : Language (Stmt Unit)) : Prop :=
  ∀ ⦃tokens : List Token⦄ ⦃s : Stmt Unit⦄ ⦃rest : List Token⦄, L tokens s rest → s.returns = false

/-- If no phrase has a `return`, a sequence of phrases has none. -/
theorem Holds.repeated {Item : Language (Stmt Unit)} (h : Holds Item) {body : List (Stmt Unit)}
    (hbody : Repeated Item tokens body rest) : Stmt.returnsAny body = false := by
  induction hbody with
  | nil => rfl
  | cons hs _ ih => exact Bool.or_eq_false_iff.2 ⟨h hs, ih⟩

/-- A declaration of a variable has no `return`. -/
theorem holds_variableDeclaration : Holds (VariableDeclaration Expression) := by
  intro tokens s rest h
  cases h with
  | initialized => rfl
  | bare => rfl

/-- An expression statement has no `return`. -/
theorem holds_expressionStatement : Holds (ExpressionStatement Expression) := by
  intro tokens s rest h
  cases h with
  | expression => rfl

/-- The initializer of a loop has no `return`. -/
theorem returns_initializer {initializer : Option (Stmt Unit)}
    (h : Initializer Expression tokens initializer rest) :
    initializer.any Stmt.returns = false := by
  cases h with
  | none => rfl
  | «variable» _ h => exact holds_variableDeclaration h
  | expression h => exact holds_expressionStatement h

/-- Statements outside of functions have no `return`, if those one level deeper have none. -/
theorem holds_anyStatement (hstatement : Holds Statement)
    (hblock : ∀ ⦃tokens body rest⦄, Block tokens body rest → Stmt.returnsAny body = false) :
    Holds (AnyStatement false Expression Statement Block) := by
  intro tokens s rest h
  cases h with
  | print => rfl
  | block _ hbody => exact hblock hbody
  | ifThen _ _ _ _ hyes _ =>
    rw [Stmt.returns]
    exact hstatement hyes
  | ifElse _ _ _ _ hyes _ hno =>
    exact Bool.or_eq_false_iff.2 ⟨hstatement hyes, hstatement hno⟩
  | «while» _ _ _ _ hbody =>
    rw [Stmt.returns]
    exact hstatement hbody
  | «for» _ _ hinitializer _ _ _ _ hbody =>
    rw [Stmt.returns_forLoop]
    exact Bool.or_eq_false_iff.2 ⟨returns_initializer hinitializer, hstatement hbody⟩
  | «return» hinside =>
    -- The phrase is one of function bodies only.
    cases hinside
  | expression h => exact holds_expressionStatement h

/-- Declarations have no `return` outside of functions, if statements have none. -/
theorem holds_anyDeclaration (hstatement : Holds Statement) :
    Holds (AnyDeclaration Expression Statement Body) := by
  intro tokens s rest h
  cases h with
  | «variable» _ h => exact holds_variableDeclaration h
  | function _ h =>
    cases h with
    -- What stands in the body does not count.
    | function => rfl
  | statement h => exact hstatement h

/-- Statements and blocks outside of functions have no `return` but in functions. -/
theorem returns_statement_block (free : Nat) :
    Holds (Grammar.Statement free false) ∧
      ∀ ⦃tokens body rest⦄, Grammar.Block free false tokens body rest →
        Stmt.returnsAny body = false := by
  induction free with
  | zero => exact ⟨fun _ _ _ h => False.elim h, fun _ _ _ h => False.elim h⟩
  | succ free ih =>
    refine ⟨holds_anyStatement ih.1 ih.2, fun tokens body rest h => ?_⟩
    cases h with
    | close hbody _ => exact (holds_anyDeclaration ih.1).repeated hbody

/-- A program of the grammar has no `return` outside of functions. -/
theorem returns_program {program : List (Stmt Unit)} (h : Program tokens program rest) :
    Stmt.returnsAny program = false :=
  (holds_anyDeclaration (returns_statement_block maxNesting).1).repeated h

end Grammar

/-- **No `return` outside of functions.** In a program text without syntax errors, each `return`
    stands in the body of a function. -/
theorem returns_of_parse_scan {source : String} {program : List (Stmt Unit)}
    (h : parse (scan source) = (program, [])) : Stmt.returnsAny program = false := by
  obtain ⟨words, c, hreads, hend, hscan⟩ := Cursor.scan_eq_append source
  rw [hscan, Grammar.parse_eq_nil_iff hend hreads.kind_ne] at h
  exact Grammar.returns_program h

end Lox
