import Lox.Proofs.Syntax.ForLoop

namespace Lox

/-!
# The names that a statement binds

A declaration binds its name in the scope in which it stands. So do an `if` and a `while` that have
a declaration for a branch or a body, but no such tree is read from a text: there, declarations
stand in programs and in blocks only.

* `Stmt.declared?` — the name that a declaration declares.
* `Stmt.boundNames` — all names that a statement may bind in the scope in which it stands.
* `Stmt.parts`, `Stmt.partsAll` — statements with all statements inside them.
* `Stmt.IsOrderly` — in all parts of a statement, only declarations bind names.
* `Stmt.IsOrderly.number` — numbering functions does not change that.
-/

variable {ι : Type}

/-- The name that a declaration declares. Other statements declare none. -/
def Stmt.declared? : Stmt ι → Option String
  | .variable name _ | .function _ name _ _ => some name.lexeme
  | _ => none

/-- The names that a statement may bind in the scope in which it stands. -/
def Stmt.boundNames : Stmt ι → List String
  | .variable name _ | .function _ name _ _ => [name.lexeme]
  | .ifThen _ yes => yes.boundNames
  | .ifElse _ yes no => yes.boundNames ++ no.boundNames
  | .while _ body => body.boundNames
  | _ => []

/-- A list of statements binds what its first statement binds and what the others bind. -/
theorem Stmt.subset_flatMap_boundNames_cons (s : Stmt ι) (rest : List (Stmt ι)) :
    s.boundNames ⊆ (s :: rest).flatMap boundNames ∧
      rest.flatMap boundNames ⊆ (s :: rest).flatMap boundNames := by
  simp

/-- A plain statement binds no name in the scope in which it stands. -/
theorem Stmt.boundNames_of_isPlain {s : Stmt ι} (h : s.isPlain) : s.boundNames = [] := by
  induction s using Stmt.isPlain.induct with
  | case1 | case2 => exact absurd h Bool.false_ne_true
  | case3 condition yes ih => exact ih h
  | case4 condition yes no ihyes ihno =>
    obtain ⟨hyes, hno⟩ := Bool.and_eq_true_iff.1 h
    simp [boundNames, ihyes hyes, ihno hno]
  | case5 condition body ih => exact ih h
  | case6 s hvariable hfunction hthen helse hwhile => simp [boundNames]

/-- A plain statement is no declaration. -/
theorem Stmt.declared?_of_isPlain {s : Stmt ι} (h : s.isPlain) : s.declared? = none := by
  cases s with
  | «variable» | function => exact absurd h Bool.false_ne_true
  | _ => rfl

/-! ### Statements inside statements -/

mutual

/-- A statement and all statements inside it, the bodies of functions included. -/
def Stmt.parts : Stmt ι → List (Stmt ι)
  | .block body => .block body :: Stmt.partsAll body
  | .ifThen c yes => .ifThen c yes :: yes.parts
  | .ifElse c yes no => .ifElse c yes no :: (yes.parts ++ no.parts)
  | .while c body => .while c body :: body.parts
  | .function i name parameters body =>
    .function i name parameters body :: Stmt.partsAll body
  | s => [s]

/-- Several statements and all statements inside them. -/
def Stmt.partsAll : List (Stmt ι) → List (Stmt ι)
  | [] => []
  | s :: rest => s.parts ++ Stmt.partsAll rest

end

/-- A statement is inside of several others just if it is inside of one of them. -/
theorem Stmt.mem_partsAll {p : Stmt ι} {body : List (Stmt ι)} :
    p ∈ Stmt.partsAll body ↔ ∃ s ∈ body, p ∈ s.parts := by
  induction body with
  | nil => simp [partsAll]
  | cons s rest ih => simp [partsAll, ih]

/-- In the statement and in all statements inside it, names are bound by declarations only. -/
def Stmt.IsOrderly (s : Stmt ι) : Prop := ∀ p ∈ s.parts, p.boundNames = p.declared?.toList

namespace Stmt

variable {body : List (Stmt ι)} {c : Expr} {yes no s : Stmt ι}

/-- Declarations only bind names in several statements and all inside them just if each of these is
    orderly. -/
theorem forall_mem_partsAll :
    (∀ p ∈ partsAll body, p.boundNames = p.declared?.toList) ↔ ∀ s ∈ body, s.IsOrderly := by
  simp only [mem_partsAll, IsOrderly]
  exact ⟨fun h s hs p hp => h p ⟨s, hs, hp⟩, fun h p ⟨s, hs, hp⟩ => h s hs p hp⟩

/-- A block is orderly just if all statements in it are. -/
theorem isOrderly_block : (block body).IsOrderly ↔ ∀ s ∈ body, s.IsOrderly := by
  rw [← forall_mem_partsAll]
  simp [IsOrderly, parts, boundNames, declared?]

/-- A declaration of a function is orderly just if all statements of its body are. -/
theorem isOrderly_function {i : ι} {name : Token} {parameters : List Token} :
    (function i name parameters body).IsOrderly ↔ ∀ s ∈ body, s.IsOrderly := by
  rw [← forall_mem_partsAll]
  simp [IsOrderly, parts, boundNames, declared?]

/-- An `if` is orderly just if its branch is, and binds no name. -/
theorem isOrderly_ifThen : (ifThen c yes).IsOrderly ↔ yes.boundNames = [] ∧ yes.IsOrderly := by
  simp [IsOrderly, parts, boundNames, declared?]

/-- An `if` with an `else` is orderly just if both branches are, and bind no names. -/
theorem isOrderly_ifElse :
    (ifElse c yes no).IsOrderly ↔
      (yes.boundNames = [] ∧ no.boundNames = []) ∧ yes.IsOrderly ∧ no.IsOrderly := by
  simp [IsOrderly, parts, boundNames, declared?, or_imp, forall_and]

/-- A `while` is orderly just if its body is, and binds no name. -/
theorem isOrderly_while : (Stmt.while c s).IsOrderly ↔ s.boundNames = [] ∧ s.IsOrderly := by
  simp [IsOrderly, parts, boundNames, declared?]

/-- What may be the initializer of a loop is orderly. -/
theorem isOrderly_of_isClause (h : s.isClause) : s.IsOrderly := by
  cases s with
  | expression | «variable» => simp [IsOrderly, parts, boundNames, declared?]
  | _ => exact absurd h Bool.false_ne_true

/-! ### Numbering -/

/-- Numbering functions does not change which names a statement binds. -/
theorem boundNames_number (s : Stmt ι) (next : Nat) :
    (s.number next).1.boundNames = s.boundNames := by
  induction s using Stmt.boundNames.induct generalizing next with
  | case1 | case2 => rfl
  | case3 c yes ih => exact ih next
  | case4 c yes no ihyes ihno =>
    show (yes.number next).1.boundNames ++ (no.number (yes.number next).2).1.boundNames = _
    rw [ihyes, ihno]
    rfl
  | case5 c body ih => exact ih next
  -- The other statements bind no names, before and after.
  | case6 s hvariable hfunction hthen helse hwhile =>
    cases s with
    | «variable» name e => exact absurd rfl (hvariable name e)
    | function i name parameters body => exact absurd rfl (hfunction i name parameters body)
    | ifThen c yes => exact absurd rfl (hthen c yes)
    | ifElse c yes no => exact absurd rfl (helse c yes no)
    | «while» c body => exact absurd rfl (hwhile c body)
    | _ => rfl

mutual

/-- Numbering functions does not move declarations. -/
theorem IsOrderly.number (s : Stmt ι) (h : s.IsOrderly) (next : Nat) :
    (s.number next).1.IsOrderly := by
  match s with
  | .block body => exact isOrderly_block.2 (areOrderly_numberAll body (isOrderly_block.1 h) next)
  | .function i name parameters body =>
    exact isOrderly_function.2 (areOrderly_numberAll body (isOrderly_function.1 h) next)
  | .ifThen c yes =>
    obtain ⟨hbound, hyes⟩ := isOrderly_ifThen.1 h
    exact isOrderly_ifThen.2 ⟨(boundNames_number yes _).trans hbound, IsOrderly.number yes hyes _⟩
  | .ifElse c yes no =>
    obtain ⟨⟨hyesbound, hnobound⟩, hyes, hno⟩ := isOrderly_ifElse.1 h
    refine isOrderly_ifElse.2 ⟨⟨?_, ?_⟩, IsOrderly.number yes hyes _, IsOrderly.number no hno _⟩
    · exact (boundNames_number yes _).trans hyesbound
    · exact (boundNames_number no _).trans hnobound
  | .while c body =>
    obtain ⟨hbound, hbody⟩ := isOrderly_while.1 h
    exact isOrderly_while.2 ⟨(boundNames_number body _).trans hbound, IsOrderly.number body hbody _⟩
  | .expression _ | .print _ _ | .variable _ _ | .return _ _ =>
    simp [Stmt.number, IsOrderly, parts, boundNames, declared?]

/-- Numbering functions keeps all statements of a list orderly. -/
theorem areOrderly_numberAll (body : List (Stmt ι)) (h : ∀ s ∈ body, s.IsOrderly) (next : Nat) :
    ∀ s ∈ (numberAll next body).1, s.IsOrderly := by
  match body with
  | [] => exact fun s hs => absurd hs List.not_mem_nil
  | s :: rest =>
    obtain ⟨hs, hrest⟩ := List.forall_mem_cons.1 h
    exact List.forall_mem_cons.2 ⟨IsOrderly.number s hs next, areOrderly_numberAll rest hrest _⟩

end

end Stmt

/-! ### Loops -/

/-- Written with `while`, a loop of orderly parts is orderly. -/
theorem ForLoop.isOrderly_desugared {l : ForLoop ι} (h : l.IsWellFormed)
    (hbody : l.body.IsOrderly) : l.desugared.IsOrderly := by
  have hturn : l.turnBlock.boundNames = [] ∧ l.turnBlock.IsOrderly := by
    unfold turnBlock
    cases l.step with
    | none => exact ⟨Stmt.boundNames_of_isPlain h.isPlain, hbody⟩
    | some e =>
      refine ⟨rfl, Stmt.isOrderly_block.2 (List.forall_mem_cons.2 ⟨hbody, ?_⟩)⟩
      exact List.forall_mem_singleton.2 (Stmt.isOrderly_of_isClause rfl)
  rw [desugared_eq]
  cases hinitializer : l.initializer with
  | none => exact Stmt.isOrderly_while.2 hturn
  | some s =>
    refine Stmt.isOrderly_block.2 (List.forall_mem_cons.2 ⟨?_, ?_⟩)
    · exact Stmt.isOrderly_of_isClause (h.isClause s hinitializer)
    · exact List.forall_mem_singleton.2 (Stmt.isOrderly_while.2 hturn)

end Lox
