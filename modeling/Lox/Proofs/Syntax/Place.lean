import Lox.Grammar.Expression
import Lox.Proofs.Syntax.Declared
import Lox.Value

namespace Lox

/-!
# The places of tokens in trees

Trees keep tokens for their operators, names and keywords, and a token has a kind that fits the
place where it stands. Which tokens a tree has at which places is told by a list.

* `Place`, `Place.fits` — the places, and the kinds of tokens that fit there.
* `Expr.places`, `Stmt.places` — the tokens of a tree, each with its place.
* `Stmt.places_number` — numbering functions leaves tokens where they are.
* `Stmt.within_of_mem_parts` — a statement has all that the statements inside it have.
* `Function.declaration` — the statement that a function value comes from.
-/

variable {ι : Type}

/-- Where a token can stand in a tree. -/
inductive Place
  | unary
  | binary
  | logical
  /-- A name that is read or assigned to. -/
  | variable
  /-- The parenthesis that closes the arguments of a call. -/
  | call
  | print
  /-- The name of a variable, a function or a parameter where it is declared. -/
  | declared
  | returned
deriving DecidableEq, Repr

/-- Whether a token of some kind can stand at a place. -/
def Place.fits : Place → Token.Kind → Bool
  | .unary, k => Grammar.isUnaryOperator k
  | .binary, k =>
    Grammar.isFactorOperator k || Grammar.isTermOperator k || Grammar.isComparison k ||
      Grammar.isEquality k
  | .logical, k => k == .keyword .and_ || k == .keyword .or_
  | .variable, k | .declared, k => k == .identifier
  | .call, k => k == .symbol .rightParen
  | .print, k => k == .keyword .print_
  | .returned, k => k == .keyword .return_

mutual

/-- The tokens in an expression, each with its place. -/
def Expr.places : Expr → List (Place × Token)
  | .constant _ => []
  | .group e => e.places
  | .unary op e => (.unary, op) :: e.places
  | .binary l op r => (.binary, op) :: (l.places ++ r.places)
  | .logical l op r => (.logical, op) :: (l.places ++ r.places)
  | .name n => [(.variable, n)]
  | .assign n e => (.variable, n) :: e.places
  | .call callee paren arguments => (.call, paren) :: (callee.places ++ Expr.placesAll arguments)

/-- The tokens in several expressions, each with its place. -/
def Expr.placesAll : List Expr → List (Place × Token)
  | [] => []
  | e :: es => e.places ++ Expr.placesAll es

end

mutual

/-- The tokens in a statement, each with its place. -/
def Stmt.places : Stmt ι → List (Place × Token)
  | .expression e => e.places
  | .print keyword e => (.print, keyword) :: e.places
  | .variable n e => (.declared, n) :: e.places
  | .block body => Stmt.placesAll body
  | .ifThen c yes => c.places ++ yes.places
  | .ifElse c yes no => c.places ++ (yes.places ++ no.places)
  | .while c body => c.places ++ body.places
  | .function _ n parameters body =>
    (.declared, n) :: (parameters.map (Prod.mk .declared) ++ Stmt.placesAll body)
  | .return keyword e => (.returned, keyword) :: e.places

/-- The tokens in several statements, each with its place. -/
def Stmt.placesAll : List (Stmt ι) → List (Place × Token)
  | [] => []
  | s :: rest => s.places ++ Stmt.placesAll rest

end

/-- A token is in several expressions just if it is in one of them, at the same place. -/
theorem Expr.mem_placesAll {p : Place × Token} {es : List Expr} :
    p ∈ Expr.placesAll es ↔ ∃ e ∈ es, p ∈ e.places := by
  induction es with
  | nil => simp [placesAll]
  | cons e es ih => simp [placesAll, ih]

namespace Stmt

/-- A token is in several statements just if it is in one of them, at the same place. -/
theorem mem_placesAll {p : Place × Token} {body : List (Stmt ι)} :
    p ∈ placesAll body ↔ ∃ s ∈ body, p ∈ s.places := by
  induction body with
  | nil => simp [placesAll]
  | cons s rest ih => simp [placesAll, ih]

/-- A loop has the tokens of its parts. -/
theorem mem_places_forLoop {p : Place × Token} {initializer : Option (Stmt ι)} {condition : Expr}
    {step : Option Expr} {body : Stmt ι} :
    p ∈ (forLoop initializer condition step body).places ↔
      (∃ s ∈ initializer, p ∈ s.places) ∨ p ∈ condition.places ∨ p ∈ body.places ∨
        ∃ e ∈ step, p ∈ e.places := by
  cases initializer <;> cases step <;> simp [forLoop, places, placesAll]

/-! ### Numbering -/

mutual

/-- Numbering the functions in a statement leaves its tokens where they are. -/
theorem places_number (s : Stmt ι) (next : Nat) : (s.number next).1.places = s.places := by
  match s with
  | .block body => exact placesAll_numberAll body next
  | .ifThen c yes => exact congrArg (c.places ++ ·) (places_number yes next)
  | .ifElse c yes no =>
    show c.places ++ ((yes.number next).1.places ++ (no.number (yes.number next).2).1.places) = _
    rw [places_number yes, places_number no]
    rfl
  | .while c body => exact congrArg (c.places ++ ·) (places_number body next)
  | .function i n parameters body =>
    show (.declared, n) :: (parameters.map (Prod.mk .declared) ++
      placesAll (numberAll next body).1) = _
    rw [placesAll_numberAll body]
    rfl
  | .expression _ | .print _ _ | .variable _ _ | .return _ _ => rfl

/-- Numbering the functions in several statements leaves their tokens where they are. -/
theorem placesAll_numberAll (body : List (Stmt ι)) (next : Nat) :
    placesAll (numberAll next body).1 = placesAll body := by
  match body with
  | [] => rfl
  | s :: rest =>
    show (s.number next).1.places ++ placesAll (numberAll (s.number next).2 rest).1 = _
    rw [places_number s, placesAll_numberAll rest]
    rfl

end

/-! ### Statements inside statements -/

/-- All tokens of the first statement, and all statements inside it, are also in the second one. -/
structure Within (p s : Stmt ι) : Prop where
  places : p.places ⊆ s.places
  parts : p.parts ⊆ s.parts

theorem Within.refl (s : Stmt ι) : s.Within s := ⟨List.Subset.refl _, List.Subset.refl _⟩

theorem Within.trans {p q s : Stmt ι} (h : p.Within q) (h' : q.Within s) : p.Within s :=
  ⟨List.Subset.trans h.places h'.places, List.Subset.trans h.parts h'.parts⟩

/-- Several statements have the tokens that each of them has. -/
theorem places_subset_placesAll {s : Stmt ι} {body : List (Stmt ι)} (h : s ∈ body) :
    s.places ⊆ placesAll body :=
  fun _ hp => mem_placesAll.2 ⟨s, h, hp⟩

/-- Several statements have all statements inside that each of them has. -/
theorem parts_subset_partsAll {s : Stmt ι} {body : List (Stmt ι)} (h : s ∈ body) :
    s.parts ⊆ partsAll body :=
  fun _ hp => mem_partsAll.2 ⟨s, h, hp⟩

mutual

/-- A statement has the tokens and the statements of each statement inside it. -/
theorem within_of_mem_parts {p : Stmt ι} (s : Stmt ι) (h : p ∈ s.parts) : p.Within s := by
  match s with
  | .block body =>
    -- It is the statement itself, or it is inside one of those that this one is made of.
    rcases List.mem_cons.1 h with rfl | h
    · exact .refl _
    obtain ⟨s, hs, hp⟩ := exists_within_of_mem_partsAll body h
    exact hp.trans
      ⟨places_subset_placesAll hs, List.subset_cons_of_subset _ (parts_subset_partsAll hs)⟩
  | .ifThen c yes =>
    rcases List.mem_cons.1 h with rfl | h
    · exact .refl _
    exact (within_of_mem_parts yes h).trans
      ⟨List.subset_append_right _ _, List.subset_cons_self _ _⟩
  | .ifElse c yes no =>
    rcases List.mem_cons.1 h with rfl | h
    · exact .refl _
    rcases List.mem_append.1 h with h | h
    · exact (within_of_mem_parts yes h).trans
        ⟨List.subset_append_of_subset_right _ (List.subset_append_left _ _),
          List.subset_cons_of_subset _ (List.subset_append_left _ _)⟩
    · exact (within_of_mem_parts no h).trans
        ⟨List.subset_append_of_subset_right _ (List.subset_append_right _ _),
          List.subset_cons_of_subset _ (List.subset_append_right _ _)⟩
  | .while c body =>
    rcases List.mem_cons.1 h with rfl | h
    · exact .refl _
    exact (within_of_mem_parts body h).trans
      ⟨List.subset_append_right _ _, List.subset_cons_self _ _⟩
  | .function i n parameters body =>
    rcases List.mem_cons.1 h with rfl | h
    · exact .refl _
    obtain ⟨s, hs, hp⟩ := exists_within_of_mem_partsAll body h
    exact hp.trans
      ⟨List.subset_cons_of_subset _
          (List.subset_append_of_subset_right _ (places_subset_placesAll hs)),
        List.subset_cons_of_subset _ (parts_subset_partsAll hs)⟩
  | .expression _ | .print _ _ | .variable _ _ | .return _ _ =>
    rw [List.mem_singleton.1 h]
    exact .refl _

/-- What is inside of several statements is inside of one of them, with its tokens and
    statements. -/
theorem exists_within_of_mem_partsAll {p : Stmt ι} (body : List (Stmt ι))
    (h : p ∈ partsAll body) : ∃ s ∈ body, p.Within s := by
  match body with
  | [] => exact absurd h List.not_mem_nil
  | s :: rest =>
    rcases List.mem_append.1 h with h | h
    · exact ⟨s, List.mem_cons_self, within_of_mem_parts s h⟩
    · obtain ⟨s', hs', hp⟩ := exists_within_of_mem_partsAll rest h
      exact ⟨s', List.mem_cons_of_mem s hs', hp⟩

end

end Stmt

/-- The statement that declares a function. -/
def Function.declaration (f : Function) : Stmt Nat := .function f.id f.name f.parameters f.body

end Lox
