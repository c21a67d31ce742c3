import Lox.Proofs.Syntax.Place

namespace Lox

/-!
# Each declaration has a number of its own

Loading a program numbers the functions that are declared in it, at whatever depth: with numbers
from the next free one on, up to the one that is free then, and none of them twice. So a number
tells in which place of which program a function is declared, even if the same text stands in
several places.

* `Stmt.id?` — the number of a declaration.
* `Stmt.Numbers` — numbers within given bounds, none of them twice.
* `Stmt.numbers_numberAll` — the numbers in a program that is loaded.
* `Stmt.Numbers.place_unique` — the place of a number.
-/

variable {ι : Type} {a b c : Nat}

namespace Stmt

/-- The number of the function that a statement declares. -/
def id? : Stmt Nat → Option Nat
  | .function id .. => some id
  | _ => none

/-- The statements declare functions with numbers from `a` on and below `b`, with none of them
    twice. -/
structure Numbers (a b : Nat) (statements : List (Stmt Nat)) : Prop where
  le : a ≤ b
  bounds : ∀ s ∈ statements, ∀ id ∈ s.id?, a ≤ id ∧ id < b
  distinct : statements.Pairwise fun s s' => ∀ id ∈ s.id?, id ∉ s'.id?

namespace Numbers

variable {statements statements' : List (Stmt Nat)}

theorem nil (a : Nat) : Numbers a a [] := ⟨Nat.le_refl a, by simp, .nil⟩

/-- A statement that declares no function. -/
theorem cons {s : Stmt Nat} (hs : s.id? = none) (h : Numbers a b statements) :
    Numbers a b (s :: statements) where
  le := h.le
  bounds := List.forall_mem_cons.2 ⟨by simp [hs], h.bounds⟩
  distinct := .cons (by simp [hs]) h.distinct

/-- The function around gets its number after those inside. -/
theorem cons_function (h : Numbers a b statements) (name : Token) (parameters : List Token)
    (body : List (Stmt Nat)) :
    Numbers a (b + 1) (.function b name parameters body :: statements) where
  le := Nat.le_succ_of_le h.le
  bounds := by
    refine List.forall_mem_cons.2 ⟨fun id hid => ?_, fun s hs id hid => ?_⟩
    · obtain rfl : b = id := Option.some.inj hid
      exact ⟨h.le, Nat.lt_succ_self b⟩
    · have := h.bounds s hs id hid
      omega
  distinct := by
    refine .cons (fun s hs id hid hid' => ?_) h.distinct
    obtain rfl : b = id := Option.some.inj hid
    exact absurd (h.bounds s hs b hid').2 (Nat.lt_irrefl b)

/-- Numbers from one bound to the next and from there on are numbers from the first bound to the
    last. -/
theorem append (h : Numbers a b statements) (h' : Numbers b c statements') :
    Numbers a c (statements ++ statements') where
  le := Nat.le_trans h.le h'.le
  bounds := by
    refine List.forall_mem_append.2 ⟨fun s hs id hid => ?_, fun s hs id hid => ?_⟩
    · have := h.bounds s hs id hid
      have := h'.le
      omega
    · have := h'.bounds s hs id hid
      have := h.le
      omega
  distinct := by
    refine List.pairwise_append.2 ⟨h.distinct, h'.distinct, fun s hs s' hs' id hid hid' => ?_⟩
    have := h.bounds s hs id hid
    have := h'.bounds s' hs' id hid'
    omega

/-- Functions of the same number are declared in the same place. -/
theorem place_unique (h : Numbers a b statements) {i j : Nat} {s s' : Stmt Nat} {id : Nat}
    (hs : statements[i]? = some s) (hs' : statements[j]? = some s') (hid : s.id? = some id)
    (hid' : s'.id? = some id) : i = j := by
  obtain ⟨hi, rfl⟩ := List.getElem?_eq_some_iff.1 hs
  obtain ⟨hj, rfl⟩ := List.getElem?_eq_some_iff.1 hs'
  have hdistinct := List.pairwise_iff_getElem.1 h.distinct
  rcases Nat.lt_trichotomy i j with hlt | heq | hlt
  · exact absurd hid' (hdistinct i j hi hj hlt id hid)
  · exact heq
  · exact absurd hid (hdistinct j i hj hi hlt id hid')

end Numbers

mutual

/-- Numbering a statement gives numbers from `next` on, none of them twice. -/
theorem numbers_number (s : Stmt ι) (next : Nat) :
    Numbers next (s.number next).2 (s.number next).1.parts := by
  match s with
  | .block body => exact (numbers_numberAll body next).cons rfl
  | .ifThen c yes => exact (numbers_number yes next).cons rfl
  | .ifElse c yes no =>
    exact ((numbers_number yes next).append (numbers_number no (yes.number next).2)).cons rfl
  | .while c body => exact (numbers_number body next).cons rfl
  | .function i name parameters body =>
    exact (numbers_numberAll body next).cons_function name parameters _
  | .expression _ | .print _ _ | .variable _ _ | .return _ _ => exact (Numbers.nil next).cons rfl

/-- **Loading a program gives each declaration of a function a number of its own.** -/
theorem numbers_numberAll (body : List (Stmt ι)) (next : Nat) :
    Numbers next (numberAll next body).2 (partsAll (numberAll next body).1) := by
  match body with
  | [] => exact .nil next
  | s :: rest =>
    exact (numbers_number s next).append (numbers_numberAll rest (s.number next).2)

end

end Stmt

end Lox
