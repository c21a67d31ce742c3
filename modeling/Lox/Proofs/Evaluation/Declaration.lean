import Lox.Proofs.Evaluation.Scope
import Lox.Proofs.Evaluation.Simulation
import Mathlib.Data.List.Forall2

namespace Lox

/-!
# The declarations that a run makes

A statement binds names in the current scope by the declarations that are executed in it, and in no
other way: those in blocks and in the bodies of functions belong to scopes further in. The
declarations of a run are computed along with it and with the same fuel, each with the machine at
that point. Between them, no name is bound in the current scope.

* `Declaration` — a declaration with the machine on which its name is bound.
* `executeDeclarations`, `executeBlockDeclarations`, `loopDeclarations` — those of a run.
* `Machine.Passes` — the way of a run along its declarations.
* `Declaring` — the declarations tell the way of a run, with lemmas for steps and sequences.
* `declaringAll` — so they do for statements, blocks and loops.
* `Simulation.declareAlike` — related runs make the same declarations, on related machines.
-/

variable {α β : Type} {settings : Settings} {fuel : Nat}

open Run (IsFinal Keeps after behind)

/-- A declaration that is executed in the current scope. -/
structure Declaration where
  name : Token
  value : Value
  /-- The machine just before the name is bound to the value, which has been evaluated. -/
  machine : Machine

namespace Declaration

/-- The name that is bound. -/
def bound (d : Declaration) : String := d.name.lexeme

/-- The machine just after the name is bound. -/
def done (d : Declaration) : Machine :=
  { d.machine with env := d.machine.env.define d.bound d.value }

end Declaration

/-! ### The declarations of a run -/

mutual

/-- The declarations in the current scope when a statement is executed. -/
def executeDeclarations (settings : Settings) :
    (fuel : Nat) → Stmt Nat → Machine → List Declaration
  | 0, _, _ => []
  | fuel + 1, .variable name e, m =>
    behind (evaluate settings fuel e m) fun value m => [⟨name, value, m⟩]
  | _ + 1, .function id name parameters body, m =>
    [⟨name, .callable (.function ⟨id, name, parameters, body⟩), m⟩]
  | fuel + 1, .ifThen condition yes, m =>
    behind (evaluate settings fuel condition m) fun value m =>
      if value.isTruthy then executeDeclarations settings fuel yes m else []
  | fuel + 1, .ifElse condition yes no, m =>
    behind (evaluate settings fuel condition m) fun value m =>
      if value.isTruthy then executeDeclarations settings fuel yes m
      else executeDeclarations settings fuel no m
  | fuel + 1, .while condition body, m => loopDeclarations settings fuel condition body m
  | _ + 1, .expression _, _ | _ + 1, .print .., _ | _ + 1, .return .., _ => []
  -- A block has a scope of its own.
  | _ + 1, .block _, _ => []

/-- The declarations in the current scope when statements are executed as a block. -/
def executeBlockDeclarations (settings : Settings) :
    (fuel : Nat) → List (Stmt Nat) → Machine → List Declaration
  | 0, _, _ => []
  | _ + 1, [], _ => []
  | fuel + 1, s :: rest, m =>
    executeDeclarations settings fuel s m ++ behind (execute settings fuel s m) fun flow m =>
      match flow with
      | .return _ => []
      | .normal => executeBlockDeclarations settings fuel rest m

/-- The declarations in the current scope when a loop is executed. -/
def loopDeclarations (settings : Settings) :
    (fuel : Nat) → (condition : Expr) → (body : Stmt Nat) → Machine → List Declaration
  | 0, _, _, _ => []
  | fuel + 1, condition, body, m =>
    behind (evaluate settings fuel condition m) fun value m =>
      if value.isTruthy then
        executeDeclarations settings fuel body m ++ behind (execute settings fuel body m)
          fun flow m =>
            match flow with
            | .return _ => []
            | .normal => loopDeclarations settings fuel condition body m
      else []

end

/-! ### The way along the declarations -/

/-- The way from one machine to another, on which some declarations are made and no other name is
    bound in the current scope. -/
inductive Machine.Passes : Machine → List Declaration → Machine → Prop
  | still {m n : Machine} : Machine.Confined [] m n → Passes m [] n
  | declare {m n : Machine} {d : Declaration} {rest : List Declaration} :
      Machine.Confined [] m d.machine → Passes d.done rest n → Passes m (d :: rest) n

namespace Machine.Passes

variable {m k n : Machine} {d : Declaration} {before rest : List Declaration}

/-- The way ends with frames that form a stack. -/
theorem isStack (h : Passes m rest n) : n.env.IsStack := by
  induction h with
  | still hconfined => exact hconfined.isStack
  | declare _ _ ih => exact ih

/-- A way may begin with a stretch on which no name is bound in the current scope. -/
theorem of_confined (h : Machine.Confined [] m k) (hrest : Passes k rest n) :
    Passes m rest n := by
  cases hrest with
  | still hconfined => exact .still (h.trans hconfined)
  | declare hconfined hrest => exact .declare (h.trans hconfined) hrest

/-- Two ways, the second of which starts where the first one ends, make one. -/
theorem append (h : Passes m before k) (hrest : Passes k rest n) :
    Passes m (before ++ rest) n := by
  induction h with
  | still hconfined => exact .of_confined hconfined hrest
  -- The stretch before the first declaration stays the first one of the whole way.
  | declare hconfined _ ih => exact .declare hconfined (ih hrest)

/-- Up to a declaration just those before it have been made. -/
theorem split (h : Passes m (before ++ d :: rest) n) :
    Passes m before d.machine ∧ Passes d.done rest n := by
  induction before generalizing m with
  | nil =>
    cases h with
    | declare hconfined hrest => exact ⟨.still hconfined, hrest⟩
  | cons e before ih =>
    cases h with
    | declare hconfined hrest =>
      obtain ⟨hbefore, hbehind⟩ := ih hrest
      exact ⟨.declare hconfined hbefore, hbehind⟩

/-- The way binds the declared names in the current scope and no others. -/
theorem confined (h : Passes m rest n) :
    Environment.Confined (rest.map Declaration.bound) m.env n.env := by
  induction h with
  | still hconfined => exact hconfined.env
  | @declare m n d rest hconfined _ ih =>
    have hdefine := hconfined.isStack.confined_define d.bound d.value
    have hname : [d.bound] ⊆ (d :: rest).map Declaration.bound := by simp
    have hrest : rest.map Declaration.bound ⊆ (d :: rest).map Declaration.bound := by simp
    exact (hconfined.env.mono (List.nil_subset _)).trans
      ((hdefine.mono hname).trans (ih.mono hrest))

end Machine.Passes

open Machine (Passes)

/-! ### Steps and sequences -/

/-- The run makes the declarations that are told for the machine it starts on. -/
def Declaring (t : Machine → List Declaration) (r : Run α) : Prop :=
  ∀ m : Machine, m.env.IsStack → Passes m (t m) (after r m)

namespace Declaring

variable {t : Machine → List Declaration} {r : Run α}

/-- A run that binds no name in the current scope makes no declaration. -/
theorem of_keeps (h : Keeps [] r) : Declaring (fun _ => []) r := fun m hm => .still (h m hm)

/-- Binding a name is one declaration, made on the machine that the run starts on. -/
theorem define (name : Token) (value : Value) :
    Declaring (fun m => [⟨name, value, m⟩]) (Run.define name value) := by
  intro m hm
  exact .declare (.refl [] hm) (.still (.refl [] (hm.define name.lexeme value)))

/-- The declarations of a sequence are those of its first part and, if that ends with a value, those
    of the second part with this value. -/
theorem bind {t' : α → Machine → List Declaration} {f : α → Run β} (h : Declaring t r)
    (hf : ∀ a, Declaring (t' a) (f a)) :
    Declaring (fun m => t m ++ behind (r m) t') (r >>= f) := by
  intro m hm
  have hfirst := h m hm
  show Passes m (t m ++ behind (r m) t') _
  rw [Run.after_bind]
  cases hr : r m with
  | ok a n =>
    rw [Run.after_eq_of_ok hr] at hfirst
    exact hfirst.append (hf a n hfirst.isStack)
  -- The second part is not reached, and nothing is behind the first one.
  | error stop n =>
    rw [Run.after_eq_of_error hr] at hfirst
    exact hfirst.append (.still (.refl [] hfirst.isStack))

/-- Behind a run that declares nothing. -/
theorem behind_keeps {t' : α → Machine → List Declaration} {f : α → Run β} (h : Keeps [] r)
    (hf : ∀ a, Declaring (t' a) (f a)) : Declaring (fun m => behind (r m) t') (r >>= f) :=
  (of_keeps h).bind hf

/-- What is done with the value of a run declares nothing. -/
theorem bind_pure {f : α → β} (h : Declaring t r) : Declaring t (r >>= fun a => pure (f a)) := by
  simpa using h.bind fun a => of_keeps (.pure (f a))

theorem ite {p : Prop} [Decidable p] {t' : Machine → List Declaration} {u : Run α}
    (h : Declaring t r) (hu : Declaring t' u) :
    Declaring (fun m => if p then t m else t' m) (if p then r else u) := by
  by_cases hp : p
  · simpa only [if_pos hp] using h
  · simpa only [if_neg hp] using hu

end Declaring

/-! ### Programs -/

/-- With some fuel, the declarations tell the way of all runs. -/
structure DeclaringAll (settings : Settings) (fuel : Nat) : Prop where
  execute (s : Stmt Nat) :
    Declaring (executeDeclarations settings fuel s) (execute settings fuel s)
  executeBlock (body : List (Stmt Nat)) :
    Declaring (executeBlockDeclarations settings fuel body) (executeBlock settings fuel body)
  loop (condition : Expr) (body : Stmt Nat) :
    Declaring (loopDeclarations settings fuel condition body) (loop settings fuel condition body)

/-- Without fuel nothing is declared. -/
theorem declaringAll_zero : DeclaringAll settings 0 where
  execute _ := .of_keeps .exhausted
  executeBlock _ := .of_keeps .exhausted
  loop _ _ := .of_keeps .exhausted

namespace DeclaringAll

variable (h : DeclaringAll settings fuel)

include h

/-- The declarations of a statement tell its way, if with one fuel less they do so for all runs. -/
theorem execute_succ (s : Stmt Nat) :
    Declaring (executeDeclarations settings (fuel + 1) s)
      (Lox.execute settings (fuel + 1) s) := by
  have hk := keepsAll settings fuel
  have hk' := keepsAll settings (fuel + 1)
  cases s with
  | expression e => exact .of_keeps (hk'.execute (.expression e))
  | print keyword e => exact .of_keeps (hk'.execute (.print keyword e))
  | «return» keyword e => exact .of_keeps (hk'.execute (.return keyword e))
  | block body => exact .of_keeps (hk'.execute (.block body))
  | «variable» name e =>
    exact .behind_keeps (hk.evaluate e) fun value => (Declaring.define name value).bind_pure
  | function id name parameters body => exact (Declaring.define name _).bind_pure
  | ifThen condition yes =>
    exact .behind_keeps (hk.evaluate condition) fun value =>
      (h.execute yes).ite (.of_keeps (.pure _))
  | ifElse condition yes no =>
    exact .behind_keeps (hk.evaluate condition) fun value => (h.execute yes).ite (h.execute no)
  | «while» condition body => exact h.loop condition body

/-- The declarations of a block tell its way, if with one fuel less they do so for all runs. -/
theorem executeBlock_succ (body : List (Stmt Nat)) :
    Declaring (executeBlockDeclarations settings (fuel + 1) body)
      (Lox.executeBlock settings (fuel + 1) body) := by
  cases body with
  | nil => exact .of_keeps (.pure _)
  | cons s rest =>
    refine (h.execute s).bind fun flow => ?_
    cases flow with
    -- The statements behind one that returns are not executed.
    | «return» value => exact .of_keeps (.pure _)
    | normal => exact h.executeBlock rest

/-- The declarations of a loop tell its way, if with one fuel less they do so for all runs. -/
theorem loop_succ (condition : Expr) (body : Stmt Nat) :
    Declaring (loopDeclarations settings (fuel + 1) condition body)
      (Lox.loop settings (fuel + 1) condition body) := by
  refine .behind_keeps ((keepsAll settings fuel).evaluate condition) fun value =>
    .ite ?_ (.of_keeps (.pure _))
  refine (h.execute body).bind fun flow => ?_
  cases flow with
  | «return» value => exact .of_keeps (.pure _)
  | normal => exact h.loop condition body

end DeclaringAll

/-- With any fuel, the declarations tell the way of every statement, block and loop. -/
theorem declaringAll (settings : Settings) (fuel : Nat) : DeclaringAll settings fuel := by
  induction fuel with
  | zero => exact declaringAll_zero
  | succ fuel ih => exact ⟨ih.execute_succ, ih.executeBlock_succ, ih.loop_succ⟩

/-! ### Related runs -/

namespace Simulation

open Run (Alike Follows)

variable {ι : Type} (S : Simulation ι) {i : ι} {m m' : Machine}

/-- The same name is bound to the same value on related machines. -/
structure RelatesDeclarations (i : ι) (d d' : Declaration) : Prop where
  name : d'.name = d.name
  value : d'.value = d.value
  machines : S.machines i d.machine d'.machine

variable {S}

/-- Runs that follow each other both end, and alike, or neither of them does. -/
theorem alike_or {r r' : Run α} (h : Follows (S.machines i) r r')
    (h' : Follows (S.flip.machines i) r' r) (hm : S.machines i m m') :
    Alike (S.machines i) (r m) (r' m') ∨ ¬ IsFinal (r m) ∧ ¬ IsFinal (r' m') := by
  by_cases hfinal : IsFinal (r m)
  · exact .inl (h m m' hm hfinal)
  · refine .inr ⟨hfinal, fun hfinal' => hfinal ?_⟩
    have halike := h' m' m (machines_flip.2 hm) hfinal'
    generalize r m = x, r' m' = x' at *
    cases halike with
    | ok a hn => trivial
    | error stop hn =>
      cases stop with
      | failed e => trivial
      | outOfFuel => exact hfinal'

/-- What goes on behind two such runs is related if it is so with each value. -/
theorem relates_behind {σ : Type} {P : σ → σ → Prop} {t t' : α → Machine → List σ} {r r' : Run α}
    (h : Follows (S.machines i) r r') (h' : Follows (S.flip.machines i) r' r)
    (hm : S.machines i m m')
    (hrest : ∀ a {n n'}, S.machines i n n' → List.Forall₂ P (t a n) (t' a n')) :
    List.Forall₂ P (behind (r m) t) (behind (r' m') t') := by
  -- Nothing goes on behind a want of fuel.
  have hnone {x : EStateM.Result Stop Machine α} (hx : ¬ IsFinal x) (t : α → Machine → List σ) :
      behind x t = [] := by
    cases x with
    | ok a n => exact absurd trivial hx
    | error stop n => rfl
  rcases alike_or h h' hm with halike | ⟨hx, hx'⟩
  · generalize r m = x, r' m' = x' at halike
    cases halike with
    | ok a hn => exact hrest a hn
    | error stop hn => exact .nil
  · rw [hnone hx, hnone hx']
    exact .nil

/-- With some fuel, related runs make the same declarations. -/
structure DeclareAlike (S : Simulation ι) (settings : Settings) (fuel : Nat) : Prop where
  execute {i : ι} (hbinds : S.binds i) (s : Stmt Nat) {m m' : Machine} : S.machines i m m' →
    List.Forall₂ (S.RelatesDeclarations i) (executeDeclarations settings fuel s m)
      (executeDeclarations settings fuel s m')
  executeBlock {i : ι} (hbinds : S.binds i) (body : List (Stmt Nat)) {m m' : Machine} :
    S.machines i m m' → List.Forall₂ (S.RelatesDeclarations i)
      (executeBlockDeclarations settings fuel body m)
      (executeBlockDeclarations settings fuel body m')
  loop {i : ι} (hbinds : S.binds i) (condition : Expr) (body : Stmt Nat) {m m' : Machine} :
    S.machines i m m' → List.Forall₂ (S.RelatesDeclarations i)
      (loopDeclarations settings fuel condition body m)
      (loopDeclarations settings fuel condition body m')

/-- Without fuel, related runs make no declarations. -/
theorem declareAlike_zero : S.DeclareAlike settings 0 where
  execute _ _ _ _ _ := .nil
  executeBlock _ _ _ _ _ := .nil
  loop _ _ _ _ _ _ := .nil

namespace DeclareAlike

variable (h : S.DeclareAlike settings fuel) (hbinds : S.binds i) (hm : S.machines i m m')

include h hbinds hm

/-- Related runs of a statement make the same declarations, if with one fuel less all related runs
    do so. -/
theorem execute_succ (s : Stmt Nat) :
    List.Forall₂ (S.RelatesDeclarations i) (executeDeclarations settings (fuel + 1) s m)
      (executeDeclarations settings (fuel + 1) s m') := by
  have hc := S.covers settings (Nat.le_refl fuel)
  have hc' := S.flip.covers settings (Nat.le_refl fuel)
  cases s with
  | expression e => exact .nil
  | print keyword e => exact .nil
  | «return» keyword e => exact .nil
  | block body => exact .nil
  | «variable» name e =>
    exact relates_behind (hc.evaluate i e) (hc'.evaluate i e) hm fun value _ _ hn =>
      .cons ⟨rfl, rfl, hn⟩ .nil
  | function id name parameters body => exact .cons ⟨rfl, rfl, hm⟩ .nil
  | ifThen condition yes =>
    refine relates_behind (hc.evaluate i condition) (hc'.evaluate i condition) hm
      fun value _ _ hn => ?_
    split
    · exact h.execute hbinds yes hn
    · exact .nil
  | ifElse condition yes no =>
    refine relates_behind (hc.evaluate i condition) (hc'.evaluate i condition) hm
      fun value _ _ hn => ?_
    split
    · exact h.execute hbinds yes hn
    · exact h.execute hbinds no hn
  | «while» condition body => exact h.loop hbinds condition body hm

/-- Related runs of a block make the same declarations, if with one fuel less all related runs do
    so. -/
theorem executeBlock_succ (body : List (Stmt Nat)) :
    List.Forall₂ (S.RelatesDeclarations i) (executeBlockDeclarations settings (fuel + 1) body m)
      (executeBlockDeclarations settings (fuel + 1) body m') := by
  cases body with
  | nil => exact .nil
  | cons s rest =>
    have hc := (S.covers settings (Nat.le_refl fuel)).execute i s (.inl hbinds)
    have hc' := (S.flip.covers settings (Nat.le_refl fuel)).execute i s (.inl hbinds)
    refine List.rel_append (h.execute hbinds s hm) (relates_behind hc hc' hm fun flow _ _ hn => ?_)
    cases flow with
    | «return» value => exact .nil
    | normal => exact h.executeBlock hbinds rest hn

/-- Related runs of a loop make the same declarations, if with one fuel less all related runs do
    so. -/
theorem loop_succ (condition : Expr) (body : Stmt Nat) :
    List.Forall₂ (S.RelatesDeclarations i)
      (loopDeclarations settings (fuel + 1) condition body m)
      (loopDeclarations settings (fuel + 1) condition body m') := by
  have hc := S.covers settings (Nat.le_refl fuel)
  have hc' := S.flip.covers settings (Nat.le_refl fuel)
  refine relates_behind (hc.evaluate i condition) (hc'.evaluate i condition) hm
    fun value _ _ hn => ?_
  split
  · refine List.rel_append (h.execute hbinds body hn) (relates_behind
      (hc.execute i body (.inl hbinds)) (hc'.execute i body (.inl hbinds)) hn fun flow _ _ hk => ?_)
    cases flow with
    | «return» value => exact .nil
    | normal => exact h.loop hbinds condition body hk
  · exact .nil

end DeclareAlike

/-- Related runs make the same declarations, each on related machines. -/
theorem declareAlike (S : Simulation ι) (settings : Settings) (fuel : Nat) :
    S.DeclareAlike settings fuel := by
  induction fuel with
  | zero => exact declareAlike_zero
  | succ fuel ih =>
    exact ⟨fun hbinds s _ _ hm => ih.execute_succ hbinds hm s,
      fun hbinds body _ _ hm => ih.executeBlock_succ hbinds hm body,
      fun hbinds condition body _ _ hm => ih.loop_succ hbinds hm condition body⟩

end Simulation

end Lox
