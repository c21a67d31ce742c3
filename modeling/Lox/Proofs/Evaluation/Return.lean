import Lox.Proofs.Evaluation.Simulation
import Lox.Proofs.Grammar.Return
import Lox.Session

namespace Lox

/-!
# A `return` ends at a call

A `return` passes through blocks, branches and loops on its way to the call that it ends, and no
further. So a statement that has none outside of functions ends normally, or with an error, whatever
functions it calls, and a list of such statements may as well be executed as a block.

* `Run.Gives` — what holds of each value that a run can end with.
* `givesNormal` — such statements end normally.
* `follows_executeProgram`, `follows_executeBlock` — lists of them, executed in both ways.
* `return_ends_at_call` — the statements of a program text.
-/

variable {α β : Type} {settings : Settings} {fuel fuel' : Nat}

/-! ### Values that runs end with -/

namespace Run

/-- Each value that the run ends with, on whatever machine, has a property. -/
def Gives (P : α → Prop) (r : Run α) : Prop := ∀ m a n, r m = .ok a n → P a

namespace Gives

variable {P : α → Prop} {Q : β → Prop}

theorem pure {a : α} (h : P a) : Gives P (Pure.pure a : Run α) := by
  intro m b n hb
  cases hb
  exact h

theorem exhausted : Gives P (Run.exhausted : Run α) := nofun

/-- A sequence gives what its second part does with each value that the first part can give. -/
theorem bind {r : Run α} {f : α → Run β} (h : Gives P r) (hf : ∀ a, P a → Gives Q (f a)) :
    Gives Q (r >>= f) := by
  intro m b n hb
  rw [bind_eq] at hb
  cases hr : r m with
  | ok a n' =>
    rw [hr] at hb
    exact hf a (h m a n' hr) n' b n hb
  | error stop n' =>
    rw [hr] at hb
    cases hb

/-- A sequence, whatever its first part gives. -/
theorem after {r : Run α} {f : α → Run β} (hf : ∀ a, Gives Q (f a)) : Gives Q (r >>= f) :=
  bind (P := fun _ => True) (fun _ _ _ _ => trivial) fun a _ => hf a

theorem ite {c : Prop} [Decidable c] {r u : Run α} (h : Gives P r) (hu : Gives P u) :
    Gives P (if c then r else u) := by
  by_cases hc : c
  · rwa [if_pos hc]
  · rwa [if_neg hc]

/-- A run in a scope of its own gives the values that it gives without. -/
theorem inNewFrame {r : Run α} (h : Gives P r) : Gives P (Run.inNewFrame r) := by
  intro m a n ha
  rw [inNewFrame_eq] at ha
  cases hr : r { m with env := m.env.push } with
  | ok b n' =>
    rw [hr] at ha
    cases ha
    exact h _ a n' hr
  | error stop n' =>
    rw [hr] at ha
    cases ha

end Gives

end Run

open Run (Gives Follows)

/-! ### Statements without a `return` -/

/-- With some fuel, what has no `return` outside of functions ends normally, if with a value at
    all. -/
structure GivesNormal (settings : Settings) (fuel : Nat) : Prop where
  execute {s : Stmt Nat} : s.returns = false → Gives (· = .normal) (execute settings fuel s)
  executeBlock {body : List (Stmt Nat)} : Stmt.returnsAny body = false →
    Gives (· = .normal) (executeBlock settings fuel body)
  loop (condition : Expr) {body : Stmt Nat} : body.returns = false →
    Gives (· = .normal) (loop settings fuel condition body)

/-- Without fuel nothing ends with a value. -/
theorem givesNormal_zero : GivesNormal settings 0 where
  execute _ := .exhausted
  executeBlock _ := .exhausted
  loop _ _ _ := .exhausted

namespace GivesNormal

variable (h : GivesNormal settings fuel)

include h

/-- A statement without a `return` outside of functions ends normally, if with one fuel less all
    those do. -/
theorem execute_succ {s : Stmt Nat} (hs : s.returns = false) :
    Gives (· = .normal) (Lox.execute settings (fuel + 1) s) := by
  cases s with
  | expression e => exact .after fun _ => .pure rfl
  | print keyword e => exact .after fun _ => .after fun _ => .pure rfl
  | «variable» name e => exact .after fun _ => .after fun _ => .pure rfl
  | function id name parameters body => exact .after fun _ => .pure rfl
  | block body => exact .inNewFrame (h.executeBlock hs)
  | ifThen condition yes =>
    rw [Stmt.returns] at hs
    exact .after fun _ => .ite (h.execute hs) (.pure rfl)
  | ifElse condition yes no =>
    obtain ⟨hyes, hno⟩ := Bool.or_eq_false_iff.1 hs
    exact .after fun _ => .ite (h.execute hyes) (h.execute hno)
  | «while» condition body =>
    rw [Stmt.returns] at hs
    exact h.loop condition hs
  | «return» keyword e => exact Bool.noConfusion hs

/-- A block without a `return` outside of functions ends normally, if with one fuel less all those
    do. -/
theorem executeBlock_succ {body : List (Stmt Nat)} (hbody : Stmt.returnsAny body = false) :
    Gives (· = .normal) (Lox.executeBlock settings (fuel + 1) body) := by
  cases body with
  | nil => exact .pure rfl
  | cons s rest =>
    obtain ⟨hs, hrest⟩ := Bool.or_eq_false_iff.1 hbody
    -- The first statement ends normally, so the block goes on.
    refine .bind (h.execute hs) fun flow hflow => ?_
    subst hflow
    exact h.executeBlock hrest

/-- A loop without a `return` outside of functions ends normally, if with one fuel less all those
    do. -/
theorem loop_succ (condition : Expr) {body : Stmt Nat} (hbody : body.returns = false) :
    Gives (· = .normal) (Lox.loop settings (fuel + 1) condition body) := by
  refine .after fun _ => .ite (.bind (h.execute hbody) fun flow hflow => ?_) (.pure rfl)
  subst hflow
  exact h.loop condition hbody

end GivesNormal

/-- What has no `return` outside of functions ends normally, whatever the fuel. -/
theorem givesNormal (settings : Settings) (fuel : Nat) : GivesNormal settings fuel := by
  induction fuel with
  | zero => exact givesNormal_zero
  | succ fuel ih => exact ⟨ih.execute_succ, ih.executeBlock_succ, ih.loop_succ⟩

/-! ### Programs and blocks -/

/-- Executes statements at the top level, and ends normally. -/
def executeProgram (settings : Settings) (fuel : Nat) (body : List (Stmt Nat)) : Run Flow := do
  executeAll settings fuel body
  return .normal

/-- At the top level the next statement is executed however the first one ends with a value. -/
theorem executeProgram_cons (settings : Settings) (fuel : Nat) (s : Stmt Nat)
    (rest : List (Stmt Nat)) :
    executeProgram settings fuel (s :: rest) = (do
      let _ ← execute settings fuel s
      executeProgram settings fuel rest) := by
  simp only [executeProgram, executeAll, bind_assoc]

/-- A statement is followed by itself with as much fuel or more. -/
theorem follows_execute (h : fuel ≤ fuel') (s : Stmt Nat) :
    Follows (Simulation.equality.machines ()) (execute settings fuel s)
      (execute settings fuel' s) :=
  (Simulation.equality.covers settings h).execute () s (.inl trivial)

/-- Statements at the top level end where they end as a block. -/
theorem follows_executeProgram (settings : Settings) {body : List (Stmt Nat)}
    (hbody : Stmt.returnsAny body = false) (h : fuel ≤ fuel') :
    Follows (Simulation.equality.machines ()) (executeBlock settings fuel body)
      (executeProgram settings fuel' body) := by
  induction body generalizing fuel with
  | nil =>
    cases fuel with
    | zero => exact .exhausted _
    | succ fuel => exact .pure _
  | cons s rest ih =>
    obtain ⟨hs, hrest⟩ := Bool.or_eq_false_iff.1 hbody
    cases fuel with
    | zero => exact .exhausted _
    | succ fuel =>
      rw [executeProgram_cons]
      -- A block looks at how its first statement ends, but that is always normally.
      refine (follows_execute (by omega) s).bind_of fun m flow n hflow => ?_
      obtain rfl := (givesNormal settings fuel).execute hs m flow n hflow
      exact ih hrest (by omega)

/-- As a block, statements end where they end at the top level. A block hands less fuel on from
    each statement to the next. -/
theorem follows_executeBlock (settings : Settings) {body : List (Stmt Nat)}
    (hbody : Stmt.returnsAny body = false) (h : fuel + body.length < fuel') :
    Follows (Simulation.equality.machines ()) (executeProgram settings fuel body)
      (executeBlock settings fuel' body) := by
  induction body generalizing fuel' with
  | nil =>
    obtain ⟨k, rfl⟩ : ∃ k, fuel' = k + 1 := ⟨fuel' - 1, by omega⟩
    exact .pure _
  | cons s rest ih =>
    obtain ⟨hs, hrest⟩ := Bool.or_eq_false_iff.1 hbody
    rw [List.length_cons] at h
    obtain ⟨k, rfl⟩ : ∃ k, fuel' = k + 1 := ⟨fuel' - 1, by omega⟩
    rw [executeProgram_cons]
    refine (follows_execute (by omega) s).bind_of fun m flow n hflow => ?_
    -- The block goes on behind a statement that ends normally, as the top level does in any case.
    obtain rfl := (givesNormal settings fuel).execute hs m flow n hflow
    exact ih hrest (by omega)

/-- Statements without a `return` outside of functions end with the same results as a block and at
    the top level. -/
theorem terminates_executeBlock_iff (settings : Settings) {body : List (Stmt Nat)}
    (hbody : Stmt.returnsAny body = false) (m : Machine)
    (r : EStateM.Result Stop Machine Flow) :
    Terminates (fun fuel => executeBlock settings fuel body) m r ↔
      Terminates (fun fuel => executeProgram settings fuel body) m r := by
  -- The relation of the two lemmas above is equality of machines.
  have hequal {n n' : Machine} (h : Simulation.equality.machines () n n') : n = n' :=
    (Simulation.machines_equality.1 h).symm
  have hsame : Simulation.equality.machines () m m := Simulation.machines_equality.2 rfl
  refine ⟨fun h => h.of_follows hequal hsame fun fuel => ?_,
    fun h => h.of_follows hequal hsame fun fuel => ?_⟩
  · exact ⟨fuel, follows_executeProgram settings hbody (Nat.le_refl fuel)⟩
  · exact ⟨_, follows_executeBlock settings hbody (Nat.lt_succ_self (fuel + body.length))⟩

/-- A result with which a run ends is a value or an error. -/
theorem Run.IsFinal.cases {r : EStateM.Result Stop Machine α} (h : Run.IsFinal r) :
    (∃ a m, r = .ok a m) ∨ ∃ e m, r = .error (.failed e) m := by
  cases r with
  | ok a m => exact .inl ⟨a, m, rfl⟩
  | error stop m =>
    cases stop with
    | failed e => exact .inr ⟨e, m, rfl⟩
    | outOfFuel => exact h.elim

/-- **A `return` never leaves its function.** A program text without syntax errors has no `return`
    outside of functions. Loaded in whatever session and executed on whatever machine, each of its
    statements that comes to an end does so normally or with an error, and the statements do
    together what they do as a block. -/
theorem return_ends_at_call {source : String} {program : List (Stmt Unit)}
    (h : parse (scan source) = (program, [])) (session : Session) (settings : Settings)
    (m : Machine) :
    let loaded := (session.load program).1
    (∀ s ∈ program, s.returns = false) ∧
      (∀ s ∈ loaded, ∀ r, Terminates (fun fuel => execute settings fuel s) m r →
        (∃ n, r = .ok .normal n) ∨ ∃ e n, r = .error (.failed e) n) ∧
      ∀ r, Terminates (fun fuel => executeBlock settings fuel loaded) m r ↔
        Terminates (fun fuel => do executeAll settings fuel loaded; return .normal) m r := by
  have hprogram := returns_of_parse_scan h
  have hloaded : Stmt.returnsAny (session.load program).1 = false :=
    (Stmt.returnsAny_numberAll program session.nextFunction).trans hprogram
  refine ⟨Stmt.returnsAny_eq_false.1 hprogram, fun s hs r hr => ?_,
    terminates_executeBlock_iff settings hloaded m⟩
  obtain ⟨hfinal, fuel, rfl⟩ := hr
  rcases hfinal.cases with ⟨flow, n, hok⟩ | herror
  · obtain rfl := (givesNormal settings fuel).execute (Stmt.returnsAny_eq_false.1 hloaded s hs)
      m flow n hok
    exact .inl ⟨n, hok⟩
  · exact .inr herror

/-- A session in which a function has been declared, with a `return` in an endless loop. -/
def returning : Session :=
  (({} : Session).run { clock := fun _ => 0 } 16 "fun f() { while (true) return true; }").2

/-- What has been written by the end of a run that ends with a value. -/
def Run.written? : EStateM.Result Stop Machine α → Option ByteArray
  | .ok _ n => some n.output.written
  | .error _ _ => none

/-- Another text calls the function. The `return` ends the loop and the call, its value is printed,
    and the statement with the call ends normally. -/
theorem return_ends_at_call_loop :
    let settings : Settings := { clock := fun _ => 0 }
    ∃ program s n, parse (scan "print f();") = (program, []) ∧
      (returning.load program).1 = [s] ∧ s.sexpr = "(print (call f))" ∧
      Terminates (fun fuel => execute settings fuel s) returning.machine (.ok .normal n) ∧
      n.output.written = "true\n".toUTF8 := by
  intro settings
  have hclean : (parse (scan "print f();")).2.isEmpty = true := by decide +kernel
  have hcheck : (returning.load (parse (scan "print f();")).1).1.map (fun s =>
      (s.sexpr, Run.written? (execute settings 16 s returning.machine))) =
        [("(print (call f))", some "true\n".toUTF8)] := by
    decide +kernel
  cases hparse : parse (scan "print f();") with
  | mk program errors =>
    rw [hparse] at hclean hcheck
    obtain rfl := List.isEmpty_iff.1 hclean
    obtain ⟨s, hloaded, hs⟩ := List.map_eq_singleton_iff.1 hcheck
    obtain ⟨htree, hwritten⟩ := Prod.ext_iff.1 hs
    cases hrun : execute settings 16 s returning.machine with
    | error stop n =>
      rw [hrun] at hwritten
      cases hwritten
    | ok flow n =>
      rw [hrun] at hwritten
      have hends : Terminates (fun fuel => execute settings fuel s) returning.machine
          (.ok flow n) := ⟨trivial, 16, hrun⟩
      have hmem : s ∈ (returning.load program).1 := hloaded ▸ List.mem_singleton_self s
      rcases (return_ends_at_call hparse returning settings returning.machine).2.1 s hmem _ hends
        with ⟨_, hnormal⟩ | ⟨_, _, herror⟩
      · obtain ⟨rfl, -⟩ := EStateM.Result.ok.inj hnormal
        exact ⟨program, s, n, rfl, hloaded, htree, hends, Option.some.inj hwritten⟩
      · cases herror

end Lox
