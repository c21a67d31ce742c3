import Lox.Proofs.Evaluation.Padding
import Lox.Proofs.Grammar.ForLoop
import Lox.Token.Cursor

namespace Lox

/-!
# Running a `for` statement

A loop that is run part by part opens one scope, around the initializer, and none without an
initializer. Written with `while`, it runs body and step in one more scope in each turn. Neither
of them binds a name there, so the two end alike.

* `ForLoop.run` — a loop run part by part.
* `ForLoop.follows_turns`, `turns_follows` — one loop follows the other, turn by turn.
* `ForLoop.terminates_desugared_iff` — both end in the same way.
* `Grammar.terminates_forStatement_iff` — so does whatever is read as a `for` statement.
-/

namespace ForLoop

/-! ### Running the parts -/

/-- Whether the loop goes on. A missing condition always holds. -/
def holds (settings : Settings) (fuel : Nat) : (condition : Option Expr) → Run Bool
  | none => return true
  | some e => do
    let value ← evaluate settings fuel e
    return value.isTruthy

/-- One turn: the body and, unless it returns, the step, both in the current scope. -/
def turn (settings : Settings) (fuel : Nat) (l : ForLoop Nat) : Run Flow := do
  match ← execute settings fuel l.body with
  | .return value => return .return value
  | .normal =>
    match l.step with
    | some e => do
      let _ ← evaluate settings fuel e
      return .normal
    | none => return .normal

/-- Turns as long as the condition holds and no turn returns. -/
def turns (settings : Settings) : (fuel : Nat) → ForLoop Nat → Run Flow
  | 0, _ => Run.exhausted
  | fuel + 1, l => do
    if ← holds settings fuel l.condition then
      match ← turn settings fuel l with
      | .return value => return .return value
      | .normal => turns settings fuel l
    else
      return .normal

/-- The whole loop. An initializer opens a scope around the turns. -/
def run (settings : Settings) (fuel : Nat) (l : ForLoop Nat) : Run Flow :=
  match l.initializer with
  | some s => Run.inNewFrame do
    let _ ← execute settings fuel s
    turns settings fuel l
  | none => turns settings fuel l

/-! ### Statements in a block -/

variable {ι : Type} {settings : Settings} {fuel fuel' : Nat}

/-- Handing each way to end on as it is makes no difference. -/
theorem bind_eq_self {f : Flow → Run Flow} (hf : ∀ flow, f flow = pure flow) (r : Run Flow) :
    r >>= f = r := by
  rw [show f = pure from funext hf, bind_pure]

/-- A block of one statement does what the statement does. -/
theorem executeBlock_singleton (s : Stmt Nat) :
    executeBlock settings (fuel + 1) [s] = execute settings fuel s := by
  cases fuel with
  | zero => rfl
  | succ fuel => exact bind_eq_self (fun flow => by cases flow <;> rfl) _

/-- A block of two statements executes the second one if the first one does not return. -/
theorem executeBlock_pair (s t : Stmt Nat) :
    executeBlock settings (fuel + 2) [s, t] = (do
      match ← execute settings (fuel + 1) s with
      | .return value => return .return value
      | .normal => execute settings fuel t) := by
  refine bind_congr fun flow => ?_
  cases flow with
  | «return» value => rfl
  | normal => exact executeBlock_singleton t

/-- An initializer never returns. -/
theorem execute_bind_of_isClause (fuel : Nat) {s : Stmt Nat} (hs : s.isClause)
    (f : Flow → Run Flow) :
    execute settings fuel s >>= f = execute settings fuel s >>= fun _ => f .normal := by
  cases fuel with
  | zero => rfl
  | succ fuel =>
    cases s with
    | expression e =>
      show (evaluate settings fuel e >>= fun _ => pure Flow.normal) >>= f =
        (evaluate settings fuel e >>= fun _ => pure Flow.normal) >>= fun _ => f .normal
      simp only [bind_assoc, pure_bind]
    | «variable» name e =>
      show (evaluate settings fuel e >>= fun value => Run.define name value >>= fun _ =>
          pure Flow.normal) >>= f =
        (evaluate settings fuel e >>= fun value => Run.define name value >>= fun _ =>
          pure Flow.normal) >>= fun _ => f .normal
      simp only [bind_assoc, pure_bind]
    | _ => exact absurd hs Bool.false_ne_true

/-! ### Conditions and turns -/

open Run (Follows)
open Simulation

variable {l : ForLoop Nat}

/-- The condition that the loop written with `while` has. -/
def whileCondition (l : ForLoop ι) : Expr := l.condition.getD (.constant (.bool true))

/-- A loop evaluates its condition and, if that holds, executes its body and starts again. -/
theorem loop_succ (condition : Expr) (body : Stmt Nat) :
    loop settings (fuel + 1) condition body = do
      if ← Value.isTruthy <$> evaluate settings fuel condition then
        match ← execute settings fuel body with
        | .return value => return .return value
        | .normal => loop settings fuel condition body
      else
        return .normal := by
  rw [bind_map_left]
  rfl

/-- A condition that is written out is followed by the condition of the loop run part by part. -/
theorem follows_holds (S : Simulation ι) (i : ι) (h : fuel ≤ fuel') :
    Follows (S.machines i) (Value.isTruthy <$> evaluate settings fuel l.whileCondition)
      (holds settings fuel' l.condition) := by
  obtain ⟨initializer, condition, step, body⟩ := l
  cases condition with
  | some e =>
    rw [map_eq_pure_bind]
    exact ((S.covers settings h).evaluate i e).bind fun value => .pure value.isTruthy
  | none =>
    cases fuel with
    | zero => exact .exhausted _
    | succ fuel => exact .pure true

/-- The condition of a loop run part by part is followed by the one that is written out. -/
theorem holds_follows (S : Simulation ι) (i : ι) (h : fuel < fuel') :
    Follows (S.machines i) (holds settings fuel l.condition)
      (Value.isTruthy <$> evaluate settings fuel' l.whileCondition) := by
  obtain ⟨initializer, condition, step, body⟩ := l
  cases condition with
  | some e =>
    rw [map_eq_pure_bind]
    exact ((S.covers settings (Nat.le_of_lt h)).evaluate i e).bind fun value =>
      .pure value.isTruthy
  | none =>
    -- A condition that is missing takes no fuel, and the constant in its place takes some.
    obtain ⟨k, rfl⟩ := Nat.exists_eq_add_of_lt h
    exact .pure true

/-- A turn of the loop written with `while` is followed by a turn in the current scope. -/
theorem follows_turn (hbody : l.body.isPlain) (h : fuel ≤ fuel') :
    Follows (stackwise.machines ()) (execute settings fuel l.turnBlock)
      (turn settings fuel' l) := by
  obtain ⟨initializer, condition, step, body⟩ := l
  cases step with
  | none =>
    have hturn : turn settings fuel' ⟨initializer, condition, none, body⟩ =
        execute settings fuel' body :=
      bind_eq_self (fun flow => by cases flow <;> rfl) _
    rw [hturn]
    exact (stackwise.covers settings h).execute () body (.inr hbody)
  | some e =>
    -- The scope of the block stays empty. Inside it, body and step go on side by side as long as
    -- there is fuel for the block.
    match fuel with
    | 0 => exact .exhausted _
    | 1 => exact follows_of_inNewFrame (.exhausted _)
    | fuel + 2 =>
      refine follows_of_inNewFrame ?_
      refine ((padding.covers settings (by omega)).execute 0 body (.inr hbody)).bind fun flow => ?_
      cases flow with
      | «return» value => exact .pure _
      | normal =>
        match fuel with
        | 0 => exact .exhausted _
        | 1 => exact .exhausted _
        | fuel + 2 =>
          show Follows _ (executeBlock settings (fuel + 2) [.expression e]) _
          rw [executeBlock_singleton]
          exact ((padding.covers settings (by omega)).evaluate 0 e).bind fun _ => .pure _

/-- A turn in the current scope is followed by a turn of the loop written with `while`. -/
theorem turn_follows (hbody : l.body.isPlain) (h : fuel + 4 ≤ fuel') :
    Follows (stackwise.machines ()) (turn settings fuel l)
      (execute settings fuel' l.turnBlock) := by
  obtain ⟨initializer, condition, step, body⟩ := l
  cases step with
  | none =>
    have hturn : turn settings fuel ⟨initializer, condition, none, body⟩ =
        execute settings fuel body :=
      bind_eq_self (fun flow => by cases flow <;> rfl) _
    rw [hturn]
    exact (stackwise.covers settings (by omega)).execute () body (.inr hbody)
  | some e =>
    -- The block takes fuel for itself and for each of its two statements.
    obtain ⟨k, rfl⟩ : ∃ k, fuel' = k + 4 := ⟨fuel' - 4, by omega⟩
    refine follows_inNewFrame_of ?_
    rw [executeBlock_pair]
    refine ((padding.flip.covers settings (by omega)).execute 0 body (.inr hbody)).bind
      fun flow => ?_
    cases flow with
    | «return» value => exact .pure _
    | normal => exact ((padding.flip.covers settings (by omega)).evaluate 0 e).bind fun _ => .pure _

/-! ### Loops -/

/-- The loop written with `while` is followed by the turns of the loop run part by part. -/
theorem follows_turns (hbody : l.body.isPlain) (h : fuel ≤ fuel') :
    Follows (stackwise.machines ()) (loop settings fuel l.whileCondition l.turnBlock)
      (turns settings fuel' l) := by
  induction fuel generalizing fuel' with
  | zero => exact .exhausted _
  | succ fuel ih =>
    obtain ⟨k, rfl⟩ : ∃ k, fuel' = k + 1 := ⟨fuel' - 1, by omega⟩
    rw [loop_succ]
    refine (follows_holds stackwise () (by omega)).bind fun goesOn => .ite ?_ (.pure _)
    refine (follows_turn hbody (by omega)).bind fun flow => ?_
    cases flow with
    | «return» value => exact .pure _
    | normal => exact ih (by omega)

/-- The turns of a loop run part by part are followed by the loop written with `while`. -/
theorem turns_follows (hbody : l.body.isPlain) (h : fuel + 4 ≤ fuel') :
    Follows (stackwise.machines ()) (turns settings fuel l)
      (loop settings fuel' l.whileCondition l.turnBlock) := by
  induction fuel generalizing fuel' with
  | zero => exact .exhausted _
  | succ fuel ih =>
    obtain ⟨k, rfl⟩ : ∃ k, fuel' = k + 1 := ⟨fuel' - 1, by omega⟩
    rw [loop_succ]
    refine (holds_follows stackwise () (by omega)).bind fun goesOn => .ite ?_ (.pure _)
    refine (turn_follows hbody (by omega)).bind fun flow => ?_
    cases flow with
    | «return» value => exact .pure _
    | normal => exact ih (by omega)

/-- The whole loop, written with `while`, is followed by the loop run part by part. -/
theorem follows_run (hl : l.IsWellFormed) :
    Follows (stackwise.machines ()) (execute settings fuel l.desugared) (run settings fuel l) := by
  rw [desugared_eq, run]
  cases hinitializer : l.initializer with
  | none =>
    cases fuel with
    | zero => exact .exhausted _
    | succ fuel => exact follows_turns hl.isPlain (by omega)
  | some s =>
    have hs : s.isClause := hl.isClause s hinitializer
    -- Without fuel for the block and its statements there is nothing to follow.
    match fuel with
    | 0 => exact .exhausted _
    | 1 => exact stackwise.follows_inNewFrame fun _ => .exhausted _
    | fuel + 2 =>
      refine follows_inNewFrame fun {j} hbinds => ?_
      show Follows _ (execute settings fuel s >>= _) _
      rw [execute_bind_of_isClause fuel hs]
      refine ((stackwise.covers settings (by omega)).execute j s (.inl hbinds)).bind fun _ => ?_
      match fuel with
      | 0 => exact .exhausted _
      | 1 => exact .exhausted _
      | fuel + 2 =>
        show Follows _ (executeBlock settings (fuel + 2) [.while _ _]) _
        rw [executeBlock_singleton]
        exact follows_turns hl.isPlain (by omega)

/-- The whole loop, run part by part, is followed by the loop written with `while`. -/
theorem run_follows (hl : l.IsWellFormed) :
    Follows (stackwise.machines ()) (run settings fuel l)
      (execute settings (fuel + 8) l.desugared) := by
  rw [desugared_eq, run]
  cases hinitializer : l.initializer with
  | none =>
    show Follows _ _ (loop settings (fuel + 7) l.whileCondition l.turnBlock)
    exact turns_follows hl.isPlain (by omega)
  | some s =>
    have hs : s.isClause := hl.isClause s hinitializer
    refine follows_inNewFrame fun {j} hbinds => ?_
    rw [executeBlock_pair, execute_bind_of_isClause (fuel + 6) hs]
    refine ((stackwise.covers settings (by omega)).execute j s (.inl hbinds)).bind fun _ => ?_
    show Follows _ _ (loop settings (fuel + 4) l.whileCondition l.turnBlock)
    exact turns_follows hl.isPlain (by omega)

/-- Written with `while` or run part by part, a loop ends in the same way. -/
theorem terminates_desugared_iff (hl : l.IsWellFormed) {m : Machine} (hm : m.env.IsStack)
    {r : EStateM.Result Stop Machine Flow} :
    Terminates (fun fuel => execute settings fuel l.desugared) m r ↔
      Terminates (fun fuel => run settings fuel l) m r := by
  have heq {n n' : Machine} (h : stackwise.machines () n n') : n = n' :=
    (machines_stackwise.1 h).1.symm
  have hsame : stackwise.machines () m m := machines_stackwise.2 ⟨rfl, hm⟩
  constructor
  · exact fun h => h.of_follows heq hsame fun fuel => ⟨fuel, follows_run hl⟩
  · exact fun h => h.of_follows heq hsame fun fuel => ⟨fuel + 8, run_follows hl⟩

end ForLoop

namespace Grammar

/-- **A `for` statement runs as its parts do.** Whatever is read as a `for` statement has parts, and
    executing it, in any reachable environment, ends in the same way as running these parts: with
    the same result, output and environment, or in no way at all. -/
theorem terminates_forStatement_iff {free : Nat} {s t : State} {stmt : Stmt Unit}
    (h : forStatement (expression free) (statement free) s = .ok stmt t) :
    ∃ l, forClauses (expression free) (statement free) s = .ok l t ∧
      ∀ (next : Nat) (settings : Settings) (m : Machine), m.env.Reachable →
        ∀ r, Terminates (fun fuel => execute settings fuel (stmt.number next).1) m r ↔
          Terminates (fun fuel => (l.number next).1.run settings fuel) m r := by
  rw [forStatement_eq] at h
  obtain ⟨l, hl, rfl⟩ := map_eq_ok.1 h
  refine ⟨l, hl, fun next settings m hm r => ?_⟩
  have hwell : l.IsWellFormed := (yields_forClauses (yields_statement free) s t l trivial hl).2
  rw [ForLoop.number_desugared]
  exact ForLoop.terminates_desugared_iff (hwell.number next) hm.isStack

/-- What may follow `for`: a loop that makes one turn, with all clauses. -/
def oneTurn : List Token := scan "(var i; !i; i = true) print i;"

/-- Settings under which time stands still. -/
def timeless : Settings where
  clock _ := 0

/-- The step goes into a block with the body. Executing the statement prints the first value of the
    variable, and running the parts of the loop ends in the same way. -/
theorem terminates_oneTurn_iff :
    ∃ stmt t l n,
      forStatement (expression 8) (statement 8) (State.start oneTurn) = .ok stmt t ∧
      stmt.sexpr = "(block (var i nil) (while (! i) (block (print i) (; (= i true)))))" ∧
      forClauses (expression 8) (statement 8) (State.start oneTurn) = .ok l t ∧
      l.initializer.isSome = true ∧ l.step.isSome = true ∧
      execute timeless 16 (stmt.number 0).1 {} = .ok .normal n ∧
      n.output.written = "nil\n".toUTF8 ∧
      Terminates (fun fuel => (l.number 0).1.run timeless fuel) {} (.ok .normal n) := by
  have hcheck : (match forStatement (expression 8) (statement 8) (State.start oneTurn) with
      | .ok stmt _ =>
        stmt.sexpr == "(block (var i nil) (while (! i) (block (print i) (; (= i true)))))" &&
        match execute timeless 16 (stmt.number 0).1 {} with
        | .ok .normal n => decide (n.output.written = "nil\n".toUTF8)
        | _ => false
      | .error _ _ => false) = true := by
    decide +kernel
  have hclauses : (match forClauses (expression 8) (statement 8) (State.start oneTurn) with
      | .ok l _ => l.initializer.isSome && l.step.isSome
      | .error _ _ => false) = true := by
    decide +kernel
  cases hok : forStatement (expression 8) (statement 8) (State.start oneTurn) with
  | error e t =>
    rw [hok] at hcheck
    exact absurd hcheck Bool.false_ne_true
  | ok stmt t =>
    rw [hok] at hcheck
    obtain ⟨htree, hprinted⟩ := Bool.and_eq_true_iff.1 hcheck
    obtain ⟨l, hl, hterminates⟩ := terminates_forStatement_iff hok
    rw [hl] at hclauses
    obtain ⟨hinitializer, hstep⟩ := Bool.and_eq_true_iff.1 hclauses
    split at hprinted
    · next n hrun =>
      have hends : Terminates (fun fuel => execute timeless fuel (stmt.number 0).1) {}
          (.ok .normal n) := ⟨trivial, 16, hrun⟩
      have hparts := (hterminates 0 timeless {} Environment.reachable_global _).1 hends
      exact ⟨stmt, t, l, n, rfl, eq_of_beq htree, hl, hinitializer, hstep, hrun,
        of_decide_eq_true hprinted, hparts⟩
    · cases hprinted

end Grammar

end Lox
