import Lox.Proofs.Evaluation.Correspondence
import Lox.Proofs.Evaluation.Moment

namespace Lox

/-!
# The values that arise in a run

No value comes from nowhere: each value that arises in a run is found in the environment that the
run starts in, is made by an operator or a native function, or is a function whose declaration
stands in the program, or in another function that the run has at hand. So what holds of the
functions at the start and in the program holds of all that arise.

* `Arising` — all values that arise match themselves, with lemmas for steps and sequences.
* `arisingAll` — evaluation and execution of trees that match themselves.
* `arising_executeAll` — whole programs.
-/

variable {α : Type} {C : Correspondence} {settings : Settings} {fuel : Nat}

open Run (behind)

/-- On a machine that matches itself, all values that arise among the moments match themselves. -/
def Arising (C : Correspondence) (t : List Call → Machine → List Moment) : Prop :=
  ∀ opened {m : Machine}, m.Matches C m → ∀ v, .value v ∈ t opened m → v.Matches C v

namespace Arising

variable {t u : List Call → Machine → List Moment} {P : α → α → Prop} {r : Run α}

theorem nil : Arising C fun _ _ => [] := fun _ _ _ _ hv => absurd hv List.not_mem_nil

/-- A value that matches itself arises. -/
theorem value {v : Value} (h : v.Matches C v) : Arising C fun _ _ => [.value v] := by
  intro opened m hm w hw
  cases List.mem_singleton.1 hw
  exact h

/-- Values that arise in the first or the second part match themselves, if those of each part do. -/
theorem append (h : Arising C t) (hu : Arising C u) :
    Arising C fun opened m => t opened m ++ u opened m := by
  intro opened m hm v hv
  rcases List.mem_append.1 hv with hv | hv
  · exact h opened hm v hv
  · exact hu opened hm v hv

/-- Behind a run that matches itself, machine and value do so. -/
theorem behind {t : α → List Call → Machine → List Moment} (hr : Run.Matches C P r r)
    (ht : ∀ a, P a a → Arising C (t a)) :
    Arising C fun opened m => Run.behind (r m) fun a n => t a opened n := by
  intro opened m hm v hv
  have hend := hr m m hm
  change .value v ∈ Run.behind (r m) fun a n => t a opened n at hv
  generalize r m = x at hend hv
  cases hend with
  | ok ha hn => exact ht _ ha opened hn v hv
  | error _ _ => exact absurd hv List.not_mem_nil

/-- Values that arise in a sequence match themselves, if those of its first part do and, behind it,
    those of the second part with each value that matches itself. -/
theorem bind {t' : α → List Call → Machine → List Moment} (h : Arising C t)
    (hr : Run.Matches C P r r) (ht' : ∀ a, P a a → Arising C (t' a)) :
    Arising C fun opened m => t opened m ++ Run.behind (r m) fun a n => t' a opened n :=
  h.append (.behind hr ht')

/-- The value with which an evaluation ends. -/
theorem arising {r : Run Value} (hr : Run.Matches C (Value.Matches C) r r) :
    Arising C fun _ m => Moment.arising (r m) :=
  .behind hr fun _ hv => .value hv

theorem ite {p : Prop} [Decidable p] (h : Arising C t) (hu : Arising C u) :
    Arising C fun opened m => if p then t opened m else u opened m := by
  by_cases hp : p
  · simpa only [if_pos hp] using h
  · simpa only [if_neg hp] using hu

end Arising

/-! ### Programs -/

/-- With some fuel, all values match themselves that arise in runs of trees that do. -/
structure ArisingAll (C : Correspondence) (settings : Settings) (fuel : Nat) : Prop where
  evaluate {e : Expr} : e.Matches C e →
    Arising C fun opened => evaluateMoments settings fuel opened e
  evaluateAll {es : List Expr} : Expr.MatchesAll C es es →
    Arising C fun opened => evaluateAllMoments settings fuel opened es
  call {callee : Value} (paren : Token) {values : List Value} : callee.Matches C callee →
    List.Forall₂ (Value.Matches C) values values →
    Arising C fun opened => callMoments settings fuel opened callee paren values
  execute {s : Stmt Nat} : s.Matches C s →
    Arising C fun opened => executeMoments settings fuel opened s
  executeBlock {body : List (Stmt Nat)} : Stmt.MatchesAll C body body →
    Arising C fun opened => executeBlockMoments settings fuel opened body
  loop {condition : Expr} {body : Stmt Nat} : condition.Matches C condition →
    body.Matches C body → Arising C fun opened => loopMoments settings fuel opened condition body

/-- Without fuel no value arises. -/
theorem arisingAll_zero : ArisingAll C settings 0 where
  evaluate _ := .nil
  evaluateAll _ := .nil
  call _ _ _ _ := .nil
  execute _ := .nil
  executeBlock _ := .nil
  loop _ _ := .nil

namespace ArisingAll

variable (h : ArisingAll C settings fuel)

include h

/-- The values that arise in an evaluation match themselves, if with one fuel less they do so in all
    runs. -/
theorem evaluate_succ {e : Expr} (he : e.Matches C e) :
    Arising C fun opened => evaluateMoments settings (fuel + 1) opened e := by
  have hruns := runsMatch C settings fuel
  -- The last value that arises is the one that the whole evaluation ends with.
  refine Arising.append ?_ (.arising ((runsMatch C settings (fuel + 1)).evaluate he))
  cases he with
  | constant k => exact .nil
  | name hn => exact .nil
  | group he => exact h.evaluate he
  | assign hn he => exact h.evaluate he
  | unary hop he => exact h.evaluate he
  | binary hop hl hr =>
    exact (h.evaluate hl).bind (hruns.evaluate hl) fun _ _ => h.evaluate hr
  | logical hop hl hr =>
    exact (h.evaluate hl).bind (hruns.evaluate hl) fun _ _ => (h.evaluate hr).ite .nil
  | call hparen hcallee harguments =>
    exact (h.evaluate hcallee).bind (hruns.evaluate hcallee) fun _ hf =>
      (h.evaluateAll harguments).bind (hruns.evaluateAll harguments) fun _ hvalues =>
        h.call _ hf hvalues

/-- The values that arise as arguments match themselves, if with one fuel less they do so in all
    runs. -/
theorem evaluateAll_succ {es : List Expr} (hes : Expr.MatchesAll C es es) :
    Arising C fun opened => evaluateAllMoments settings (fuel + 1) opened es := by
  cases hes with
  | nil => exact .nil
  | cons he hes =>
    exact (h.evaluate he).bind ((runsMatch C settings fuel).evaluate he) fun _ _ =>
      h.evaluateAll hes

/-- The values that arise in a call match themselves, if with one fuel less they do so in all
    runs. -/
theorem call_succ {callee : Value} (paren : Token) {values : List Value}
    (hcallee : callee.Matches C callee) (hvalues : List.Forall₂ (Value.Matches C) values values) :
    Arising C fun opened => callMoments settings (fuel + 1) opened callee paren values := by
  cases hcallee with
  | @function f _ hf =>
    refine .ite .nil fun opened m hm v hv => ?_
    have hinside : Machine.Matches C { m with env := m.env.push, depth := m.depth + 1 }
        { m with env := m.env.push, depth := m.depth + 1 } := ⟨hm.env.push, rfl⟩
    -- The call itself is no value, so the value arises in the body, with parameters bound.
    rcases List.mem_cons.1 hv with hv | hv
    · cases hv
    · split at hv
      · exact absurd hv List.not_mem_nil
      · have hbody := Arising.behind (Run.matches_defineAll hf.parameters hvalues) fun _ _ =>
          h.executeBlock hf.body
        exact hbody (⟨f, paren, values⟩ :: opened) hinside v hv
  | _ => exact .nil

/-- The values that arise in a statement match themselves, if with one fuel less they do so in all
    runs. -/
theorem execute_succ {s : Stmt Nat} (hs : s.Matches C s) :
    Arising C fun opened => executeMoments settings (fuel + 1) opened s := by
  have hruns := runsMatch C settings fuel
  cases hs with
  | expression he => exact h.evaluate he
  | print hkeyword he => exact h.evaluate he
  | «variable» hn he => exact h.evaluate he
  | «return» hkeyword he => exact h.evaluate he
  | function hn hparameters hbody hfunction =>
    exact .value (.function ⟨rfl, hn, hparameters, hbody, hfunction⟩)
  | block hbody =>
    intro opened m hm v hv
    have hinside : Machine.Matches C { m with env := m.env.push } { m with env := m.env.push } :=
      ⟨hm.env.push, rfl⟩
    exact h.executeBlock hbody opened hinside v hv
  | ifThen hc hyes =>
    exact (h.evaluate hc).bind (hruns.evaluate hc) fun _ _ => (h.execute hyes).ite .nil
  | ifElse hc hyes hno =>
    exact (h.evaluate hc).bind (hruns.evaluate hc) fun _ _ => (h.execute hyes).ite (h.execute hno)
  | «while» hc hbody => exact h.loop hc hbody

/-- The values that arise in a block match themselves, if with one fuel less they do so in all
    runs. -/
theorem executeBlock_succ {body : List (Stmt Nat)} (hbody : Stmt.MatchesAll C body body) :
    Arising C fun opened => executeBlockMoments settings (fuel + 1) opened body := by
  cases hbody with
  | nil => exact .nil
  | cons hs hrest =>
    refine (h.execute hs).bind ((runsMatch C settings fuel).execute hs) fun flow _ => ?_
    cases flow with
    | «return» value => exact .nil
    | normal => exact h.executeBlock hrest

/-- The values that arise in a loop match themselves, if with one fuel less they do so in all
    runs. -/
theorem loop_succ {condition : Expr} {body : Stmt Nat} (hc : condition.Matches C condition)
    (hbody : body.Matches C body) :
    Arising C fun opened => loopMoments settings (fuel + 1) opened condition body := by
  have hruns := runsMatch C settings fuel
  refine (h.evaluate hc).bind (hruns.evaluate hc) fun _ _ => .ite ?_ .nil
  refine (h.execute hbody).bind (hruns.execute hbody) fun flow _ => ?_
  cases flow with
  | «return» value => exact .nil
  | normal => exact h.loop hc hbody

end ArisingAll

/-- With any fuel, the values that arise in runs of trees that match themselves do so, too. -/
theorem arisingAll (C : Correspondence) (settings : Settings) (fuel : Nat) :
    ArisingAll C settings fuel := by
  induction fuel with
  | zero => exact arisingAll_zero
  | succ fuel ih =>
    exact ⟨ih.evaluate_succ, ih.evaluateAll_succ, ih.call_succ, ih.execute_succ,
      ih.executeBlock_succ, ih.loop_succ⟩

/-- All values match themselves that arise in a run of a program that does. -/
theorem arising_executeAll (settings : Settings) (fuel : Nat) {program : List (Stmt Nat)}
    (h : Stmt.MatchesAll C program program) :
    Arising C fun opened => executeAllMoments settings fuel opened program := by
  induction program with
  | nil => exact .nil
  | cons s rest ih =>
    cases h with
    | cons hs hrest =>
      exact ((arisingAll C settings fuel).execute hs).bind
        ((runsMatch C settings fuel).execute hs) fun _ _ => ih hrest

end Lox
