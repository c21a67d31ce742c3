import Lox.Proofs.Evaluation.Correspondence
import Lox.Proofs.Evaluation.ErrorToken
import Lox.Proofs.Evaluation.Simulation

namespace Lox

/-!
# Programs without loops end

The only ways to go on for long are loops and calls, and calls do not nest beyond a limit. So a
program without loops ends, whatever it calls, as long as there are no loops in the functions that
it finds in its environment either. Which function a call reaches is known at run time only, so
termination goes together with an invariant: no value that a run ever gives or binds is a function
with a loop. Termination itself is by induction on the calls that may still be opened and, for each
number of them, on the tree: the body of a function is no part of the tree that calls it.

* `Stmt.IsLoopless` — no loops, the bodies of functions included.
* `Machine.Ready` — no function on the machine has loops, and so many calls may be opened.
* `Run.Halts` — on such machines a run ends, if it has enough fuel; rules for sequences, brackets.
* `halts_call`, `halts_evaluate`, `halts_execute` — one lemma for each kind of tree.
* `terminates_of_loopless` — whole programs.
-/

variable {ι α β : Type}

/-! ### Statements without loops -/

namespace Stmt

/-- A loop, which is more than a statement with a loop inside. -/
def isLoop : Stmt ι → Bool
  | .while _ _ => true
  | _ => false

/-- Neither the statement nor a statement inside it is a loop, in the bodies of functions either. -/
def IsLoopless (s : Stmt ι) : Prop := ∀ p ∈ s.parts, p.isLoop = false

instance (s : Stmt ι) : Decidable s.IsLoopless :=
  inferInstanceAs (Decidable (∀ p ∈ s.parts, p.isLoop = false))

namespace IsLoopless

variable {s yes no : Stmt ι} {body : List (Stmt ι)} {c : Expr}

/-- What has no other parts has no loops. -/
theorem of_parts_subset (h : s.IsLoopless) {p : Stmt ι} (hp : p.parts ⊆ s.parts) : p.IsLoopless :=
  fun q hq => h q (hp hq)

/-- What is in a block has no loops. -/
theorem block (h : (Stmt.block body).IsLoopless) : ∀ s ∈ body, s.IsLoopless :=
  fun _ hs => h.of_parts_subset (List.subset_cons_of_subset _ (parts_subset_partsAll hs))

/-- The body of a function has no loops. -/
theorem function {i : ι} {name : Token} {parameters : List Token}
    (h : (Stmt.function i name parameters body).IsLoopless) : ∀ s ∈ body, s.IsLoopless :=
  fun _ hs => h.of_parts_subset (List.subset_cons_of_subset _ (parts_subset_partsAll hs))

/-- A branch has no loops. -/
theorem ifThen (h : (Stmt.ifThen c yes).IsLoopless) : yes.IsLoopless :=
  h.of_parts_subset (List.subset_cons_self _ _)

/-- Neither branch has loops. -/
theorem ifElse (h : (Stmt.ifElse c yes no).IsLoopless) : yes.IsLoopless ∧ no.IsLoopless :=
  ⟨h.of_parts_subset (List.subset_cons_of_subset _ (List.subset_append_left _ _)),
    h.of_parts_subset (List.subset_cons_of_subset _ (List.subset_append_right _ _))⟩

/-- A loop is one. -/
theorem not_while (h : (Stmt.while c s).IsLoopless) : False :=
  Bool.noConfusion (h _ List.mem_cons_self)

end IsLoopless

end Stmt

/-! ### Functions without loops -/

/-- Each token corresponds to itself, and so does each function without loops. -/
def Correspondence.loopless : Correspondence where
  token _ t t' := t = t'
  function f _ := f.declaration.IsLoopless
  kind_eq h := by rw [h]
  lexeme_eq h := by rw [h]

/-- The value is no function with a loop. -/
def Value.IsLoopless (v : Value) : Prop := v.Matches .loopless v

/-- A function whose declaration has no loops matches itself. -/
theorem matches_loopless {f : Function} (h : f.declaration.IsLoopless) :
    f.Matches .loopless f := by
  -- Its declaration matches itself, token by token and function by function.
  have hself : f.declaration.Matches .loopless (f.declaration.relabel id) :=
    f.declaration.matches_relabel (fun _ _ => rfl) fun g hg =>
      h.of_parts_subset (Stmt.within_of_mem_parts f.declaration hg).parts
  rw [(Stmt.relabel_eq_self_iff f.declaration).2 fun _ _ => rfl] at hself
  cases hself with
  | function hname hparameters hbody hfunction =>
    exact ⟨rfl, hname, hparameters, hbody, hfunction⟩

namespace Machine

/-- No function that is bound on the machine has a loop, and `d` is at least the number of calls
    that may be opened before the limit is reached. -/
structure Ready (settings : Settings) (d : Nat) (m : Machine) : Prop where
  loopless : m.Matches .loopless m
  calls : settings.callLimit ≤ m.depth + d

/-- A machine matches itself if and only if no function on it has a loop. -/
theorem matches_loopless_iff {m : Machine} :
    m.Matches .loopless m ↔ ∀ f, m.env.HasFunction f → f.declaration.IsLoopless := by
  constructor
  · exact fun h f hf => (Environment.matches_self_iff.1 h.env f hf).function
  · exact fun h => ⟨Environment.matches_self_iff.2 fun f hf => matches_loopless (h f hf), rfl⟩

end Machine

/-! ### Runs that end -/

namespace Run

variable {settings : Settings} {d : Nat} {P : α → Prop} {Q : β → Prop}

/-- The end of a run on a machine that is ready again, with a value that has a property or with an
    error, but not for want of fuel. -/
inductive Ended (settings : Settings) (d : Nat) (P : α → Prop) :
    EStateM.Result Stop Machine α → Prop
  | ok {a : α} {n : Machine} : P a → n.Ready settings d → Ended settings d P (.ok a n)
  | failed {e : RuntimeError} {n : Machine} : n.Ready settings d →
      Ended settings d P (.error (.failed e) n)

/-- On each machine that is ready the run ends, always in the same way, if its fuel is enough. -/
def Halts (settings : Settings) (d : Nat) (P : α → Prop) (run : (fuel : Nat) → Run α) : Prop :=
  ∀ m : Machine, m.Ready settings d →
    ∃ r, Ended settings d P r ∧ ∃ k, ∀ fuel, k ≤ fuel → run fuel m = r

namespace Halts

theorem pure {a : α} (h : P a) : Halts settings d P fun _ => Pure.pure a :=
  fun m hm => ⟨.ok a m, .ok h hm, 0, fun _ _ => rfl⟩

theorem fail (e : RuntimeError) : Halts settings d P fun _ => Run.fail e :=
  fun m hm => ⟨.error (.failed e) m, .failed hm, 0, fun _ _ => rfl⟩

/-- Each part of a sequence has fuel enough for it, and the larger one is enough for both. -/
theorem bind {run : Nat → Run α} {f : Nat → α → Run β} (h : Halts settings d P run)
    (hf : ∀ a, P a → Halts settings d Q fun fuel => f fuel a) :
    Halts settings d Q fun fuel => run fuel >>= f fuel := by
  intro m hm
  obtain ⟨r, hr, k, hk⟩ := h m hm
  cases hr with
  | @ok a n ha hn =>
    obtain ⟨r, hr, l, hl⟩ := hf a ha n hn
    refine ⟨r, hr, max k l, fun fuel hfuel => ?_⟩
    show (run fuel >>= f fuel) m = r
    rw [bind_eq, hk fuel (Nat.max_le.1 hfuel).1]
    exact hl fuel (Nat.max_le.1 hfuel).2
  | @failed e n hn =>
    refine ⟨.error (.failed e) n, .failed hn, k, fun fuel hfuel => ?_⟩
    show (run fuel >>= f fuel) m = _
    rw [bind_eq, hk fuel hfuel]

theorem ite {c : Prop} [Decidable c] {run run' : Nat → Run α} (h : Halts settings d P run)
    (h' : Halts settings d P run') :
    Halts settings d P fun fuel => if c then run fuel else run' fuel := by
  by_cases hc : c
  · simpa only [if_pos hc] using h
  · simpa only [if_neg hc] using h'

/-- A run that looks at the machine first. -/
theorem of_get {f : Nat → Machine → Run α}
    (h : ∀ m, m.Ready settings d → Halts settings d P fun fuel => f fuel m) :
    Halts settings d P fun fuel => MonadState.get >>= f fuel :=
  fun m hm => h m hm m hm

/-- A run that hands on all its fuel but one unit. -/
theorem succ {run run' : Nat → Run α} (h : Halts settings d P run)
    (heq : ∀ fuel, run' (fuel + 1) = run fuel) : Halts settings d P run' := by
  intro m hm
  obtain ⟨r, hr, k, hk⟩ := h m hm
  refine ⟨r, hr, k + 1, fun fuel hfuel => ?_⟩
  -- What is enough for the inner run is at least one unit, which the outer one takes.
  obtain ⟨fuel, rfl⟩ : ∃ l, fuel = l + 1 := ⟨fuel - 1, by omega⟩
  rw [heq]
  exact hk fuel (by omega)

/-- A frame of its own neither binds functions nor opens calls. -/
theorem inNewFrame {run : Nat → Run α} (h : Halts settings d P run) :
    Halts settings d P fun fuel => Run.inNewFrame (run fuel) := by
  rintro m ⟨hloopless, hcalls⟩
  obtain ⟨r, hr, k, hk⟩ := h { m with env := m.env.push } ⟨⟨hloopless.env.push, rfl⟩, hcalls⟩
  refine ⟨moved (fun n => { n with env := n.env.pop }) r, ?_, k, fun fuel hfuel => ?_⟩
  · cases hr with
    | ok ha hn => exact .ok ha ⟨⟨hn.loopless.env.pop, rfl⟩, hn.calls⟩
    | failed hn => exact .failed ⟨⟨hn.loopless.env.pop, rfl⟩, hn.calls⟩
  · show (Run.inNewFrame (run fuel)) m = _
    rw [inNewFrame_eq, hk fuel hfuel]

/-- Inside a call, one call less may be opened. -/
theorem inCall {run : Nat → Run α} (h : Halts settings d P run) :
    Halts settings (d + 1) P fun fuel => Run.inCall (run fuel) := by
  rintro m ⟨hloopless, hcalls⟩
  have hinside : Machine.Ready settings d { m with depth := m.depth + 1 } :=
    ⟨⟨hloopless.env, rfl⟩, show settings.callLimit ≤ m.depth + 1 + d by omega⟩
  obtain ⟨r, hr, k, hk⟩ := h _ hinside
  -- Behind the call, as many calls may be opened as before it.
  have hback {n : Machine} (hn : n.Ready settings d) :
      Machine.Ready settings (d + 1) { n with depth := n.depth - 1 } := by
    have hcalls := hn.calls
    exact ⟨⟨hn.loopless.env, rfl⟩, show settings.callLimit ≤ n.depth - 1 + (d + 1) by omega⟩
  refine ⟨moved (fun n => { n with depth := n.depth - 1 }) r, ?_, k, fun fuel hfuel => ?_⟩
  · cases hr with
    | ok ha hn => exact .ok ha (hback hn)
    | failed hn => exact .failed (hback hn)
  · show (Run.inCall (run fuel)) m = _
    rw [inCall_eq, hk fuel hfuel]

end Halts

/-! ### Steps -/

/-- A run that needs no fuel and opens no calls. -/
def IsStep (r : Run α) : Prop := ∀ m, IsFinal (r m) ∧ (after r m).depth = m.depth

namespace IsStep

theorem pure (a : α) : IsStep (Pure.pure a : Run α) := fun _ => ⟨trivial, rfl⟩

theorem fail (e : RuntimeError) : IsStep (Run.fail e : Run α) := fun _ => ⟨trivial, rfl⟩

/-- A value or an error that is given is a step. -/
theorem ofExcept (x : Except RuntimeError α) : IsStep (Run.ofExcept x) := by
  cases x with
  | ok a => exact pure a
  | error e => exact fail e

/-- Steps one after the other are a step. -/
theorem bind {r : Run α} {f : α → Run β} (h : IsStep r) (hf : ∀ a, IsStep (f a)) :
    IsStep (r >>= f) := by
  intro m
  obtain ⟨hfinal, hdepth⟩ := h m
  rw [after_bind, bind_eq]
  unfold Run.after at hdepth
  cases hr : r m with
  | ok a n =>
    rw [hr] at hdepth
    exact ⟨(hf a n).1, (hf a n).2.trans hdepth⟩
  | error stop n =>
    rw [hr] at hfinal hdepth
    refine ⟨?_, hdepth⟩
    cases stop with
    | failed e => trivial
    | outOfFuel => exact hfinal.elim

theorem ite {c : Prop} [Decidable c] {r u : Run α} (h : IsStep r) (hu : IsStep u) :
    IsStep (if c then r else u) := by
  by_cases hc : c
  · rwa [if_pos hc]
  · rwa [if_neg hc]

/-- A step that keeps functions without loops from others, as it does in the same way in programs
    that match. -/
theorem halts {r : Run α} {R : α → α → Prop} (h : IsStep r)
    (hmatches : Run.Matches .loopless R r r) (hR : ∀ a, R a a → P a) :
    Halts settings d P fun _ => r := by
  intro m hm
  obtain ⟨hfinal, hdepth⟩ := h m
  -- Run against itself, the step keeps all functions without loops.
  have hresult := hmatches m m hm.loopless
  refine ⟨r m, ?_, 0, fun _ _ => rfl⟩
  unfold Run.after at hdepth
  cases hr : r m with
  | ok a n =>
    rw [hr] at hdepth hresult
    cases hresult with
    | ok ha hn => exact .ok (hR a ha) ⟨hn, hdepth.symm ▸ hm.calls⟩
  | error stop n =>
    rw [hr] at hfinal hdepth hresult
    cases hresult with
    | error _ hn =>
      cases stop with
      | failed e => exact .failed ⟨hn, hdepth.symm ▸ hm.calls⟩
      | outOfFuel => exact hfinal.elim

end IsStep

/-- Looking a name up is a step. -/
theorem isStep_get (name : Token) : IsStep (Run.get name) := fun m =>
  IsStep.ofExcept (m.env.get name) m

/-- An assignment is a step. -/
theorem isStep_assign (name : Token) (value : Value) : IsStep (Run.assign name value) := by
  intro m
  refine (IsStep.ofExcept (m.env.assign name value)).bind (fun env => ?_) m
  exact fun n => ⟨trivial, rfl⟩

/-- A definition is a step. -/
theorem isStep_define (name : Token) (value : Value) : IsStep (Run.define name value) :=
  fun _ => ⟨trivial, rfl⟩

/-- Binding parameters is a sequence of definitions. -/
theorem isStep_defineAll (names : List Token) (values : List Value) :
    IsStep (Run.defineAll names values) := by
  induction names generalizing values with
  | nil => exact .pure ()
  | cons name names ih =>
    cases values with
    | nil => exact .pure ()
    | cons value values => exact (isStep_define name value).bind fun _ => ih values

/-- Printing is a step, whether it succeeds or not. -/
theorem isStep_print (keyword : Token) (value : Value) : IsStep (Run.print keyword value) :=
  .bind (fun _ => ⟨trivial, rfl⟩) fun _ => .ite (.pure ()) (.fail _)

/-- Native functions run for one step only. -/
theorem isStep_callNative (settings : Settings) (n : Native) (paren : Token)
    (arguments : List Value) : IsStep (callNative settings n paren arguments) := by
  unfold callNative
  split
  · -- The clock, which may fail, comes first; the others need no fuel either.
    exact .bind (fun _ => ⟨trivial, rfl⟩) fun _ => .ofExcept _
  · exact .ite (.bind (fun _ => ⟨trivial, rfl⟩) fun _ => .pure _) (.fail _)
  · exact .pure _
  · exact .fail _

end Run

open Run (Halts)

/-! ### Programs -/

section

variable {settings : Settings} {d : Nat}

/-- The statement does not return a function with a loop. -/
def Flow.IsLoopless (flow : Flow) : Prop := flow.Matches .loopless flow

/-- If one call less may be opened, each list of statements without loops halts as a block. -/
def BodiesHalt (settings : Settings) (d : Nat) : Prop :=
  ∀ d', d = d' + 1 → ∀ body : List (Stmt Nat), (∀ s ∈ body, s.IsLoopless) →
    Halts settings d' Flow.IsLoopless fun fuel => executeBlock settings fuel body

/-- A call halts: either no more calls may be opened, or one less inside of this one. -/
theorem halts_call (h : BodiesHalt settings d) {callee : Value} (hcallee : callee.IsLoopless)
    (paren : Token) {arguments : List Value}
    (harguments : List.Forall₂ (Value.Matches .loopless) arguments arguments) :
    Halts settings d Value.IsLoopless fun fuel => call settings fuel callee paren arguments := by
  cases hcallee with
  | native n =>
    refine .succ (.ite (.fail _) ?_) fun _ => rfl
    exact (Run.isStep_callNative settings n paren arguments).halts
      (Run.matches_callNative settings n rfl harguments) fun _ hv => hv
  | @function f _ hf =>
    refine .succ (.ite (.fail _) (.of_get fun m hm => ?_)) fun _ => rfl
    by_cases hlimit : settings.callLimit ≤ m.depth
    · simpa only [if_pos hlimit] using Halts.fail ⟨paren, .stackOverflow⟩
    · -- The limit is not reached, so it is at least one call off.
      obtain ⟨d, rfl⟩ : ∃ d', d = d' + 1 := ⟨d - 1, by have := hm.calls; omega⟩
      -- Parameters and arguments keep functions with loops out, and so does the body.
      have hparameters : List.Forall₂ (Correspondence.loopless.token .declared) f.parameters
          f.parameters := hf.parameters
      have hbody := (((Run.isStep_defineAll f.parameters arguments).halts (P := fun _ => True)
        (Run.matches_defineAll hparameters harguments) fun _ _ => trivial).bind fun _ _ =>
          h d rfl f.body hf.function.function).inNewFrame.inCall
      simp only [if_neg hlimit]
      exact hbody.bind fun flow hflow => .pure hflow.result
  | _ => exact .succ (.fail ⟨paren, .notCallable⟩) fun _ => rfl

mutual

/-- By recursion along the tree. The body of a function that is called is not a part of it, but for
    that there is one call less to go. -/
theorem halts_evaluate (h : BodiesHalt settings d) (e : Expr) :
    Halts settings d Value.IsLoopless fun fuel => evaluate settings fuel e := by
  match e with
  | .constant c => exact .succ (.pure (.ofConstant c)) fun _ => rfl
  | .group e => exact .succ (halts_evaluate h e) fun _ => rfl
  | .name name =>
    refine .succ ?_ fun _ => rfl
    exact (Run.isStep_get name).halts (Run.matches_get rfl) fun _ hv => hv
  | .assign name e =>
    refine .succ ((halts_evaluate h e).bind fun value hvalue => ?_) fun _ => rfl
    exact ((Run.isStep_assign name value).halts (P := fun _ => True)
      (Run.matches_assign rfl hvalue) fun _ _ => trivial).bind fun _ _ => .pure hvalue
  | .unary op e =>
    refine .succ ((halts_evaluate h e).bind fun value hvalue => ?_) fun _ => rfl
    exact (Run.IsStep.ofExcept _).halts (.ofExcept (Value.unary_matches rfl hvalue)) fun _ hv => hv
  | .binary l op r =>
    refine .succ ((halts_evaluate h l).bind fun left hleft =>
      (halts_evaluate h r).bind fun right hright => ?_) fun _ => rfl
    exact (Run.IsStep.ofExcept _).halts (.ofExcept (Value.binary_matches rfl hleft hright))
      fun _ hv => hv
  -- Only the left operand is evaluated for sure.
  | .logical l op r =>
    refine .succ ((halts_evaluate h l).bind fun left hleft => ?_) fun _ => rfl
    cases left.decides? op with
    | none => exact .fail _
    | some decided =>
      cases decided with
      | true => exact .pure hleft
      | false => exact halts_evaluate h r
  -- The callee may be any function that has been bound, so its body is not below this tree.
  | .call callee paren arguments =>
    exact .succ ((halts_evaluate h callee).bind fun v hv =>
      (halts_evaluateAll h arguments).bind fun values hvalues =>
        halts_call h hv paren hvalues) fun _ => rfl

/-- A list of expressions halts, item by item. -/
theorem halts_evaluateAll (h : BodiesHalt settings d) (es : List Expr) :
    Halts settings d (fun values => List.Forall₂ (Value.Matches .loopless) values values)
      fun fuel => evaluateAll settings fuel es := by
  match es with
  | [] => exact .succ (.pure .nil) fun _ => rfl
  | e :: es =>
    exact .succ ((halts_evaluate h e).bind fun v hv =>
      (halts_evaluateAll h es).bind fun values hvalues => .pure (.cons hv hvalues)) fun _ => rfl

end

mutual

/-- Only a loop could execute a statement more than once. -/
theorem halts_execute (h : BodiesHalt settings d) (s : Stmt Nat) (hs : s.IsLoopless) :
    Halts settings d Flow.IsLoopless fun fuel => execute settings fuel s := by
  match s with
  | .expression e =>
    exact .succ ((halts_evaluate h e).bind fun _ _ => .pure .normal) fun _ => rfl
  | .print keyword e =>
    refine .succ ((halts_evaluate h e).bind fun value hvalue => ?_) fun _ => rfl
    exact ((Run.isStep_print keyword value).halts (P := fun _ => True)
      (Run.matches_print rfl hvalue) fun _ _ => trivial).bind fun _ _ => .pure .normal
  | .variable name e =>
    refine .succ ((halts_evaluate h e).bind fun value hvalue => ?_) fun _ => rfl
    exact ((Run.isStep_define name value).halts (P := fun _ => True)
      (Run.matches_define rfl hvalue) fun _ _ => trivial).bind fun _ _ => .pure .normal
  | .function id name parameters body =>
    -- The function gets into the environment, and it has no loops.
    have hvalue : Value.IsLoopless (.callable (.function ⟨id, name, parameters, body⟩)) :=
      .function (matches_loopless hs)
    refine .succ ?_ fun _ => rfl
    exact ((Run.isStep_define name _).halts (P := fun _ => True)
      (Run.matches_define rfl hvalue) fun _ _ => trivial).bind fun _ _ => .pure .normal
  | .block body =>
    exact .succ (Halts.inNewFrame (halts_executeBlock h body hs.block)) fun _ => rfl
  | .ifThen condition yes =>
    refine .succ ((halts_evaluate h condition).bind fun _ _ => ?_) fun _ => rfl
    exact (halts_execute h yes hs.ifThen).ite (.pure .normal)
  | .ifElse condition yes no =>
    refine .succ ((halts_evaluate h condition).bind fun _ _ => ?_) fun _ => rfl
    exact (halts_execute h yes hs.ifElse.1).ite (halts_execute h no hs.ifElse.2)
  | .while condition body => exact hs.not_while.elim
  | .return keyword e =>
    exact .succ ((halts_evaluate h e).bind fun _ hvalue => .pure (.return hvalue)) fun _ => rfl

/-- A list of statements halts, statement by statement. -/
theorem halts_executeBlock (h : BodiesHalt settings d) (body : List (Stmt Nat))
    (hbody : ∀ s ∈ body, s.IsLoopless) :
    Halts settings d Flow.IsLoopless fun fuel => executeBlock settings fuel body := by
  match body with
  | [] => exact .succ (.pure .normal) fun _ => rfl
  | s :: rest =>
    obtain ⟨hs, hrest⟩ := List.forall_mem_cons.1 hbody
    refine .succ ((halts_execute h s hs).bind fun flow hflow => ?_) fun _ => rfl
    cases flow with
    | «return» value => exact .pure hflow
    | normal => exact halts_executeBlock h rest hrest

end

/-- By induction on the number of calls that may be opened. -/
theorem bodiesHalt (settings : Settings) (d : Nat) : BodiesHalt settings d := by
  induction d with
  | zero => exact fun d' h => absurd h (Nat.succ_ne_zero d').symm
  | succ d ih =>
    rintro _ ⟨rfl⟩ body hbody
    exact halts_executeBlock ih body hbody

/-- Programs without loops halt. -/
theorem halts_executeAll (settings : Settings) (d : Nat) {program : List (Stmt Nat)}
    (hprogram : ∀ s ∈ program, s.IsLoopless) :
    Halts settings d (fun _ => True) fun fuel => executeAll settings fuel program := by
  induction program with
  | nil => exact .pure trivial
  | cons s rest ih =>
    obtain ⟨hs, hrest⟩ := List.forall_mem_cons.1 hprogram
    exact (halts_execute (bodiesHalt settings d) s hs).bind fun _ _ => ih hrest

/-- **Programs without loops end.** A list of statements has no loops in it, and neither has any
    function that is bound on the machine, in whatever scope. However deep in calls the machine is
    and whatever the functions call, the statements come to an end, normally or with an error. On
    the machine that they leave, the functions have no loops again. -/
theorem terminates_of_loopless (settings : Settings) {program : List (Stmt Nat)} {m : Machine}
    (hprogram : ∀ s ∈ program, s.IsLoopless)
    (hm : ∀ f, m.env.HasFunction f → f.declaration.IsLoopless) :
    ∃ n, (∀ f, n.env.HasFunction f → f.declaration.IsLoopless) ∧
      (Terminates (fun fuel => executeAll settings fuel program) m (.ok () n) ∨
        ∃ e, Terminates (fun fuel => executeAll settings fuel program) m
          (.error (.failed e) n)) := by
  -- The limit itself bounds the calls that may be opened, however deep the machine is.
  have hready : m.Ready settings settings.callLimit :=
    ⟨Machine.matches_loopless_iff.2 hm, Nat.le_add_left _ _⟩
  obtain ⟨r, hr, k, hk⟩ := halts_executeAll settings settings.callLimit hprogram m hready
  have hrun := hk k (Nat.le_refl k)
  cases hr with
  | @ok _ n _ hn =>
    exact ⟨n, Machine.matches_loopless_iff.1 hn.loopless, .inl ⟨trivial, k, hrun⟩⟩
  | @failed e n hn =>
    exact ⟨n, Machine.matches_loopless_iff.1 hn.loopless, .inr ⟨e, trivial, k, hrun⟩⟩

/-- A function that calls what it is passed, under a name that it has given a new value, and is
    passed itself. -/
def passingItself : List (Stmt Nat) :=
  (({} : Session).load (parse (scan "var h; fun f(g) { h = g; h(h); } f(f);")).1).1

/-- Such a call is no part of the tree, and the run ends all the same. -/
theorem terminates_of_loopless_passingItself :
    (∀ s ∈ passingItself, s.IsLoopless) ∧
      ∃ n, (∀ f, n.env.HasFunction f → f.declaration.IsLoopless) ∧
        (Terminates (fun fuel => executeAll { clock := fun _ => 0 } fuel passingItself) {}
            (.ok () n) ∨
          ∃ e, Terminates (fun fuel => executeAll { clock := fun _ => 0 } fuel passingItself) {}
            (.error (.failed e) n)) := by
  have hloopless : ∀ s ∈ passingItself, s.IsLoopless := by decide +kernel
  exact ⟨hloopless, terminates_of_loopless { clock := fun _ => 0 } hloopless fun f hf =>
    absurd hf (Environment.not_hasFunction (.inr rfl) f)⟩

/-- A function that is passed to itself calls itself until no more calls may be opened. -/
example :
    ((({} : Session).run { callLimit := 3, clock := fun _ => 0 } 40
      "var h; fun f(g) { h = g; h(h); } f(f);").1.runtimeError?).map (·.cause) =
        some .stackOverflow := by
  decide +kernel

end

end Lox
