import Lox.Proofs.Evaluation.Moment
import Lox.Proofs.Evaluation.Scope
import Lox.Proofs.Evaluation.Simulation

namespace Lox

/-!
# The limit on open calls

A call of a function is refused if too many calls are open. That is all that the limit does: a run
that is refused no call goes on as with any greater limit. The number that is compared with the
limit is the number of calls that are open, at each call that is made: the machine counts a call
when its body is entered, and no longer when the body is left, however that happens.

* `Run.Overflows` — a run that fails because a call is refused.
* `Run.CallFree` — a run in which no call of a declared function is made.
* `Limited` — a run and its moments under two limits, with lemmas for steps, sequences, brackets.
* `Limited.enter` — a call, at which the limit is looked at.
* `executeAll_callLimit` — whole programs.
-/

variable {α β : Type} {settings : Settings} {fuel L L' : Nat}

open Moment (arising)
open Run (after behind moved)

/-! ### Runs without calls -/

namespace Run

/-- The run fails since a call is refused at the given token. -/
def Overflows (paren : Token) (x : EStateM.Result Stop Machine α) : Prop :=
  ∃ n, x = .error (.failed ⟨paren, .stackOverflow⟩) n

/-- Whether a run overflows does not depend on the machine on which it ends. -/
theorem overflows_moved {paren : Token} {f : Machine → Machine}
    {x : EStateM.Result Stop Machine α} : Overflows paren (moved f x) ↔ Overflows paren x := by
  constructor
  · rintro ⟨n, hn⟩
    cases x with
    | ok a m => cases hn
    | error stop m =>
      cases hn
      exact ⟨m, rfl⟩
  · rintro ⟨n, rfl⟩
    exact ⟨f n, rfl⟩

/-- A sequence overflows in its first part or in the second one. -/
theorem overflows_bind {paren : Token} {r : Run α} {f : α → Run β} {m : Machine} :
    Overflows paren ((r >>= f) m) ↔
      Overflows paren (r m) ∨ ∃ a n, r m = .ok a n ∧ Overflows paren (f a n) := by
  rw [bind_eq]
  cases r m with
  | ok a n =>
    refine ⟨fun h => .inr ⟨a, n, rfl, h⟩, ?_⟩
    rintro (⟨_, ⟨⟩⟩ | ⟨_, _, ⟨⟩, h⟩)
    exact h
  | error stop n =>
    constructor
    · rintro ⟨_, ⟨⟩⟩
      exact .inl ⟨n, rfl⟩
    · rintro (⟨_, ⟨⟩⟩ | ⟨_, _, ⟨⟩, _⟩)
      exact ⟨n, rfl⟩

/-- A call overflows where its body does, in which one more call is open. -/
theorem overflows_inCall {paren : Token} {r : Run α} {result : α → β} {m : Machine} :
    Overflows paren ((Run.inCall r >>= fun a => pure (result a)) m) ↔
      Overflows paren (r { m with depth := m.depth + 1 }) := by
  rw [overflows_bind, inCall_eq, overflows_moved, or_iff_left]
  rintro ⟨_, _, -, _, ⟨⟩⟩

/-- Whether a run overflows somewhere can be computed. -/
theorem exists_overflows_iff {r : Run α} {m : Machine} :
    (∃ paren, Overflows paren (r m)) ↔ (r.error? m).map (·.cause) = some .stackOverflow := by
  unfold Overflows error?
  cases r m with
  | ok a n => simp
  | error stop n =>
    cases stop with
    | failed e =>
      obtain ⟨token, cause⟩ := e
      simp
    | outOfFuel => simp

/-- As many calls are open behind the run as before it. -/
def Balanced (r : Run α) : Prop := ∀ m, (after r m).depth = m.depth

namespace Balanced

theorem pure (a : α) : Balanced (Pure.pure a : Run α) := fun _ => rfl

/-- The open calls are as many behind the first part, and so behind the second one. -/
theorem bind {r : Run α} {f : α → Run β} (h : Balanced r) (hf : ∀ a, Balanced (f a)) :
    Balanced (r >>= f) := by
  intro m
  have hfirst := h m
  rw [after_bind]
  unfold after at hfirst
  cases hr : r m with
  | ok a n =>
    rw [hr] at hfirst
    exact (hf a n).trans hfirst
  | error stop n =>
    rw [hr] at hfirst
    exact hfirst

/-- The call that is opened is closed again. -/
theorem inCall {r : Run α} (h : Balanced r) : Balanced (Run.inCall r) := by
  intro m
  rw [after_inCall]
  exact congrArg (· - 1) (h { m with depth := m.depth + 1 })

end Balanced

/-- A run that makes no call of a declared function. -/
structure CallFree (r : Run α) : Prop where
  balanced : Balanced r
  not_overflows (m : Machine) (paren : Token) : ¬ Overflows paren (r m)

namespace CallFree

theorem pure (a : α) : CallFree (Pure.pure a : Run α) where
  balanced _ := rfl
  not_overflows _ _ := by rintro ⟨_, ⟨⟩⟩

theorem exhausted : CallFree (Run.exhausted : Run α) where
  balanced _ := rfl
  not_overflows _ _ := by rintro ⟨_, ⟨⟩⟩

theorem fail {e : RuntimeError} (h : e.cause ≠ .stackOverflow) :
    CallFree (Run.fail e : Run α) where
  balanced _ := rfl
  not_overflows _ _ := by
    rintro ⟨n, hn⟩
    cases hn
    exact h rfl

/-- A value that is given makes no call, nor does an error of another kind. -/
theorem ofExcept {x : Except RuntimeError α} (h : ∀ e, x = .error e → e.cause ≠ .stackOverflow) :
    CallFree (Run.ofExcept x) := by
  cases x with
  | ok a => exact pure a
  | error e => exact fail (h e rfl)

/-- A sequence makes no call if neither part does. -/
theorem bind {r : Run α} {f : α → Run β} (h : CallFree r) (hf : ∀ a, CallFree (f a)) :
    CallFree (r >>= f) where
  balanced := h.balanced.bind fun a => (hf a).balanced
  not_overflows m paren hover := by
    rcases overflows_bind.1 hover with hfirst | ⟨a, n, -, hsecond⟩
    · exact h.not_overflows m paren hfirst
    · exact (hf a).not_overflows n paren hsecond

theorem ite {p : Prop} [Decidable p] {r u : Run α} (h : CallFree r) (hu : CallFree u) :
    CallFree (if p then r else u) := by
  by_cases hp : p
  · rwa [if_pos hp]
  · rwa [if_neg hp]

/-- A run that looks at the machine first. -/
theorem of_get {f : Machine → Run α} (h : ∀ m, CallFree (f m)) :
    CallFree (MonadState.get >>= f) :=
  ⟨fun m => (h m).balanced m, fun m => (h m).not_overflows m⟩

/-- A step that succeeds and does not touch the count of the open calls. -/
theorem of_ok {r : Run α} (h : ∀ m, ∃ a n, r m = .ok a n ∧ n.depth = m.depth) : CallFree r where
  balanced m := by
    obtain ⟨a, n, hr, hdepth⟩ := h m
    rw [after_eq_of_ok hr, hdepth]
  not_overflows m paren := by
    obtain ⟨a, n, hr, -⟩ := h m
    rw [hr]
    rintro ⟨_, ⟨⟩⟩

theorem get (name : Token) : CallFree (Run.get name) := by
  refine of_get fun m => ofExcept fun e he => ?_
  unfold Environment.get at he
  split at he <;> cases he
  exact RuntimeError.Cause.noConfusion

/-- An assignment fails only for want of a binding. -/
theorem assign (name : Token) (value : Value) : CallFree (Run.assign name value) := by
  refine of_get fun m => bind (ofExcept fun e he => ?_) fun env => of_ok fun m => ⟨_, _, rfl, rfl⟩
  unfold Environment.assign at he
  split at he <;> cases he
  exact RuntimeError.Cause.noConfusion

/-- A definition does not fail. -/
theorem define (name : Token) (value : Value) : CallFree (Run.define name value) :=
  of_ok fun _ => ⟨_, _, rfl, rfl⟩

/-- Binding parameters is a sequence of definitions. -/
theorem defineAll (names : List Token) (values : List Value) :
    CallFree (Run.defineAll names values) := by
  induction names generalizing values with
  | nil => exact pure ()
  | cons name names ih =>
    cases values with
    | nil => exact pure ()
    | cons value values => exact (define name value).bind fun _ => ih values

/-- Printing fails only with an error of the output. -/
theorem print (keyword : Token) (value : Value) : CallFree (Run.print keyword value) := by
  refine CallFree.bind ?_ fun complete => ?_
  · exact of_ok fun _ => ⟨_, _, rfl, rfl⟩
  · exact (pure ()).ite (fail RuntimeError.Cause.noConfusion)

/-- Whether the clock can be read does not depend on the open calls. -/
theorem reading (paren : Token) (seconds : Float) :
    CallFree (Run.ofExcept (Value.reading paren seconds)) := by
  refine ofExcept fun e he => ?_
  unfold Value.reading at he
  split at he <;> cases he
  exact RuntimeError.Cause.noConfusion

/-- Native functions make no calls, and they fail with errors of their own. -/
theorem callNative (settings : Settings) (n : Native) (paren : Token) (arguments : List Value) :
    CallFree (callNative settings n paren arguments) := by
  unfold Lox.callNative
  split
  · refine CallFree.bind ?_ fun seconds => reading paren seconds
    exact of_ok fun _ => ⟨_, _, rfl, rfl⟩
  · refine ite (CallFree.bind ?_ fun _ => pure _) (fail RuntimeError.Cause.noConfusion)
    exact of_ok fun _ => ⟨_, _, rfl, rfl⟩
  · exact pure _
  · exact fail RuntimeError.Cause.noConfusion

/-- An operand of the wrong kind is the only failure of an operator in front of it. -/
theorem unary (op : Token) (operand : Value) :
    CallFree (Run.ofExcept (Value.unary op operand)) := by
  refine ofExcept fun e he => ?_
  unfold Value.unary at he
  split at he
  · cases he
  · split at he <;> cases he
    exact RuntimeError.Cause.noConfusion
  · cases he
    exact RuntimeError.Cause.noConfusion

/-- Operands of the wrong kind are the only failures of an operator between two values. -/
theorem binary (op : Token) (left right : Value) :
    CallFree (Run.ofExcept (Value.binary op left right)) := by
  refine ofExcept fun e he => ?_
  unfold Value.binary at he
  -- The cases are those of the definition, and no error among them is an overflow.
  split at he
  · cases he
  · cases he
  · split at he <;> cases he
    exact RuntimeError.Cause.noConfusion
  · split at he
    · cases he
      exact RuntimeError.Cause.noConfusion
    · split at he <;> cases he
      exact RuntimeError.Cause.noConfusion
  · cases he
    exact RuntimeError.Cause.noConfusion

end CallFree

end Run

open Run (CallFree Overflows)

/-! ### Runs under two limits -/

/-- The settings with another limit on the open calls. -/
def Settings.withLimit (settings : Settings) (L : Nat) : Settings :=
  { settings with callLimit := L }

/-- A call is made in a run under the limit `L`, where the run starts on the machine `m` with some
    calls open and ends with the result `x`. -/
structure Call.MadeIn (L : Nat) (opened : List Call) (m : Machine)
    (x : EStateM.Result Stop Machine α) (inside : List Call) (call : Call) (n : Machine) :
    Prop where
  arity : call.arguments.length = call.function.parameters.length
  /-- The machine counts the calls in which this one is made. -/
  nested : ∃ inner, inside = inner ++ opened ∧ n.depth = m.depth + inner.length
  le : m.depth ≤ L → n.depth ≤ L
  /-- With so many calls open, the call is refused. -/
  refused : L ≤ n.depth → Overflows call.paren x

/-- A call that is made in the body of another one is made in that call. The body runs with one more
    call open, and what becomes of it becomes of the call. -/
theorem Call.MadeIn.of_body {call inner : Call} {opened inside : List Call} {m n : Machine}
    {x : EStateM.Result Stop Machine α} {y : EStateM.Result Stop Machine β}
    (h : inner.MadeIn L (call :: opened) { m with depth := m.depth + 1 } x inside n)
    (hroom : m.depth < L) (hxy : ∀ paren, Overflows paren x → Overflows paren y) :
    inner.MadeIn L opened m y inside n := by
  obtain ⟨more, rfl, hdepth⟩ := h.nested
  refine ⟨h.arity, ⟨more ++ [call], by simp, ?_⟩, fun _ => h.le hroom, fun hle => ?_⟩
  · simp only [List.length_append, List.length_singleton, hdepth]
    omega
  · exact hxy _ (h.refused hle)

/-- A run with its moments under the limit `L`, next to the same run under another limit. -/
structure Limited (L : Nat) (t : List Call → Machine → List Moment) (r r' : Run α) : Prop where
  balanced : r.Balanced
  calls {opened inside : List Call} {m n : Machine} {call : Call} :
    .call inside call n ∈ t opened m → call.MadeIn L opened m (r m) inside n
  /-- If a call is refused, it is the last one that is made. -/
  overflow {m : Machine} {paren : Token} (opened : List Call) : Overflows paren (r m) →
    ∃ before inside call n, t opened m = before ++ [.call inside call n] ∧ call.paren = paren ∧
      L ≤ n.depth
  agrees (m : Machine) : r' m = r m ∨ ∃ paren, Overflows paren (r m)

namespace Limited

variable {t : List Call → Machine → List Moment} {r r' : Run α}

/-- Without a call the limit does not matter. -/
theorem of_callFree (h : CallFree r) : Limited L (fun _ _ => []) r r where
  balanced := h.balanced
  calls hmem := by cases hmem
  overflow {m paren} _ hover := (h.not_overflows m paren hover).elim
  agrees _ := .inl rfl

/-- A declaration makes no call; its value arises. -/
theorem of_declaration (h : CallFree r) (value : Value) :
    Limited L (fun _ _ => [.value value]) r r where
  balanced := h.balanced
  calls hmem := by cases List.mem_singleton.1 hmem
  overflow {m paren} _ hover := (h.not_overflows m paren hover).elim
  agrees _ := .inl rfl

/-- The moments of a sequence are those of its parts, and either part may overflow. -/
theorem bind {t' : α → List Call → Machine → List Moment} {f f' : α → Run β}
    (h : Limited L t r r') (hf : ∀ a, Limited L (t' a) (f a) (f' a)) :
    Limited L (fun opened m => t opened m ++ behind (r m) fun a n => t' a opened n) (r >>= f)
      (r' >>= f') where
  balanced := h.balanced.bind fun a => (hf a).balanced
  calls {opened inside m n call} hmem := by
    rcases List.mem_append.1 hmem with hfirst | hsecond
    · have hmade := h.calls hfirst
      exact { hmade with refused := fun hle => Run.overflows_bind.2 (.inl (hmade.refused hle)) }
    · cases hr : r m with
      | error stop k =>
        rw [hr] at hsecond
        cases hsecond
      | ok a k =>
        rw [hr] at hsecond
        have hmade := (hf a).calls hsecond
        -- As the first part is balanced, the second one starts with as many calls open.
        have hdepth : k.depth = m.depth := by rw [← Run.after_eq_of_ok hr, h.balanced]
        refine ⟨hmade.arity, hdepth ▸ hmade.nested, hdepth ▸ hmade.le, fun hle => ?_⟩
        exact Run.overflows_bind.2 (.inr ⟨a, k, hr, hmade.refused hle⟩)
  overflow {m paren} opened hover := by
    rcases Run.overflows_bind.1 hover with hfirst | ⟨a, k, hr, hsecond⟩
    · obtain ⟨k, hr⟩ := id hfirst
      obtain ⟨before, inside, call, n, ht, hcall⟩ := h.overflow opened hfirst
      refine ⟨before, inside, call, n, ?_, hcall⟩
      simp only [hr, behind, List.append_nil, ht]
    · obtain ⟨before, inside, call, n, ht, hcall⟩ := (hf a).overflow opened hsecond
      refine ⟨t opened m ++ before, inside, call, n, ?_, hcall⟩
      simp only [hr, behind, ht, List.append_assoc]
  agrees m := by
    -- Where the first part agrees under both limits, the second one starts alike.
    rcases h.agrees m with hsame | ⟨paren, hover⟩
    · rw [Run.bind_eq, Run.bind_eq, hsame]
      cases hr : r m with
      | ok a n => exact (hf a).agrees n
      | error stop n => exact .inl rfl
    · exact .inr ⟨paren, Run.overflows_bind.2 (.inl hover)⟩

/-- A second part without calls adds no moments. -/
theorem bind_callFree {f : α → Run β} (h : Limited L t r r') (hf : ∀ a, CallFree (f a)) :
    Limited L t (r >>= f) (r' >>= f) := by
  simpa using h.bind fun a => of_callFree (hf a)

theorem ite {p : Prop} [Decidable p] {t' : List Call → Machine → List Moment} {u u' : Run α}
    (h : p → Limited L t r r') (hu : ¬ p → Limited L t' u u') :
    Limited L (fun opened m => if p then t opened m else t' opened m) (if p then r else u)
      (if p then r' else u') := by
  by_cases hp : p
  · simpa only [if_pos hp] using h hp
  · simpa only [if_neg hp] using hu hp

/-- The value of a run is no call. -/
theorem arising {r r' : Run Value} (h : Limited L t r r') :
    Limited L (fun opened m => t opened m ++ Moment.arising (r m)) r r' where
  balanced := h.balanced
  calls {opened inside m n call} hmem := by
    rcases List.mem_append.1 hmem with hmem | hmem
    · exact h.calls hmem
    · unfold Moment.arising at hmem
      cases hr : r m with
      | ok value k =>
        rw [hr] at hmem
        cases List.mem_singleton.1 hmem
      | error stop k =>
        rw [hr] at hmem
        cases hmem
  -- A run that overflows yields no value, so its moments are all there are.
  overflow {m paren} opened hover := by
    obtain ⟨k, hr⟩ := id hover
    obtain ⟨before, inside, call, n, ht, hcall⟩ := h.overflow opened hover
    refine ⟨before, inside, call, n, ?_, hcall⟩
    simp only [hr, Moment.arising, behind, List.append_nil, ht]
  agrees := h.agrees

/-- A frame around a run does not change the count of the open calls. -/
theorem inNewFrame (h : Limited L t r r') :
    Limited L (fun opened m => t opened { m with env := m.env.push }) (Run.inNewFrame r)
      (Run.inNewFrame r') where
  balanced m := by
    rw [Run.after_inNewFrame]
    exact h.balanced { m with env := m.env.push }
  calls hmem := by
    have hmade := h.calls hmem
    refine ⟨hmade.arity, hmade.nested, hmade.le, fun hle => ?_⟩
    rw [Run.inNewFrame_eq, Run.overflows_moved]
    exact hmade.refused hle
  overflow opened hover := by
    rw [Run.inNewFrame_eq, Run.overflows_moved] at hover
    exact h.overflow opened hover
  agrees m := by
    rw [Run.inNewFrame_eq, Run.inNewFrame_eq]
    rcases h.agrees { m with env := m.env.push } with hsame | ⟨paren, hover⟩
    · exact .inl (congrArg (moved _) hsame)
    · exact .inr ⟨paren, Run.overflows_moved.2 hover⟩

/-- A call, which is refused if `L` calls are open. Inside it, one more call is open. -/
theorem enter (h : Limited L t r r') (hL : L ≤ L') (call : Call)
    (harity : call.arguments.length = call.function.parameters.length) (result : α → β) :
    let enters (limit : Nat) (body : Run α) : Run β := do
      if limit ≤ (← MonadState.get).depth then
        Run.fail ⟨call.paren, .stackOverflow⟩
      else
        let a ← Run.inCall body
        return result a
    Limited L (fun opened m => .call opened call m ::
      if L ≤ m.depth then [] else t (call :: opened) { m with depth := m.depth + 1 })
      (enters L r) (enters L' r') := by
  intro enters
  -- Under either limit the call is refused or its body runs.
  have henters (limit : Nat) (body : Run α) (m : Machine) : enters limit body m =
      if limit ≤ m.depth then .error (.failed ⟨call.paren, .stackOverflow⟩) m
      else (Run.inCall body >>= fun a => pure (result a)) m := by
    show (if limit ≤ m.depth then _ else _ : Run β) m = _
    split <;> rfl
  constructor
  case balanced =>
    intro m
    unfold after
    rw [henters]
    by_cases hle : L ≤ m.depth
    · rw [if_pos hle]
    · rw [if_neg hle]
      exact h.balanced.inCall.bind (fun a => .pure (result a)) m
  -- The call itself is the first moment, and the others are those of its body.
  case calls =>
    intro opened inside m n inner hmem
    rcases List.mem_cons.1 hmem with hhead | htail
    · cases hhead
      refine ⟨harity, ⟨[], rfl, rfl⟩, id, fun hle => ?_⟩
      rw [henters, if_pos hle]
      exact ⟨m, rfl⟩
    · by_cases hle : L ≤ m.depth
      · rw [if_pos hle] at htail
        cases htail
      · rw [if_neg hle] at htail
        rw [henters, if_neg hle]
        exact (h.calls htail).of_body (Nat.lt_of_not_le hle) fun _ => Run.overflows_inCall.2
  case overflow =>
    intro m paren opened hover
    rw [henters] at hover
    by_cases hle : L ≤ m.depth
    · -- The call itself is refused, and its body is not entered.
      rw [if_pos hle] at hover
      obtain ⟨n, ⟨⟩⟩ := hover
      refine ⟨[], opened, call, m, ?_, rfl, hle⟩
      rw [if_pos hle, List.nil_append]
    · rw [if_neg hle, Run.overflows_inCall] at hover
      obtain ⟨before, inside, inner, n, ht, hinner⟩ := h.overflow (call :: opened) hover
      refine ⟨.call opened call m :: before, inside, inner, n, ?_, hinner⟩
      rw [if_neg hle, ht, List.cons_append]
  case agrees =>
    intro m
    rw [henters, henters]
    by_cases hle : L ≤ m.depth
    · rw [if_pos hle]
      exact .inr ⟨call.paren, m, rfl⟩
    · -- With fewer than `L` calls open there is room under both limits.
      by_cases hle' : L' ≤ m.depth
      · exact absurd (Nat.le_trans hL hle') hle
      · rw [if_neg hle, if_neg hle']
        rcases h.agrees { m with depth := m.depth + 1 } with hsame | ⟨paren, hover⟩
        · refine .inl ?_
          rw [Run.bind_eq, Run.bind_eq, Run.inCall_eq, Run.inCall_eq, hsame]
        · exact .inr ⟨paren, Run.overflows_inCall.2 hover⟩

end Limited

/-! ### Programs -/

/-- With some fuel, all runs keep to the limit `L`, and are compared with those under the limit
    `L'`. -/
structure LimitedAll (L L' : Nat) (settings : Settings) (fuel : Nat) : Prop where
  evaluate (e : Expr) :
    Limited L (fun opened => evaluateMoments (settings.withLimit L) fuel opened e)
      (evaluate (settings.withLimit L) fuel e) (evaluate (settings.withLimit L') fuel e)
  evaluateAll (es : List Expr) :
    Limited L (fun opened => evaluateAllMoments (settings.withLimit L) fuel opened es)
      (evaluateAll (settings.withLimit L) fuel es) (evaluateAll (settings.withLimit L') fuel es)
  call (callee : Value) (paren : Token) (arguments : List Value) :
    Limited L (fun opened => callMoments (settings.withLimit L) fuel opened callee paren arguments)
      (call (settings.withLimit L) fuel callee paren arguments)
      (call (settings.withLimit L') fuel callee paren arguments)
  execute (s : Stmt Nat) :
    Limited L (fun opened => executeMoments (settings.withLimit L) fuel opened s)
      (execute (settings.withLimit L) fuel s) (execute (settings.withLimit L') fuel s)
  executeBlock (body : List (Stmt Nat)) :
    Limited L (fun opened => executeBlockMoments (settings.withLimit L) fuel opened body)
      (executeBlock (settings.withLimit L) fuel body)
      (executeBlock (settings.withLimit L') fuel body)
  loop (condition : Expr) (body : Stmt Nat) :
    Limited L (fun opened => loopMoments (settings.withLimit L) fuel opened condition body)
      (loop (settings.withLimit L) fuel condition body)
      (loop (settings.withLimit L') fuel condition body)

/-- Without fuel no call is made. -/
theorem limitedAll_zero : LimitedAll L L' settings 0 where
  evaluate _ := .of_callFree .exhausted
  evaluateAll _ := .of_callFree .exhausted
  call _ _ _ := .of_callFree .exhausted
  execute _ := .of_callFree .exhausted
  executeBlock _ := .of_callFree .exhausted
  loop _ _ := .of_callFree .exhausted

namespace LimitedAll

variable (h : LimitedAll L L' settings fuel)

include h

/-- One level of evaluation, with one case for each kind of expression. -/
theorem evaluate_succ (e : Expr) :
    Limited L (fun opened => evaluateMoments (settings.withLimit L) (fuel + 1) opened e)
      (Lox.evaluate (settings.withLimit L) (fuel + 1) e)
      (Lox.evaluate (settings.withLimit L') (fuel + 1) e) := by
  refine Limited.arising ?_
  cases e with
  | constant c => exact .of_callFree (.pure _)
  | group e => exact h.evaluate e
  | name name => exact .of_callFree (.get name)
  | assign name e =>
    exact (h.evaluate e).bind_callFree fun value =>
      (CallFree.assign name value).bind fun _ => .pure value
  | unary op e => exact (h.evaluate e).bind_callFree fun operand => .unary op operand
  | binary l op r =>
    exact (h.evaluate l).bind fun left =>
      (h.evaluate r).bind_callFree fun right => .binary op left right
  | logical l op r =>
    refine (h.evaluate l).bind fun left => ?_
    cases left.decides? op with
    | none => exact .of_callFree (.fail RuntimeError.Cause.noConfusion)
    | some decided =>
      cases decided with
      | true => exact .of_callFree (.pure left)
      | false => exact h.evaluate r
  -- Callee and arguments are evaluated before a call is made that may be refused.
  | call callee paren arguments =>
    exact (h.evaluate callee).bind fun callee =>
      (h.evaluateAll arguments).bind fun arguments => h.call callee paren arguments

/-- A list of expressions is evaluated one by one. -/
theorem evaluateAll_succ (es : List Expr) :
    Limited L (fun opened => evaluateAllMoments (settings.withLimit L) (fuel + 1) opened es)
      (Lox.evaluateAll (settings.withLimit L) (fuel + 1) es)
      (Lox.evaluateAll (settings.withLimit L') (fuel + 1) es) := by
  cases es with
  | nil => exact .of_callFree (.pure [])
  | cons e es =>
    exact (h.evaluate e).bind fun value => (h.evaluateAll es).bind_callFree fun values => .pure _

/-- A call with the wrong number of arguments is refused before the limit is looked at. -/
theorem call_succ (hL : L ≤ L') (callee : Value) (paren : Token) (arguments : List Value) :
    Limited L
      (fun opened => callMoments (settings.withLimit L) (fuel + 1) opened callee paren arguments)
      (Lox.call (settings.withLimit L) (fuel + 1) callee paren arguments)
      (Lox.call (settings.withLimit L') (fuel + 1) callee paren arguments) := by
  cases callee with
  | callable callee =>
    cases callee with
    | native n =>
      -- Native functions do not look at the limit, and their calls are no moments.
      refine .of_callFree ?_
      exact (CallFree.fail RuntimeError.Cause.noConfusion).ite
        (.callNative settings n paren arguments)
    | function f =>
      -- Parameters are bound without calls, and the body may make them.
      refine .ite (fun _ => .of_callFree (.fail RuntimeError.Cause.noConfusion)) fun harity => ?_
      have hbody := (Limited.of_callFree (.defineAll f.parameters arguments)).bind fun _ =>
        h.executeBlock f.body
      exact hbody.inNewFrame.enter hL ⟨f, paren, arguments⟩ (Decidable.of_not_not harity)
        Flow.result
  | _ => exact .of_callFree (.fail RuntimeError.Cause.noConfusion)

/-- One level of execution, with one case for each kind of statement. -/
theorem execute_succ (s : Stmt Nat) :
    Limited L (fun opened => executeMoments (settings.withLimit L) (fuel + 1) opened s)
      (Lox.execute (settings.withLimit L) (fuel + 1) s)
      (Lox.execute (settings.withLimit L') (fuel + 1) s) := by
  cases s with
  | expression e => exact (h.evaluate e).bind_callFree fun _ => .pure _
  | print keyword e =>
    exact (h.evaluate e).bind_callFree fun value =>
      (CallFree.print keyword value).bind fun _ => .pure _
  | «variable» name e =>
    exact (h.evaluate e).bind_callFree fun value =>
      (CallFree.define name value).bind fun _ => .pure _
  | function id name parameters body =>
    exact .of_declaration ((CallFree.define name _).bind fun _ => .pure _) _
  | block body => exact (h.executeBlock body).inNewFrame
  | ifThen condition yes =>
    exact (h.evaluate condition).bind fun value =>
      .ite (fun _ => h.execute yes) fun _ => .of_callFree (.pure _)
  | ifElse condition yes no =>
    exact (h.evaluate condition).bind fun value =>
      .ite (fun _ => h.execute yes) fun _ => h.execute no
  | «while» condition body => exact h.loop condition body
  | «return» keyword e => exact (h.evaluate e).bind_callFree fun value => .pure _

/-- A block of statements stops at the first `return`. -/
theorem executeBlock_succ (body : List (Stmt Nat)) :
    Limited L (fun opened => executeBlockMoments (settings.withLimit L) (fuel + 1) opened body)
      (Lox.executeBlock (settings.withLimit L) (fuel + 1) body)
      (Lox.executeBlock (settings.withLimit L') (fuel + 1) body) := by
  cases body with
  | nil => exact .of_callFree (.pure _)
  | cons s rest =>
    refine (h.execute s).bind fun flow => ?_
    cases flow with
    | «return» value => exact .of_callFree (.pure _)
    | normal => exact h.executeBlock rest

/-- A turn of a loop is its condition, its body and the loop that is left. -/
theorem loop_succ (condition : Expr) (body : Stmt Nat) :
    Limited L
      (fun opened => loopMoments (settings.withLimit L) (fuel + 1) opened condition body)
      (Lox.loop (settings.withLimit L) (fuel + 1) condition body)
      (Lox.loop (settings.withLimit L') (fuel + 1) condition body) := by
  refine (h.evaluate condition).bind fun value =>
    .ite (fun _ => ?_) fun _ => .of_callFree (.pure _)
  refine (h.execute body).bind fun flow => ?_
  cases flow with
  | «return» value => exact .of_callFree (.pure _)
  | normal => exact h.loop condition body

end LimitedAll

/-- All runs keep to the limit, whatever the fuel. -/
theorem limitedAll (hL : L ≤ L') (settings : Settings) (fuel : Nat) :
    LimitedAll L L' settings fuel := by
  induction fuel with
  | zero => exact limitedAll_zero
  | succ fuel ih =>
    exact ⟨ih.evaluate_succ, ih.evaluateAll_succ, ih.call_succ hL, ih.execute_succ,
      ih.executeBlock_succ, ih.loop_succ⟩

/-- Programs keep to the limit as well. -/
theorem limited_executeAll (hL : L ≤ L') (settings : Settings) (fuel : Nat)
    (program : List (Stmt Nat)) :
    Limited L (fun opened => executeAllMoments (settings.withLimit L) fuel opened program)
      (executeAll (settings.withLimit L) fuel program)
      (executeAll (settings.withLimit L') fuel program) := by
  induction program with
  | nil => exact .of_callFree (.pure ())
  | cons s rest ih => exact ((limitedAll hL settings fuel).execute s).bind fun _ => ih

/-- A call of a native function does not look at the number of open calls. -/
theorem call_native_depth (settings : Settings) (L L' fuel : Nat) (n : Native) (paren : Token)
    (arguments : List Value) (m : Machine) (d : Nat) :
    call (settings.withLimit L) fuel (.callable (.native n)) paren arguments { m with depth := d } =
      moved (fun k => { k with depth := d })
        (call (settings.withLimit L') fuel (.callable (.native n)) paren arguments m) := by
  cases fuel with
  | zero => rfl
  | succ fuel =>
    let natively : Run Value := callNative settings n paren arguments
    show (if arguments.length ≠ n.arity then _ else natively) { m with depth := d } =
      moved _ ((if arguments.length ≠ n.arity then _ else natively) m)
    split
    · rfl
    · unfold natively callNative
      split
      · -- What the clock shows does not depend on the open calls.
        show Run.ofExcept (Value.reading paren (settings.clock m.readings + m.paused)) _ =
          moved _ (Run.ofExcept (Value.reading paren (settings.clock m.readings + m.paused)) _)
        cases Value.reading paren (settings.clock m.readings + m.paused) <;> rfl
      · split <;> rfl
      · rfl
      · rfl

/-- **The limit on open calls only ever turns too deep runs into stack overflows.** A run that ends
    under a limit without a stack overflow ends in the same way, on the same machine, under any
    greater limit. A run under the limit overflows at a call of a declared function with as many
    arguments as it takes and at which as many calls of declared functions are open as the limit
    allows, and it does so whenever such a call is made; that call is the last one of the run. The
    machine counts the open calls at each call that is made, and behind the run as before it. A
    call of a native function depends neither on the limit nor on that count. -/
theorem executeAll_callLimit (settings : Settings) (program : List (Stmt Nat)) {L L' : Nat}
    (hL : L ≤ L') {m : Machine} (hm : m.depth ≤ L) :
    let run (limit fuel : Nat) : Run Unit := executeAll (settings.withLimit limit) fuel program
    (∀ r, Terminates (run L) m r → (∀ paren, ¬ Overflows paren r) → Terminates (run L') m r) ∧
    (∀ fuel,
      let moments := executeAllMoments (settings.withLimit L) fuel [] program m
      (after (run L fuel) m).depth = m.depth ∧
      (∀ paren, Overflows paren (run L fuel m) → ∃ before opened call reached,
        moments = before ++ [.call opened call reached] ∧ call.paren = paren ∧
          m.depth + opened.length = L) ∧
      ∀ opened call reached, .call opened call reached ∈ moments →
        call.arguments.length = call.function.parameters.length ∧
        reached.depth = m.depth + opened.length ∧ m.depth + opened.length ≤ L ∧
        (m.depth + opened.length = L → Overflows call.paren (run L fuel m))) ∧
    ∀ fuel n paren arguments d,
      call (settings.withLimit L) fuel (.callable (.native n)) paren arguments
          { m with depth := d } =
        moved (fun k => { k with depth := d })
          (call (settings.withLimit L') fuel (.callable (.native n)) paren arguments m) := by
  intro run
  have hlimited (fuel : Nat) := limited_executeAll hL settings fuel program
  -- At a call in the run, the count of the machine is the number of open calls.
  have hcall (fuel : Nat) {opened : List Call} {c : Call} {reached : Machine}
      (hmem : .call opened c reached ∈ executeAllMoments (settings.withLimit L) fuel [] program m) :
      c.MadeIn L [] m (run L fuel m) opened reached ∧
        reached.depth = m.depth + opened.length := by
    have hmade := (hlimited fuel).calls hmem
    obtain ⟨inner, rfl, hdepth⟩ := hmade.nested
    rw [List.append_nil] at *
    exact ⟨hmade, hdepth⟩
  refine ⟨fun r hr hover => ?_, fun fuel => ⟨(hlimited fuel).balanced m, fun paren hover => ?_,
    fun opened c reached hmem => ?_⟩, fun fuel n paren arguments d =>
      call_native_depth settings L L' fuel n paren arguments m d⟩
  · -- Without an overflow, the run under the greater limit is the same one.
    obtain ⟨hfinal, fuel, rfl⟩ := hr
    rcases (hlimited fuel).agrees m with hsame | ⟨paren, hoverflows⟩
    · exact ⟨hfinal, fuel, hsame⟩
    · exact absurd hoverflows (hover paren)
  · -- An overflow comes with the call that is refused.
    obtain ⟨before, opened, c, reached, ht, hparen, hle⟩ := (hlimited fuel).overflow [] hover
    obtain ⟨hmade, hdepth⟩ := hcall fuel (ht ▸ List.mem_concat_self)
    exact ⟨before, opened, c, reached, ht, hparen, by have := hmade.le hm; omega⟩
  · -- Each call that is made is counted, within the limit, and refused at the limit.
    obtain ⟨hmade, hdepth⟩ := hcall fuel hmem
    have hle := hmade.le hm
    exact ⟨hmade.arity, hdepth, hdepth ▸ hle, fun heq => hmade.refused (by omega)⟩

/-- The program `fun g() {} fun f() { g(); } f();`. -/
def nestedCall : List (Stmt Nat) :=
  let word (kind : Token.Kind) (lexeme : String) : Token := { kind, lexeme, line := 1 }
  let name (lexeme : String) : Token := word .identifier lexeme
  let call (lexeme : String) : Stmt Nat :=
    .expression (.call (.name (name lexeme)) (word Symbol.rightParen ")") [])
  [.function 0 (name "g") [] [], .function 1 (name "f") [] [call "g"], call "f"]

/-- With room for one call, the inner call is refused, while the outer one is open. With room for
    two, the program ends, and so it does with room for three. -/
theorem callLimit_nestedCall :
    1 ≤ 2 ∧ 2 ≤ 3 ∧ ({} : Machine).depth ≤ 1 ∧ ({} : Machine).depth ≤ 2 ∧
      let settings : Settings := { clock := fun _ => 0 }
      let run (limit fuel : Nat) : Run Unit := executeAll (settings.withLimit limit) fuel nestedCall
      (∃ before opened call reached,
        executeAllMoments (settings.withLimit 1) 9 [] nestedCall {} =
          before ++ [.call opened call reached] ∧
        Overflows call.paren (run 1 9 {}) ∧ opened.length = 1) ∧
      (∀ paren, ¬ Overflows paren (run 2 9 {})) ∧ Terminates (run 3) {} (run 2 9 {}) := by
  have hone : ({} : Machine).depth ≤ 1 := Nat.zero_le 1
  have htwo : ({} : Machine).depth ≤ 2 := Nat.zero_le 2
  refine ⟨by decide, by decide, hone, htwo, ?_⟩
  intro settings run
  have hover : ∃ paren, Overflows paren (run 1 9 {}) :=
    Run.exists_overflows_iff.2 (by decide +kernel)
  have hfits : ∀ paren, ¬ Overflows paren (run 2 9 {}) := by
    rw [← not_exists, Run.exists_overflows_iff]
    decide +kernel
  refine ⟨?_, hfits, ?_⟩
  · obtain ⟨paren, hover⟩ := hover
    have hlimit := executeAll_callLimit settings nestedCall (by decide : 1 ≤ 2) hone
    obtain ⟨before, opened, call, reached, hmoments, rfl, hopened⟩ :=
      (hlimit.2.1 9).2.1 paren hover
    exact ⟨before, opened, call, reached, hmoments, hover, (Nat.zero_add _).symm.trans hopened⟩
  · have hlimit := executeAll_callLimit settings nestedCall (by decide : 2 ≤ 3) htwo
    have hends : Terminates (run 2) {} (run 2 9 {}) := ⟨by decide +kernel, 9, rfl⟩
    exact hlimit.1 _ hends hfits

end Lox
