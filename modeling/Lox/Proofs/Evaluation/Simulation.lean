import Lox.Evaluation
import Lox.Proofs.Evaluation.Following
import Lox.Proofs.Syntax.ForLoop

namespace Lox

/-!
# Simulations

A relation between environments that no step can tell apart is kept by whole programs: run on two
machines that differ in related environments only, a program ends on both or on neither, with the
same result. The relation may depend on how deep the scopes are nested. Not every relation
survives that a name is bound in the current scope; inside a scope that was just entered, it has
to.

* `Simulation` — such a relation, as a family over the nesting of scopes.
* `Simulation.covers` — the second run follows the first, with as much fuel or more.
* `Terminates` — a run ends with a result if it is given enough fuel.
* `Terminates.unique` — the result does not depend on the fuel.
-/

variable {α ι : Type}

/-- Relations between environments that steps keep and do not notice. -/
structure Simulation (ι : Type) where
  rel : ι → Environment → Environment → Prop
  /-- Whether names may be bound in the current scope. -/
  binds : ι → Prop
  lookup {i : ι} {env env' : Environment} (name : String) :
    rel i env env' → env.lookup name = env'.lookup name
  /-- Assigning to a name fails in both environments or in neither. -/
  assign {i : ι} {env env' : Environment} (name : Token) (value : Value) : rel i env env' →
    (∃ env₁ env₁', env.assign name value = .ok env₁ ∧ env'.assign name value = .ok env₁' ∧
      rel i env₁ env₁') ∨
    ∃ e, env.assign name value = .error e ∧ env'.assign name value = .error e
  define {i : ι} {env env' : Environment} (name : String) (value : Value) :
    binds i → rel i env env' → rel i (env.define name value) (env'.define name value)
  /-- A scope is entered and left again. -/
  push {i : ι} {env env' : Environment} : rel i env env' →
    ∃ j, binds j ∧ rel j env.push env'.push ∧
      ∀ {env₁ env₁'}, rel j env₁ env₁' → rel i env₁.pop env₁'.pop

namespace Simulation

open Run (Follows IsFinal Alike)

variable (S : Simulation ι) {i : ι} {settings : Settings} {fuel fuel' : Nat}

/-- The relation of machines that differ in related environments only. -/
def machines (i : ι) (m m' : Machine) : Prop :=
  S.rel i m.env m'.env ∧ m' = { m with env := m'.env }

variable {S}

/-- The same relation, seen from the other side. -/
def flip (S : Simulation ι) : Simulation ι where
  rel i env env' := S.rel i env' env
  binds := S.binds
  lookup name h := (S.lookup name h).symm
  assign name value h := by
    rcases S.assign name value h with ⟨env, env', hok, hok', hnew⟩ | ⟨e, herror, herror'⟩
    · exact .inl ⟨env', env, hok', hok, hnew⟩
    · exact .inr ⟨e, herror', herror⟩
  define name value hbinds h := S.define name value hbinds h
  push h := by
    obtain ⟨j, hbinds, hpush, hpop⟩ := S.push h
    exact ⟨j, hbinds, hpush, fun h₁ => hpop h₁⟩

theorem machines_flip {S : Simulation ι} {i : ι} {m m' : Machine} :
    S.flip.machines i m m' ↔ S.machines i m' m := by
  -- What the environments leave of two machines is the same, whichever of them is named first.
  constructor
  · rintro ⟨hrel, hm⟩
    refine ⟨hrel, ?_⟩
    rw [hm]
  · rintro ⟨hrel, hm⟩
    refine ⟨hrel, ?_⟩
    rw [hm]

/-- Equality of environments that have a property which every operation keeps. -/
def keeping (P : Environment → Prop)
    (hdefine : ∀ {env} name value, P env → P (env.define name value))
    (hassign : ∀ {env env'} {name : Token} {value}, P env →
      env.assign name value = .ok env' → P env')
    (hpush : ∀ {env}, P env → P env.push) (hpop : ∀ {env}, P env → P env.pop) :
    Simulation Unit where
  rel _ env env' := env = env' ∧ P env
  binds _ := True
  lookup _ h := by rw [h.1]
  assign {_ env env'} name value h := by
    obtain ⟨rfl, henv⟩ := h
    cases hok : env.assign name value with
    | ok env' => exact .inl ⟨env', env', rfl, rfl, rfl, hassign henv hok⟩
    | error e => exact .inr ⟨e, rfl, rfl⟩
  define name value _ h := ⟨by rw [h.1], hdefine name value h.2⟩
  push h := ⟨(), trivial, ⟨by rw [h.1], hpush h.2⟩, fun h₁ => ⟨by rw [h₁.1], hpop h₁.2⟩⟩

/-! ### Steps -/

/-- Looking a name up is not told apart on related machines. -/
theorem follows_get (name : Token) : Follows (S.machines i) (Run.get name) (Run.get name) := by
  rintro m m' ⟨hrel, hm'⟩ hfinal
  have heq : m.env.get name = m'.env.get name := by
    unfold Environment.get
    rw [S.lookup name.lexeme hrel]
  have hget := Follows.ofExcept (R := S.machines i) (m.env.get name) m m' ⟨hrel, hm'⟩ hfinal
  show Alike _ (Run.ofExcept (m.env.get name) m) (Run.ofExcept (m'.env.get name) m')
  rwa [← heq]

/-- Assigning to a name is not told apart on related machines. -/
theorem follows_assign (name : Token) (value : Value) :
    Follows (S.machines i) (Run.assign name value) (Run.assign name value) := by
  rintro m m' ⟨hrel, hm'⟩ _
  show Alike _ ((Run.ofExcept (m.env.assign name value) >>= _) m)
    ((Run.ofExcept (m'.env.assign name value) >>= _) m')
  rcases S.assign name value hrel with ⟨env, env', hok, hok', hnew⟩ | ⟨e, herror, herror'⟩
  · rw [hok, hok', hm']
    exact .ok () ⟨hnew, rfl⟩
  · rw [herror, herror']
    exact .error (.failed e) ⟨hrel, hm'⟩

/-- Binding a name is not told apart on related machines, if the relation allows it in the current
    scope. -/
theorem follows_define (hbinds : S.binds i) (name : Token) (value : Value) :
    Follows (S.machines i) (Run.define name value) (Run.define name value) := by
  rintro m m' ⟨hrel, hm'⟩ _
  refine .ok () ⟨S.define name.lexeme value hbinds hrel, ?_⟩
  rw [hm']

/-- Parameters are bound alike on related machines. -/
theorem follows_defineAll (hbinds : S.binds i) (names : List Token) (values : List Value) :
    Follows (S.machines i) (Run.defineAll names values) (Run.defineAll names values) := by
  induction names generalizing values with
  | nil => exact .pure ()
  | cons name names ih =>
    cases values with
    | nil => exact .pure ()
    | cons value values => exact (follows_define hbinds name value).bind fun _ => ih values

/-- Related machines have printed the same, so a line fits on both or on neither. -/
theorem follows_print (keyword : Token) (value : Value) :
    Follows (S.machines i) (Run.print keyword value) (Run.print keyword value) := by
  refine Follows.bind ?_ fun complete => ?_
  · rintro m m' ⟨hrel, hm'⟩ _
    rw [hm']
    exact .ok _ ⟨hrel, rfl⟩
  · exact (Follows.pure ()).ite (.fail _)

/-- A native function that is called on related machines does the same on both. -/
theorem follows_callNative (n : Native) (paren : Token) (arguments : List Value) :
    Follows (S.machines i) (callNative settings n paren arguments)
      (callNative settings n paren arguments) := by
  unfold callNative
  split
  · -- The clock has been read as often on both machines.
    refine Follows.bind ?_ fun seconds => .ofExcept _
    rintro m m' ⟨hrel, hm'⟩ _
    rw [hm']
    exact .ok _ ⟨hrel, rfl⟩
  · refine Follows.ite ?_ (.fail _)
    refine Follows.bind ?_ fun _ => .pure _
    rintro m m' ⟨hrel, hm'⟩ _
    rw [hm']
    exact .ok _ ⟨hrel, rfl⟩
  · exact .pure _
  · exact .fail _

/-- A scope around both runs. Inside, names may be bound. -/
theorem follows_inNewFrame {r r' : Run α}
    (h : ∀ {j}, S.binds j → Follows (S.machines j) r r') :
    Follows (S.machines i) (Run.inNewFrame r) (Run.inNewFrame r') := by
  rintro m m' ⟨hrel, hm'⟩ hfinal
  obtain ⟨j, hbinds, hpush, hpop⟩ := S.push hrel
  rw [Run.inNewFrame_eq, Run.isFinal_moved] at hfinal
  rw [Run.inNewFrame_eq, Run.inNewFrame_eq]
  refine (h hbinds _ _ ⟨hpush, ?_⟩ hfinal).moved ?_
  · rw [hm']
  · rintro n n' ⟨hn, hn'⟩
    refine ⟨hpop hn, ?_⟩
    rw [hn']

/-- A call around both runs. Related machines are equally deep in calls inside it, too. -/
theorem follows_inCall {r r' : Run α} (h : Follows (S.machines i) r r') :
    Follows (S.machines i) (Run.inCall r) (Run.inCall r') := by
  rintro m m' ⟨hrel, hm'⟩ hfinal
  rw [Run.inCall_eq, Run.isFinal_moved] at hfinal
  rw [Run.inCall_eq, Run.inCall_eq]
  refine (h { m with depth := m.depth + 1 } { m' with depth := m'.depth + 1 } ⟨hrel, ?_⟩
    hfinal).moved ?_
  · rw [hm']
  · rintro n n' ⟨hn, hn'⟩
    refine ⟨hn, ?_⟩
    rw [hn']

/-! ### Programs -/

/-- With as much fuel or more, evaluation on a related machine follows evaluation. -/
structure Covers (S : Simulation ι) (settings : Settings) (fuel fuel' : Nat) : Prop where
  evaluate (i : ι) (e : Expr) :
    Follows (S.machines i) (evaluate settings fuel e) (evaluate settings fuel' e)
  evaluateAll (i : ι) (es : List Expr) :
    Follows (S.machines i) (evaluateAll settings fuel es) (evaluateAll settings fuel' es)
  call (i : ι) (callee : Value) (paren : Token) (arguments : List Value) :
    Follows (S.machines i) (call settings fuel callee paren arguments)
      (call settings fuel' callee paren arguments)
  execute (i : ι) (s : Stmt Nat) : S.binds i ∨ s.isPlain →
    Follows (S.machines i) (execute settings fuel s) (execute settings fuel' s)
  executeBlock (i : ι) (body : List (Stmt Nat)) : S.binds i →
    Follows (S.machines i) (executeBlock settings fuel body) (executeBlock settings fuel' body)
  loop (i : ι) (condition : Expr) (body : Stmt Nat) : S.binds i ∨ body.isPlain →
    Follows (S.machines i) (loop settings fuel condition body)
      (loop settings fuel' condition body)

/-- Without fuel every run is followed by every run. -/
theorem covers_zero : S.Covers settings 0 fuel' where
  evaluate _ _ := .exhausted _
  evaluateAll _ _ := .exhausted _
  call _ _ _ _ := .exhausted _
  execute _ _ _ := .exhausted _
  executeBlock _ _ _ := .exhausted _
  loop _ _ _ _ := .exhausted _

/-- Evaluation of an expression is followed on a related machine, if with one fuel less all runs
    are. -/
theorem Covers.evaluate_succ (h : S.Covers settings fuel fuel') (i : ι) (e : Expr) :
    Follows (S.machines i) (Lox.evaluate settings (fuel + 1) e)
      (Lox.evaluate settings (fuel' + 1) e) := by
  cases e with
  | constant c => exact .pure _
  | group e => exact h.evaluate i e
  | name name => exact follows_get name
  | assign name e =>
    exact (h.evaluate i e).bind fun value =>
      (follows_assign name value).bind fun _ => .pure value
  | unary op e => exact (h.evaluate i e).bind fun operand => .ofExcept _
  | binary l op r =>
    exact (h.evaluate i l).bind fun left => (h.evaluate i r).bind fun right => .ofExcept _
  | logical l op r =>
    refine (h.evaluate i l).bind fun left => ?_
    cases left.decides? op with
    | none => exact .fail _
    | some decided =>
      cases decided with
      | true => exact .pure left
      | false => exact h.evaluate i r
  | call callee paren arguments =>
    exact (h.evaluate i callee).bind fun callee =>
      (h.evaluateAll i arguments).bind fun arguments => h.call i callee paren arguments

/-- Evaluation of arguments is followed on a related machine, if with one fuel less all runs are. -/
theorem Covers.evaluateAll_succ (h : S.Covers settings fuel fuel') (i : ι) (es : List Expr) :
    Follows (S.machines i) (Lox.evaluateAll settings (fuel + 1) es)
      (Lox.evaluateAll settings (fuel' + 1) es) := by
  cases es with
  | nil => exact .pure []
  | cons e es =>
    exact (h.evaluate i e).bind fun value => (h.evaluateAll i es).bind fun values => .pure _

/-- A call is followed on a related machine, if with one fuel less all runs are. -/
theorem Covers.call_succ (h : S.Covers settings fuel fuel') (i : ι) (callee : Value)
    (paren : Token) (arguments : List Value) :
    Follows (S.machines i) (Lox.call settings (fuel + 1) callee paren arguments)
      (Lox.call settings (fuel' + 1) callee paren arguments) := by
  cases callee with
  | callable callee =>
    refine Follows.ite (.fail _) ?_
    cases callee with
    | native n => exact follows_callNative n paren arguments
    | function f =>
      refine Follows.of_get fun m m' hm hfinal => ?_
      -- Both machines are equally deep in calls, so both calls are allowed or neither is.
      have hdepth : m.depth = m'.depth := by rw [hm.2]
      show Alike _ _ ((if settings.callLimit ≤ m'.depth then _ else _ : Run Value) m')
      rw [← hdepth]
      refine Follows.ite (.fail _) (Follows.bind (follows_inCall ?_) fun flow => .pure _)
        m m' hm hfinal
      -- The parameters and the names of the body are bound in the new scope, where the relation
      -- allows it.
      refine follows_inNewFrame fun {j} hbinds => ?_
      exact (follows_defineAll hbinds f.parameters arguments).bind fun _ =>
        h.executeBlock j f.body hbinds
  | _ => exact .fail _

/-- Execution of a statement is followed on a related machine, if with one fuel less all runs
    are. -/
theorem Covers.execute_succ (h : S.Covers settings fuel fuel') (i : ι) (s : Stmt Nat)
    (hs : S.binds i ∨ s.isPlain) :
    Follows (S.machines i) (Lox.execute settings (fuel + 1) s)
      (Lox.execute settings (fuel' + 1) s) := by
  cases s with
  | expression e => exact (h.evaluate i e).bind fun _ => .pure _
  | print keyword e =>
    exact (h.evaluate i e).bind fun value => (follows_print keyword value).bind fun _ => .pure _
  -- A declaration is not plain, so here the relation has to allow that a name is bound.
  | «variable» name e =>
    have hbinds : S.binds i := hs.resolve_right Bool.false_ne_true
    exact (h.evaluate i e).bind fun value =>
      (follows_define hbinds name value).bind fun _ => .pure _
  | function id name parameters body =>
    have hbinds : S.binds i := hs.resolve_right Bool.false_ne_true
    exact (follows_define hbinds name _).bind fun _ => .pure _
  | block body => exact follows_inNewFrame fun {j} hbinds => h.executeBlock j body hbinds
  | ifThen condition yes =>
    exact (h.evaluate i condition).bind fun value => (h.execute i yes hs).ite (.pure _)
  | ifElse condition yes no =>
    have hyes : S.binds i ∨ yes.isPlain := hs.imp_right fun hp => (Bool.and_eq_true_iff.1 hp).1
    have hno : S.binds i ∨ no.isPlain := hs.imp_right fun hp => (Bool.and_eq_true_iff.1 hp).2
    exact (h.evaluate i condition).bind fun value =>
      (h.execute i yes hyes).ite (h.execute i no hno)
  | «while» condition body => exact h.loop i condition body hs
  | «return» keyword e => exact (h.evaluate i e).bind fun value => .pure _

/-- Execution of a block is followed on a related machine, if with one fuel less all runs are. -/
theorem Covers.executeBlock_succ (h : S.Covers settings fuel fuel') (i : ι)
    (body : List (Stmt Nat)) (hbinds : S.binds i) :
    Follows (S.machines i) (Lox.executeBlock settings (fuel + 1) body)
      (Lox.executeBlock settings (fuel' + 1) body) := by
  cases body with
  | nil => exact .pure _
  | cons s rest =>
    refine (h.execute i s (.inl hbinds)).bind fun flow => ?_
    cases flow with
    | «return» value => exact .pure _
    | normal => exact h.executeBlock i rest hbinds

/-- Execution of a loop is followed on a related machine, if with one fuel less all runs are. -/
theorem Covers.loop_succ (h : S.Covers settings fuel fuel') (i : ι) (condition : Expr)
    (body : Stmt Nat) (hbody : S.binds i ∨ body.isPlain) :
    Follows (S.machines i) (Lox.loop settings (fuel + 1) condition body)
      (Lox.loop settings (fuel' + 1) condition body) := by
  refine (h.evaluate i condition).bind fun value => Follows.ite ?_ (.pure _)
  refine (h.execute i body hbody).bind fun flow => ?_
  cases flow with
  | «return» value => exact .pure _
  | normal => exact h.loop i condition body hbody

/-- **Whole programs keep a relation that steps keep.** -/
theorem covers (S : Simulation ι) (settings : Settings) (h : fuel ≤ fuel') :
    S.Covers settings fuel fuel' := by
  induction fuel generalizing fuel' with
  | zero => exact covers_zero
  | succ fuel ih =>
    obtain ⟨k, rfl⟩ : ∃ k, fuel' = k + 1 := ⟨fuel' - 1, by omega⟩
    have hk : S.Covers settings fuel k := ih (by omega)
    exact ⟨hk.evaluate_succ, hk.evaluateAll_succ, hk.call_succ, hk.execute_succ,
      hk.executeBlock_succ, hk.loop_succ⟩

end Simulation

/-! ### Fuel -/

open Run (Follows IsFinal Alike)

/-- Given enough fuel, a run ends on a machine with a result. -/
def Terminates (run : (fuel : Nat) → Run α) (m : Machine)
    (r : EStateM.Result Stop Machine α) : Prop :=
  IsFinal r ∧ ∃ fuel, run fuel m = r

/-- What follows on one and the same machine ends with the same result. -/
theorem Run.Follows.eq {R : Machine → Machine → Prop} {r r' : Run α} {m : Machine}
    (h : Follows R r r') (hR : ∀ {n n'}, R n n' → n = n') (hm : R m m) (hfinal : IsFinal (r m)) :
    r' m = r m := by
  have halike := h m m hm hfinal
  generalize r m = x at halike
  generalize r' m = x' at halike
  cases halike with
  | ok a hn => rw [hR hn]
  | error stop hn => rw [hR hn]

/-- A run that follows another one, if it is given enough fuel, ends where the other one ends. -/
theorem Terminates.of_follows {R : Machine → Machine → Prop} {run run' : Nat → Run α} {m : Machine}
    {r : EStateM.Result Stop Machine α} (h : Terminates run m r) (hR : ∀ {n n'}, R n n' → n = n')
    (hm : R m m) (hfollows : ∀ fuel, ∃ fuel', Follows R (run fuel) (run' fuel')) :
    Terminates run' m r := by
  obtain ⟨hfinal, fuel, rfl⟩ := h
  obtain ⟨fuel', hf⟩ := hfollows fuel
  exact ⟨hfinal, fuel', hf.eq hR hm hfinal⟩

namespace Simulation

/-- Equality of environments, with nothing else to keep. -/
def equality : Simulation Unit :=
  .keeping (fun _ => True) (fun _ _ _ => trivial) (fun _ _ => trivial) (fun _ => trivial)
    (fun _ => trivial)

/-- The machines that the equality of environments relates are equal. -/
theorem machines_equality {m m' : Machine} : equality.machines () m m' ↔ m' = m := by
  constructor
  · rintro ⟨⟨henv, -⟩, hm'⟩
    rw [hm', ← henv]
  · rintro rfl
    exact ⟨⟨rfl, trivial⟩, rfl⟩

end Simulation

/-- More fuel does not change how a statement ends. -/
theorem execute_of_le {settings : Settings} {fuel fuel' : Nat} {s : Stmt Nat} {m : Machine}
    (h : fuel ≤ fuel') (hfinal : IsFinal (execute settings fuel s m)) :
    execute settings fuel' s m = execute settings fuel s m :=
  ((Simulation.equality.covers settings h).execute () s (.inl trivial)).eq
    (fun hn => (Simulation.machines_equality.1 hn).symm) (Simulation.machines_equality.2 rfl) hfinal

/-- A statement ends in at most one way. -/
theorem Terminates.unique {settings : Settings} {s : Stmt Nat} {m : Machine}
    {r r' : EStateM.Result Stop Machine Flow}
    (h : Terminates (fun fuel => execute settings fuel s) m r)
    (h' : Terminates (fun fuel => execute settings fuel s) m r') : r = r' := by
  obtain ⟨hfinal, fuel, rfl⟩ := h
  obtain ⟨hfinal', fuel', rfl⟩ := h'
  rcases Nat.le_total fuel fuel' with hle | hle
  · exact (execute_of_le hle hfinal).symm
  · exact execute_of_le hle hfinal'

end Lox
