import Lox.Evaluation
import Lox.Proofs.Environment.Matching
import Lox.Proofs.Evaluation.Following

namespace Lox

/-!
# Runs of programs that match

Programs that match, run on machines that match, do the same: step by step they stop for the same
reason or go on with values that match. If they fail, it is at tokens that correspond to each other,
and the cause fits the place of these tokens in the trees. So what is known of the tokens in a
program and in the functions of an environment is known of the tokens of errors.

* `RuntimeError.FitsAt` — which causes go with which places and tokens.
* `RuntimeError.Matches`, `Machine.Matches`, `Run.Matches` — errors, machines and runs that match.
* `Value.unary_matches`, `Value.binary_matches` — operators on values that match.
* `runsMatch` — evaluation and execution of trees that match.
-/

variable {α β γ δ : Type} {C : Correspondence}

/-! ### Errors -/

namespace RuntimeError

/-- The cause of an error fits the token, standing at a place in a tree. -/
def FitsAt (place : Place) (e : RuntimeError) : Prop :=
  match e.cause with
  | .operandMustBeNumber => place = .unary ∧ e.token.kind = Symbol.minus
  | .operandsMustBeNumbers =>
    place = .binary ∧
      (e.token.kind = Symbol.minus ∨ e.token.kind = Symbol.star ∨ e.token.kind = Symbol.slash ∨
        e.token.kind = Symbol.greater ∨ e.token.kind = Symbol.greaterEqual ∨
        e.token.kind = Symbol.less ∨ e.token.kind = Symbol.lessEqual)
  | .operandsMustBeNumbersOrStrings => place = .binary ∧ e.token.kind = Symbol.plus
  | .undefinedVariable name =>
    place = .variable ∧ e.token.kind = .identifier ∧ e.token.lexeme = name
  | .notCallable | .arity .. | .native _ | .stackOverflow =>
    place = .call ∧ e.token.kind = Symbol.rightParen
  | .output _ => place = .print ∧ e.token.kind = Keyword.print_
  | .invalidOperator _ => False

/-- The same cause, at corresponding tokens of some place. The cause fits the place, if the token
    does. -/
structure Matches (C : Correspondence) (e e' : RuntimeError) : Prop where
  cause_eq : e.cause = e'.cause
  token : ∃ place, C.token place e.token e'.token ∧
    (place.fits e.token.kind = true → e.FitsAt place)

end RuntimeError

/-- The same reason to stop, up to tokens. -/
inductive Stop.Matches (C : Correspondence) : Stop → Stop → Prop
  | failed {e e' : RuntimeError} : e.Matches C e' → Stop.Matches C (.failed e) (.failed e')
  | outOfFuel : Stop.Matches C .outOfFuel .outOfFuel

/-! ### Operators -/

/-- Values that match, or errors that do. -/
inductive Except.Matches (C : Correspondence) (P : α → β → Prop) :
    Except RuntimeError α → Except RuntimeError β → Prop
  | ok {a : α} {b : β} : P a b → Except.Matches C P (.ok a) (.ok b)
  | error {e e' : RuntimeError} : e.Matches C e' → Except.Matches C P (.error e) (.error e')

namespace Value

variable {op op' : Token} {v v' w w' : Value}

/-- An operator in front works on operands that match, or objects to both of them. -/
theorem unary_matches (hop : C.token .unary op op') (hv : v.Matches C v') :
    Except.Matches C (Value.Matches C) (unary op v) (unary op' v') := by
  have hlexeme : (invalidOperator op).cause = (invalidOperator op').cause :=
    congrArg RuntimeError.Cause.invalidOperator (C.lexeme_eq hop)
  unfold unary
  -- Operators that correspond have the same kind, so the same branch is taken.
  rw [← C.kind_eq hop]
  split
  · rw [hv.isTruthy_eq]
    exact .ok (.bool _)
  · next hk =>
    have herror : Except.Matches C (Value.Matches C) (.error ⟨op, .operandMustBeNumber⟩)
        (.error ⟨op', .operandMustBeNumber⟩) :=
      .error ⟨rfl, .unary, hop, fun _ => ⟨rfl, hk⟩⟩
    cases hv with
    | number x => exact .ok (.number _)
    | _ => exact herror
  · next hbang hminus =>
    refine .error ⟨hlexeme, .unary, hop, fun hfits => ?_⟩
    -- No other token is a unary operator.
    have hfits : Grammar.isUnaryOperator op.kind = true := hfits
    unfold Grammar.isUnaryOperator at hfits
    split at hfits
    · next hk => exact absurd hk hbang
    · next hk => exact absurd hk hminus
    · cases hfits

/-- Each binary operator has a meaning. -/
theorem binary_cases {k : Token.Kind} (h : Place.binary.fits k = true) :
    k = .symbol .equalEqual ∨ k = .symbol .bangEqual ∨ k = .symbol .plus ∨
      ∃ s, k = .symbol s ∧ (arithmetic? s).isSome = true := by
  cases k with
  | symbol s =>
    have hs : Place.binary.fits (.symbol s) = true →
        s = .equalEqual ∨ s = .bangEqual ∨ s = .plus ∨ (arithmetic? s).isSome = true := by
      cases s <;> decide
    rcases hs h with rfl | rfl | rfl | hs
    · exact .inl rfl
    · exact .inr (.inl rfl)
    · exact .inr (.inr (.inl rfl))
    · exact .inr (.inr (.inr ⟨s, rfl, hs⟩))
  | _ => cases h

/-- The operators that take two numbers do not work on anything else. -/
theorem arithmetic_matches {operation : Float → Float → Value}
    (hoperation : ∀ x y, (operation x y).Matches C (operation x y)) {e e' : RuntimeError}
    (he : e.Matches C e') : v.Matches C v' → w.Matches C w' →
    Except.Matches C (Value.Matches C)
      (match v, w with
      | .number x, .number y => .ok (operation x y)
      | _, _ => .error e)
      (match v', w' with
      | .number x, .number y => .ok (operation x y)
      | _, _ => .error e') := by
  intro hv hw
  -- Values that match are numbers on both sides, and then the same ones, or on neither.
  cases hv with
  | number x =>
    cases hw with
    | number y => exact .ok (hoperation x y)
    | _ => exact .error he
  | _ => exact .error he

/-- The operators between numbers, whose results match themselves. -/
theorem arithmetic?_cases {s : Symbol} {operation : Float → Float → Value}
    (h : arithmetic? s = some operation) :
    (s = .minus ∨ s = .star ∨ s = .slash ∨ s = .greater ∨ s = .greaterEqual ∨ s = .less ∨
      s = .lessEqual) ∧ ∀ x y, (operation x y).Matches C (operation x y) := by
  cases s <;> cases h <;> exact ⟨by decide, fun x y => by constructor⟩

/-- An operator between two operands works on operands that match, or objects to both pairs. -/
theorem binary_matches (hop : C.token .binary op op') (hv : v.Matches C v')
    (hw : w.Matches C w') :
    Except.Matches C (Value.Matches C) (binary op v w) (binary op' v' w') := by
  have hlexeme : (invalidOperator op).cause = (invalidOperator op').cause :=
    congrArg RuntimeError.Cause.invalidOperator (C.lexeme_eq hop)
  unfold binary
  rw [← C.kind_eq hop]
  -- The cases are equality, sums, the operators between numbers and tokens that are no operator.
  split
  · rw [hv.equal_eq hw]
    exact .ok (.bool _)
  · rw [hv.equal_eq hw]
    exact .ok (.bool _)
  · next hk =>
    have herror : Except.Matches C (Value.Matches C)
        (.error ⟨op, .operandsMustBeNumbersOrStrings⟩)
        (.error ⟨op', .operandsMustBeNumbersOrStrings⟩) :=
      .error ⟨rfl, .binary, hop, fun _ => ⟨rfl, hk⟩⟩
    cases hv with
    | number x =>
      cases hw with
      | number y => exact .ok (.number _)
      | _ => exact herror
    | string s =>
      cases hw with
      | string t => exact .ok (.string _)
      | _ => exact herror
    | _ => exact herror
  · next s hequal hbang hplus hk =>
    split
    · next hnone =>
      refine .error ⟨hlexeme, .binary, hop, fun hfits => ?_⟩
      rcases binary_cases hfits with h | h | h | ⟨s', h, hs'⟩
      · exact hequal (Token.Kind.symbol.inj (hk.symm.trans h))
      · exact hbang (Token.Kind.symbol.inj (hk.symm.trans h))
      · exact hplus (Token.Kind.symbol.inj (hk.symm.trans h))
      · obtain rfl : s = s' := Token.Kind.symbol.inj (hk.symm.trans h)
        rw [hnone] at hs'
        cases hs'
    · next operation hsome =>
      -- Both sides have two numbers and the same result, or fail at the operator.
      obtain ⟨hs, hoperation⟩ := arithmetic?_cases (C := C) hsome
      have herror : RuntimeError.Matches C ⟨op, .operandsMustBeNumbers⟩
          ⟨op', .operandsMustBeNumbers⟩ := by
        refine ⟨rfl, .binary, hop, fun _ => ⟨rfl, ?_⟩⟩
        rw [hk]
        simpa using hs
      exact arithmetic_matches hoperation herror hv hw
  · next hequal hbang hplus hsymbol =>
    refine .error ⟨hlexeme, .binary, hop, fun hfits => ?_⟩
    rcases binary_cases hfits with h | h | h | ⟨s, h, -⟩
    · exact hequal h
    · exact hbang h
    · exact hplus h
    · exact hsymbol s h

/-- Whether the left operand decides depends on its truth and on the kind of the operator. -/
theorem decides?_eq (hop : C.token .logical op op') (hv : v.Matches C v') :
    v.decides? op = v'.decides? op' := by
  rw [decides?, decides?, C.kind_eq hop, hv.isTruthy_eq]

/-- A token that decides nothing is neither `and` nor `or`, so nothing is claimed of its place. -/
theorem invalidOperator_matches (hop : C.token .logical op op') (h : v.decides? op = none) :
    (invalidOperator op).Matches C (invalidOperator op') := by
  have hlexeme : (invalidOperator op).cause = (invalidOperator op').cause :=
    congrArg RuntimeError.Cause.invalidOperator (C.lexeme_eq hop)
  refine ⟨hlexeme, .logical, hop, fun hfits => ?_⟩
  have hfits : (op.kind == .keyword .and_ || op.kind == .keyword .or_) = true := hfits
  rcases Bool.or_eq_true_iff.1 hfits with hk | hk
  · rw [decides?, eq_of_beq hk] at h
    cases h
  · rw [decides?, eq_of_beq hk] at h
    cases h

/-- The clock shows the same, or fails in the same way. -/
theorem reading_matches {paren paren' : Token}
    (h : RuntimeError.Matches C ⟨paren, .native .clock⟩ ⟨paren', .native .clock⟩)
    (seconds : Float) :
    Except.Matches C (Value.Matches C) (reading paren seconds) (reading paren' seconds) := by
  unfold reading
  split
  · exact .error h
  · exact .ok (.number seconds)

end Value

/-! ### Machines and runs -/

/-- Machines with environments that match, and the same otherwise. -/
structure Machine.Matches (C : Correspondence) (m m' : Machine) : Prop where
  env : m.env.Matches C m'.env
  rest_eq : m' = { m with env := m'.env }

/-- The same way to end, up to tokens: with values that match in the sense of `P`. -/
inductive Result.Matches (C : Correspondence) (P : α → β → Prop) :
    EStateM.Result Stop Machine α → EStateM.Result Stop Machine β → Prop
  | ok {a : α} {b : β} {m m' : Machine} : P a b → m.Matches C m' →
      Result.Matches C P (.ok a m) (.ok b m')
  | error {stop stop' : Stop} {m m' : Machine} : stop.Matches C stop' → m.Matches C m' →
      Result.Matches C P (.error stop m) (.error stop' m')

/-- On machines that match, the runs end in the same way. -/
def Run.Matches (C : Correspondence) (P : α → β → Prop) (r : Run α) (r' : Run β) : Prop :=
  ∀ m m', m.Matches C m' → Result.Matches C P (r m) (r' m')

namespace Run.Matches

variable {P : α → β → Prop} {Q : γ → δ → Prop} {r : Run α} {r' : Run β}

theorem pure {a : α} {b : β} (h : P a b) : Run.Matches C P (Pure.pure a) (Pure.pure b) :=
  fun _ _ hm => .ok h hm

theorem fail {e e' : RuntimeError} (h : e.Matches C e') :
    Run.Matches C P (Run.fail e) (Run.fail e') :=
  fun _ _ hm => .error (.failed h) hm

theorem exhausted : Run.Matches C P Run.exhausted Run.exhausted :=
  fun _ _ hm => .error .outOfFuel hm

/-- A value that is given matches, or an error does. -/
theorem ofExcept {x : Except RuntimeError α} {x' : Except RuntimeError β}
    (h : Except.Matches C P x x') : Run.Matches C P (Run.ofExcept x) (Run.ofExcept x') := by
  cases h with
  | ok h => exact pure h
  | error h => exact fail h

/-- A second part starts with values that match, on machines that match. -/
theorem bind {f : α → Run γ} {f' : β → Run δ} (h : Run.Matches C P r r')
    (hf : ∀ a b, P a b → Run.Matches C Q (f a) (f' b)) : Run.Matches C Q (r >>= f) (r' >>= f') := by
  intro m m' hm
  have hfirst := h m m' hm
  rw [bind_eq, bind_eq]
  generalize r m = x at hfirst
  generalize r' m' = x' at hfirst
  cases hfirst with
  | ok hab hn => exact hf _ _ hab _ _ hn
  | error hstop hn => exact .error hstop hn

/-- A choice by the same test. -/
theorem ite {c c' : Prop} [Decidable c] [Decidable c'] {u : Run α} {u' : Run β} (hc : c ↔ c')
    (h : Run.Matches C P r r') (hu : Run.Matches C P u u') :
    Run.Matches C P (if c then r else u) (if c' then r' else u') := by
  by_cases h' : c
  · rwa [if_pos h', if_pos (hc.1 h')]
  · rwa [if_neg h', if_neg fun h'' => h' (hc.2 h'')]

/-- Runs that look at the machine first. -/
theorem of_get {f : Machine → Run α} {f' : Machine → Run β}
    (h : ∀ m m', m.Matches C m' → Run.Matches C P (f m) (f' m')) :
    Run.Matches C P (MonadState.get >>= f) (MonadState.get >>= f') :=
  fun m m' hm => h m m' hm m m' hm

/-- A frame is pushed on both sides, and popped on both. -/
theorem inNewFrame (h : Run.Matches C P r r') :
    Run.Matches C P (Run.inNewFrame r) (Run.inNewFrame r') := by
  rintro m m' ⟨henv, hm'⟩
  have hinside := h { m with env := m.env.push } { m' with env := m'.env.push }
    ⟨henv.push, by rw [hm']⟩
  rw [inNewFrame_eq, inNewFrame_eq]
  generalize r { m with env := m.env.push } = x at hinside
  generalize r' { m' with env := m'.env.push } = x' at hinside
  cases hinside with
  | ok hab hn => exact .ok hab ⟨hn.env.pop, by rw [hn.rest_eq]⟩
  | error hstop hn => exact .error hstop ⟨hn.env.pop, by rw [hn.rest_eq]⟩

/-- The depth is the same on both sides, as is all but the environments. -/
theorem inCall (h : Run.Matches C P r r') : Run.Matches C P (Run.inCall r) (Run.inCall r') := by
  rintro m m' ⟨henv, hm'⟩
  have hinside := h { m with depth := m.depth + 1 } { m' with depth := m'.depth + 1 }
    ⟨henv, by rw [hm']⟩
  rw [inCall_eq, inCall_eq]
  generalize r { m with depth := m.depth + 1 } = x at hinside
  generalize r' { m' with depth := m'.depth + 1 } = x' at hinside
  cases hinside with
  | ok hab hn => exact .ok hab ⟨hn.env, by rw [hn.rest_eq]⟩
  | error hstop hn => exact .error hstop ⟨hn.env, by rw [hn.rest_eq]⟩

end Run.Matches

namespace Run

variable {name name' keyword keyword' paren paren' : Token} {v v' : Value}

/-- A name that is not bound is an error that fits a name. -/
theorem undefined_matches (hname : C.token .variable name name') :
    (Environment.undefined name).Matches C (Environment.undefined name') := by
  have hcause : (Environment.undefined name).cause = (Environment.undefined name').cause :=
    congrArg RuntimeError.Cause.undefinedVariable (C.lexeme_eq hname)
  exact ⟨hcause, .variable, hname, fun hk => ⟨rfl, eq_of_beq hk, rfl⟩⟩

/-- A name is bound to values that match, or to none. -/
theorem matches_get (hname : C.token .variable name name') :
    Run.Matches C (Value.Matches C) (Run.get name) (Run.get name') := by
  refine .of_get fun m m' hm => .ofExcept ?_
  have hvalue := hm.env.lookup name.lexeme
  rw [Environment.get, Environment.get, ← C.lexeme_eq hname]
  generalize m.env.lookup name.lexeme = value at hvalue
  generalize m'.env.lookup name.lexeme = value' at hvalue
  cases hvalue with
  | none => exact .error (undefined_matches hname)
  | some hv => exact .ok hv

theorem matches_assign (hname : C.token .variable name name') (hv : v.Matches C v') :
    Run.Matches C (fun _ _ => True) (Run.assign name v) (Run.assign name' v') := by
  refine .of_get fun m m' hm => ?_
  -- The name is bound on both machines or on neither.
  rcases hm.env.assign_cases (C.lexeme_eq hname) hv with
    ⟨env, env', hok, hok', henv⟩ | ⟨herror, herror'⟩
  · rw [hok, hok']
    intro n n' hn
    exact .ok trivial ⟨henv, by rw [hn.rest_eq]⟩
  · rw [herror, herror']
    exact .bind (P := fun _ _ => False) (.fail (undefined_matches hname)) fun _ _ h => h.elim

/-- A definition binds values that match, and corresponding names are spelled alike. -/
theorem matches_define (hname : C.token .declared name name') (hv : v.Matches C v') :
    Run.Matches C (fun _ _ => True) (Run.define name v) (Run.define name' v') := by
  intro m m' hm
  refine .ok trivial ⟨?_, ?_⟩
  · rw [← C.lexeme_eq hname]
    exact hm.env.define name.lexeme hv
  · rw [hm.rest_eq]

/-- Parameters are bound to values one by one, on both sides. -/
theorem matches_defineAll {names names' : List Token} {values values' : List Value}
    (hnames : List.Forall₂ (C.token .declared) names names')
    (hvalues : List.Forall₂ (Value.Matches C) values values') :
    Run.Matches C (fun _ _ => True) (Run.defineAll names values)
      (Run.defineAll names' values') := by
  -- The lists are equally long on both sides, so the binding stops at the same point.
  induction hnames generalizing values values' with
  | nil => exact .pure trivial
  | cons hname _ ih =>
    cases hvalues with
    | nil => exact .pure trivial
    | cons hv hvalues => exact (matches_define hname hv).bind fun _ _ _ => ih hvalues

/-- Values that match are printed as the same text, so either print fails if the other does. -/
theorem matches_print (hkeyword : C.token .print keyword keyword') (hv : v.Matches C v') :
    Run.Matches C (fun _ _ => True) (Run.print keyword v) (Run.print keyword' v') := by
  refine .bind (P := Eq) (fun m m' hm => ?_) fun complete complete' hcomplete => ?_
  · rw [← hv.text_eq, hm.rest_eq]
    exact .ok rfl ⟨hm.env, rfl⟩
  · refine .ite (by rw [hcomplete]) (.pure trivial) (.fail ?_)
    exact ⟨rfl, .print, hkeyword, fun hk => ⟨rfl, eq_of_beq hk⟩⟩

/-- The clock is read at the same time. -/
theorem matches_readClock (settings : Settings) :
    Run.Matches C Eq (Run.readClock settings) (Run.readClock settings) := by
  intro m m' hm
  rw [hm.rest_eq]
  exact .ok rfl ⟨hm.env, rfl⟩

/-- The pauses are of the same length. -/
theorem matches_pause (seconds : Float) :
    Run.Matches C (fun _ _ => True) (Run.pause seconds) (Run.pause seconds) := by
  intro m m' hm
  rw [hm.rest_eq]
  exact .ok trivial ⟨hm.env, rfl⟩

/-- The errors of a call fit the parenthesis that closes it. -/
theorem callError_matches (hparen : C.token .call paren paren') {cause : RuntimeError.Cause}
    (hcause : cause = .notCallable ∨ cause = .stackOverflow ∨ (∃ n, cause = .native n) ∨
      ∃ expected given, cause = .arity expected given) :
    RuntimeError.Matches C ⟨paren, cause⟩ ⟨paren', cause⟩ := by
  refine ⟨rfl, .call, hparen, fun hk => ?_⟩
  rcases hcause with rfl | rfl | ⟨n, rfl⟩ | ⟨expected, given, rfl⟩ <;> exact ⟨rfl, eq_of_beq hk⟩

/-- Native functions look at numbers only, and these are the same. -/
theorem matches_callNative (settings : Settings) (n : Native) (hparen : C.token .call paren paren')
    {values values' : List Value} (h : List.Forall₂ (Value.Matches C) values values') :
    Run.Matches C (Value.Matches C) (callNative settings n paren values)
      (callNative settings n paren' values') := by
  have herror : RuntimeError.Matches C ⟨paren, .native n⟩ ⟨paren', .native n⟩ :=
    callError_matches hparen (.inr (.inr (.inl ⟨n, rfl⟩)))
  have hfail : Run.Matches C (Value.Matches C) (Run.fail ⟨paren, .native n⟩)
      (Run.fail ⟨paren', .native n⟩) := .fail herror
  -- Apart from the clock, a native function takes one number and objects to all else.
  cases n with
  | clock =>
    refine (matches_readClock settings).bind fun seconds seconds' hseconds => .ofExcept ?_
    rw [← hseconds]
    exact Value.reading_matches herror seconds
  | sleep =>
    cases h with
    | nil => exact hfail
    | cons hv hrest =>
      cases hrest with
      | cons => cases hv <;> exact hfail
      | nil =>
        cases hv with
        | number x =>
          exact .ite Iff.rfl ((matches_pause x).bind fun _ _ _ => .pure (.number x)) hfail
        | _ => exact hfail
  | sqrt =>
    cases h with
    | nil => exact hfail
    | cons hv hrest =>
      cases hrest with
      | cons => cases hv <;> exact hfail
      | nil =>
        cases hv with
        | number x => exact .pure (.number _)
        | _ => exact hfail

end Run

/-! ### Programs -/

/-- The same way to end a statement, with values that match. -/
inductive Flow.Matches (C : Correspondence) : Flow → Flow → Prop
  | normal : Flow.Matches C .normal .normal
  | return {v v' : Value} : v.Matches C v' → Flow.Matches C (.return v) (.return v')

/-- Calls that end alike give values that match. -/
theorem Flow.Matches.result {flow flow' : Flow} (h : flow.Matches C flow') :
    flow.result.Matches C flow'.result := by
  cases h with
  | normal => exact .nil
  | «return» hv => exact hv

variable {settings : Settings} {fuel : Nat}

/-- With some fuel, runs of trees that match do. -/
structure RunsMatch (C : Correspondence) (settings : Settings) (fuel : Nat) : Prop where
  evaluate {e e' : Expr} : e.Matches C e' →
    Run.Matches C (Value.Matches C) (evaluate settings fuel e) (evaluate settings fuel e')
  evaluateAll {es es' : List Expr} : Expr.MatchesAll C es es' →
    Run.Matches C (List.Forall₂ (Value.Matches C)) (evaluateAll settings fuel es)
      (evaluateAll settings fuel es')
  call {callee callee' : Value} {paren paren' : Token} {values values' : List Value} :
    callee.Matches C callee' → C.token .call paren paren' →
    List.Forall₂ (Value.Matches C) values values' →
    Run.Matches C (Value.Matches C) (call settings fuel callee paren values)
      (call settings fuel callee' paren' values')
  execute {s s' : Stmt Nat} : s.Matches C s' →
    Run.Matches C (Flow.Matches C) (execute settings fuel s) (execute settings fuel s')
  executeBlock {body body' : List (Stmt Nat)} : Stmt.MatchesAll C body body' →
    Run.Matches C (Flow.Matches C) (executeBlock settings fuel body)
      (executeBlock settings fuel body')
  loop {c c' : Expr} {s s' : Stmt Nat} : c.Matches C c' → s.Matches C s' →
    Run.Matches C (Flow.Matches C) (loop settings fuel c s) (loop settings fuel c' s')

/-- Without fuel both runs stop at once. -/
theorem runsMatch_zero : RunsMatch C settings 0 where
  evaluate _ := .exhausted
  evaluateAll _ := .exhausted
  call _ _ _ := .exhausted
  execute _ := .exhausted
  executeBlock _ := .exhausted
  loop _ _ := .exhausted

namespace RunsMatch

variable (h : RunsMatch C settings fuel)

include h

/-- One level of evaluation, with one case for each kind of expression. -/
theorem evaluate_succ {e e' : Expr} (he : e.Matches C e') :
    Run.Matches C (Value.Matches C) (Lox.evaluate settings (fuel + 1) e)
      (Lox.evaluate settings (fuel + 1) e') := by
  cases he with
  | constant c => exact .pure (.ofConstant c)
  | group he => exact h.evaluate he
  | unary hop he =>
    exact (h.evaluate he).bind fun _ _ hv => .ofExcept (Value.unary_matches hop hv)
  | binary hop hl hr =>
    exact (h.evaluate hl).bind fun _ _ hv => (h.evaluate hr).bind fun _ _ hw =>
      .ofExcept (Value.binary_matches hop hv hw)
  | @logical l l' r r' op op' hop hl hr =>
    refine (h.evaluate hl).bind fun v v' hv => ?_
    -- The left operand decides in both or in neither.
    have hdecides := Value.decides?_eq hop hv
    cases hdecided : v.decides? op with
    | none =>
      rw [hdecided] at hdecides
      rw [← hdecides]
      exact .fail (Value.invalidOperator_matches hop hdecided)
    | some decided =>
      rw [hdecided] at hdecides
      rw [← hdecides]
      cases decided with
      | true => exact .pure hv
      | false => exact h.evaluate hr
  | name hn => exact Run.matches_get hn
  | assign hn he =>
    exact (h.evaluate he).bind fun _ _ hv => (Run.matches_assign hn hv).bind fun _ _ _ => .pure hv
  | call hparen hcallee harguments =>
    exact (h.evaluate hcallee).bind fun _ _ hv => (h.evaluateAll harguments).bind fun _ _ hvalues =>
      h.call hv hparen hvalues

/-- Lists of expressions are as long as one another. -/
theorem evaluateAll_succ {es es' : List Expr} (hes : Expr.MatchesAll C es es') :
    Run.Matches C (List.Forall₂ (Value.Matches C)) (Lox.evaluateAll settings (fuel + 1) es)
      (Lox.evaluateAll settings (fuel + 1) es') := by
  cases hes with
  | nil => exact .pure .nil
  | cons he hes =>
    exact (h.evaluate he).bind fun _ _ hv => (h.evaluateAll hes).bind fun _ _ hvalues =>
      .pure (.cons hv hvalues)

/-- Calls that match pass the same checks. -/
theorem call_succ {callee callee' : Value} {paren paren' : Token} {values values' : List Value}
    (hcallee : callee.Matches C callee') (hparen : C.token .call paren paren')
    (hvalues : List.Forall₂ (Value.Matches C) values values') :
    Run.Matches C (Value.Matches C) (Lox.call settings (fuel + 1) callee paren values)
      (Lox.call settings (fuel + 1) callee' paren' values') := by
  -- There are as many arguments on both sides, so the numbers are wrong in both calls or in none.
  have harity {n n' : Nat} (hn : n = n') {r r' : Run Value}
      (hr : Run.Matches C (Value.Matches C) r r') : Run.Matches C (Value.Matches C)
        (if values.length ≠ n then Run.fail ⟨paren, .arity n values.length⟩ else r)
        (if values'.length ≠ n' then Run.fail ⟨paren', .arity n' values'.length⟩ else r') := by
    rw [← hn, hvalues.length_eq]
    exact .ite Iff.rfl (.fail (Run.callError_matches hparen (.inr (.inr (.inr ⟨_, _, rfl⟩))))) hr
  have hfail : Run.Matches C (Value.Matches C) (Run.fail ⟨paren, .notCallable⟩)
      (Run.fail ⟨paren', .notCallable⟩) := .fail (Run.callError_matches hparen (.inl rfl))
  cases hcallee with
  | native n => exact harity rfl (Run.matches_callNative settings n hparen hvalues)
  | @function f f' hf =>
    have hbody : Run.Matches C (Flow.Matches C)
        (do
          Run.defineAll f.parameters values
          Lox.executeBlock settings fuel f.body)
        (do
          Run.defineAll f'.parameters values'
          Lox.executeBlock settings fuel f'.body) :=
      (Run.matches_defineAll hf.parameters hvalues).bind fun _ _ _ => h.executeBlock hf.body
    refine harity hf.parameters.length_eq (.of_get fun m m' hm => .ite ?_ ?_ ?_)
    · -- Both machines are equally deep in calls.
      rw [hm.rest_eq]
    · exact .fail (Run.callError_matches hparen (.inr (.inl rfl)))
    · exact hbody.inNewFrame.inCall.bind fun _ _ hflow => .pure hflow.result
  | _ => exact hfail

/-- One level of execution, with one case for each kind of statement. -/
theorem execute_succ {s s' : Stmt Nat} (hs : s.Matches C s') :
    Run.Matches C (Flow.Matches C) (Lox.execute settings (fuel + 1) s)
      (Lox.execute settings (fuel + 1) s') := by
  cases hs with
  | expression he => exact (h.evaluate he).bind fun _ _ _ => .pure .normal
  | print hkeyword he =>
    exact (h.evaluate he).bind fun _ _ hv => (Run.matches_print hkeyword hv).bind fun _ _ _ =>
      .pure .normal
  | «variable» hn he =>
    exact (h.evaluate he).bind fun _ _ hv => (Run.matches_define hn hv).bind fun _ _ _ =>
      .pure .normal
  | block hbody => exact .inNewFrame (h.executeBlock hbody)
  | ifThen hc hyes =>
    exact (h.evaluate hc).bind fun _ _ hv =>
      .ite (by rw [hv.isTruthy_eq]) (h.execute hyes) (.pure .normal)
  | ifElse hc hyes hno =>
    exact (h.evaluate hc).bind fun _ _ hv =>
      .ite (by rw [hv.isTruthy_eq]) (h.execute hyes) (h.execute hno)
  | «while» hc hbody => exact h.loop hc hbody
  | @function id n n' parameters parameters' body body' hn hparameters hbody hfunction =>
    -- A function is closed over nothing but its declaration, so functions match if these do.
    have hf : Function.Matches C ⟨id, n, parameters, body⟩ ⟨id, n', parameters', body'⟩ :=
      ⟨rfl, hn, hparameters, hbody, hfunction⟩
    exact (Run.matches_define hn (.function hf)).bind fun _ _ _ => .pure .normal
  | «return» hkeyword he => exact (h.evaluate he).bind fun _ _ hv => .pure (.return hv)

/-- Both blocks go on, or both stop at a `return`. -/
theorem executeBlock_succ {body body' : List (Stmt Nat)} (hbody : Stmt.MatchesAll C body body') :
    Run.Matches C (Flow.Matches C) (Lox.executeBlock settings (fuel + 1) body)
      (Lox.executeBlock settings (fuel + 1) body') := by
  cases hbody with
  | nil => exact .pure .normal
  | cons hs hrest =>
    refine (h.execute hs).bind fun flow flow' hflow => ?_
    cases hflow with
    | normal => exact h.executeBlock hrest
    | «return» hv => exact .pure (.return hv)

/-- Both loops make another turn, or both end. -/
theorem loop_succ {c c' : Expr} {s s' : Stmt Nat} (hc : c.Matches C c') (hs : s.Matches C s') :
    Run.Matches C (Flow.Matches C) (Lox.loop settings (fuel + 1) c s)
      (Lox.loop settings (fuel + 1) c' s') := by
  refine (h.evaluate hc).bind fun _ _ hv => .ite (by rw [hv.isTruthy_eq]) ?_ (.pure .normal)
  refine (h.execute hs).bind fun flow flow' hflow => ?_
  cases hflow with
  | normal => exact h.loop hc hs
  | «return» hv => exact .pure (.return hv)

end RunsMatch

/-- **Runs of trees that match do the same**, up to tokens that correspond. -/
theorem runsMatch (C : Correspondence) (settings : Settings) (fuel : Nat) :
    RunsMatch C settings fuel := by
  induction fuel with
  | zero => exact runsMatch_zero
  | succ fuel ih =>
    exact ⟨ih.evaluate_succ, ih.evaluateAll_succ, ih.call_succ, ih.execute_succ,
      ih.executeBlock_succ, ih.loop_succ⟩

/-- Programs that match do the same. -/
theorem matches_executeAll (settings : Settings) (fuel : Nat) {body body' : List (Stmt Nat)}
    (h : Stmt.MatchesAll C body body') :
    Run.Matches C (fun _ _ => True) (executeAll settings fuel body)
      (executeAll settings fuel body') := by
  match h with
  | .nil => exact .pure trivial
  | .cons hs hrest =>
    exact ((runsMatch C settings fuel).execute hs).bind fun _ _ _ =>
      matches_executeAll settings fuel hrest

end Lox
