import Lox.Proofs.Evaluation.Correspondence

namespace Lox

/-!
# Runs do not look at lines

A run looks at the kinds and the spellings of tokens only. So moving the tokens of a program to
other lines, and with them those of the functions that are already bound, is the same before a run
and afterwards: what it does to the machine is the same, and an error is the same at a token that
has been moved.

* `Token.IsMove f` — the function `f` on tokens changes lines only.
* `Value.relabel`, `Environment.relabel`, `Machine.relabel`, `RuntimeError.relabel` — the change in
  what a run works on.
* `Correspondence.moved f` — tokens correspond to those that `f` makes of them.
* `executeAll_relabelAll` — running a program with other tokens.
-/

/-- A function on tokens that keeps what a run looks at. -/
structure Token.IsMove (f : Token → Token) : Prop where
  kind_eq (token : Token) : (f token).kind = token.kind
  lexeme_eq (token : Token) : (f token).lexeme = token.lexeme

/-- Moving all tokens to one line changes lines only. -/
theorem Token.isMove_onLine (line : Nat) : Token.IsMove (Token.onLine line) :=
  ⟨fun _ => rfl, fun _ => rfl⟩

/-! ### Other tokens in what a run works on -/

section

variable (f : Token → Token)

/-- Applies a function to the tokens in a value. -/
def Value.relabel : Value → Value
  | .callable (.function g) => .callable (.function (g.relabel f))
  | v => v

/-- Applies a function to the tokens in the values of a scope. -/
def Frame.relabel (frame : Frame) : Frame :=
  { frame with bindings := frame.bindings.map fun entry => (entry.1, entry.2.relabel f) }

/-- Applies a function to the tokens in the values of an environment. -/
def Environment.relabel (env : Environment) : Environment :=
  { env with frames := env.frames.map (Frame.relabel f) }

/-- Applies a function to the tokens in the environment of a machine. -/
def Machine.relabel (m : Machine) : Machine := { m with env := m.env.relabel f }

/-- Applies a function to the token of an error. -/
def RuntimeError.relabel (e : RuntimeError) : RuntimeError := { e with token := f e.token }

/-- Applies a function to the token of an error that stops a run. -/
def Stop.relabel : Stop → Stop
  | .failed e => .failed (e.relabel f)
  | .outOfFuel => .outOfFuel

/-- Applies a function to the tokens in the result of a program. -/
def Run.relabelResult :
    EStateM.Result Stop Machine Unit → EStateM.Result Stop Machine Unit
  | .ok a m => .ok a (m.relabel f)
  | .error stop m => .error (stop.relabel f) (m.relabel f)

end

variable {f : Token → Token}

theorem Run.isFinal_relabelResult {x : EStateM.Result Stop Machine Unit} :
    IsFinal (relabelResult f x) ↔ IsFinal x := by
  cases x with
  | ok => exact Iff.rfl
  | error stop => cases stop <;> exact Iff.rfl

/-! ### Trees that match up to a move -/

/-- Tokens correspond to those that a function makes of them. Nothing more is asked of
    functions. -/
def Correspondence.moved (f : Token → Token) (hf : Token.IsMove f) : Correspondence where
  token _ t t' := t' = f t
  function _ _ := True
  kind_eq h := by rw [h, hf.kind_eq]
  lexeme_eq h := by rw [h, hf.lexeme_eq]

variable {hf : Token.IsMove f}

mutual

/-- An expression that matches another up to a move is made from it by the move. -/
theorem Expr.Matches.eq_relabel {e e' : Expr} (h : e.Matches (.moved f hf) e') :
    e' = e.relabel f := by
  match h with
  | .constant c => rfl
  | .group he => rw [he.eq_relabel, Expr.relabel]
  | .unary hop he => rw [hop, he.eq_relabel, Expr.relabel]
  | .binary hop hl hr => rw [hop, hl.eq_relabel, hr.eq_relabel, Expr.relabel]
  | .logical hop hl hr => rw [hop, hl.eq_relabel, hr.eq_relabel, Expr.relabel]
  | .name hn => rw [hn, Expr.relabel]
  | .assign hn he => rw [hn, he.eq_relabel, Expr.relabel]
  | .call hparen hcallee harguments =>
    rw [hparen, hcallee.eq_relabel, harguments.eq_relabelAll, Expr.relabel]

/-- Arguments that match others up to a move are made from them by the move. -/
theorem Expr.MatchesAll.eq_relabelAll {es es' : List Expr}
    (h : Expr.MatchesAll (.moved f hf) es es') : es' = Expr.relabelAll f es := by
  match h with
  | .nil => rfl
  | .cons he hes => rw [he.eq_relabel, hes.eq_relabelAll, Expr.relabelAll]

end

/-- Tokens correspond one by one just if the second ones are the first ones, moved. -/
theorem forall₂_moved_iff {place : Place} {tokens tokens' : List Token} :
    List.Forall₂ ((Correspondence.moved f hf).token place) tokens tokens' ↔
      tokens' = tokens.map f := by
  show List.Forall₂ (fun t t' => t' = f t) tokens tokens' ↔ _
  constructor
  · intro h
    induction h with
    | nil => rfl
    | cons ht _ ih => rw [ht, ih, List.map_cons]
  · rintro rfl
    exact List.forall₂_map_right_iff.2 (List.forall₂_same.2 fun _ _ => rfl)

mutual

/-- A statement that matches another up to a move is made from it by the move. -/
theorem Stmt.Matches.eq_relabel {s s' : Stmt Nat} (h : s.Matches (.moved f hf) s') :
    s' = s.relabel f := by
  match h with
  | .expression he => rw [he.eq_relabel, Stmt.relabel]
  | .print hkeyword he => rw [hkeyword, he.eq_relabel, Stmt.relabel]
  | .variable hn he => rw [hn, he.eq_relabel, Stmt.relabel]
  | .block hbody => rw [hbody.eq_relabelAll, Stmt.relabel]
  | .ifThen hc hyes => rw [hc.eq_relabel, hyes.eq_relabel, Stmt.relabel]
  | .ifElse hc hyes hno => rw [hc.eq_relabel, hyes.eq_relabel, hno.eq_relabel, Stmt.relabel]
  | .while hc hbody => rw [hc.eq_relabel, hbody.eq_relabel, Stmt.relabel]
  | .function hn hparameters hbody _ =>
    rw [hn, forall₂_moved_iff.1 hparameters, hbody.eq_relabelAll, Stmt.relabel]
  | .return hkeyword he => rw [hkeyword, he.eq_relabel, Stmt.relabel]

/-- Statements that match others up to a move are made from them by the move. -/
theorem Stmt.MatchesAll.eq_relabelAll {body body' : List (Stmt Nat)}
    (h : Stmt.MatchesAll (.moved f hf) body body') : body' = Stmt.relabelAll f body := by
  match h with
  | .nil => rfl
  | .cons hs hrest => rw [hs.eq_relabel, hrest.eq_relabelAll, Stmt.relabelAll]

end

/-! ### Values, environments and machines that match up to a move -/

/-- Functions match up to a move just if the second one is the first one, moved. -/
theorem Function.matches_moved_iff {g g' : Function} :
    g.Matches (.moved f hf) g' ↔ g' = g.relabel f := by
  constructor
  · rintro ⟨hid, hname, hparameters, hbody, -⟩
    obtain ⟨id, name, parameters, body⟩ := g
    obtain ⟨id', name', parameters', body'⟩ := g'
    rw [Function.relabel, Function.mk.injEq]
    exact ⟨hid.symm, hname, forall₂_moved_iff.1 hparameters, hbody.eq_relabelAll⟩
  · rintro rfl
    exact ⟨rfl, rfl, forall₂_moved_iff.2 rfl,
      Stmt.matchesAll_relabelAll g.body (fun _ _ => rfl) fun _ _ => trivial, trivial⟩

/-- Values match up to a move just if the second one is the first one, moved. -/
theorem Value.matches_moved_iff {v v' : Value} :
    v.Matches (.moved f hf) v' ↔ v' = v.relabel f := by
  constructor
  · intro h
    cases h with
    | function hg =>
      rw [Function.matches_moved_iff.1 hg]
      rfl
    | _ => rfl
  · rintro rfl
    cases v with
    | nil => exact .nil
    | bool b => exact .bool b
    | number x => exact .number x
    | string s => exact .string s
    | callable c =>
      cases c with
      | native n => exact .native n
      | function g => exact .function (Function.matches_moved_iff.2 rfl)

/-- Scopes match up to a move just if the second one is the first one, with its values moved. -/
theorem Frame.matches_moved_iff {frame frame' : Frame} :
    frame.Matches (.moved f hf) frame' ↔ frame' = frame.relabel f := by
  -- The names stay, and the values match one by one.
  have hbindings {b b' : Bindings} : b.Matches (.moved f hf) b' ↔
      b' = b.map fun entry => (entry.1, entry.2.relabel f) := by
    constructor
    · intro h
      induction h with
      | nil => rfl
      | cons hentry _ ih =>
        rw [ih, List.map_cons]
        exact congrArg (· :: _) (Prod.ext hentry.1.symm (Value.matches_moved_iff.1 hentry.2))
    · rintro rfl
      exact List.forall₂_map_right_iff.2
        (List.forall₂_same.2 fun _ _ => ⟨rfl, Value.matches_moved_iff.2 rfl⟩)
  constructor
  · rintro ⟨hframe, hparent⟩
    obtain ⟨bindings', parent'⟩ := frame'
    rw [Frame.relabel, Frame.mk.injEq]
    exact ⟨hbindings.1 hframe, hparent.symm⟩
  · rintro rfl
    exact ⟨hbindings.2 rfl, rfl⟩

/-- Environments match up to a move just if the second one is the first one, with its values
    moved. -/
theorem Environment.matches_moved_iff {env env' : Environment} :
    env.Matches (.moved f hf) env' ↔ env' = env.relabel f := by
  constructor
  · intro h
    obtain ⟨frames', current'⟩ := env'
    rw [Environment.relabel, Environment.mk.injEq]
    -- The frames are compared by index, where both environments have one.
    refine ⟨Array.ext_getElem? fun i => ?_, h.current_eq.symm⟩
    have hframe := h.frames i
    rw [Array.getElem?_map]
    dsimp only at hframe
    generalize env.frames[i]? = frame at hframe
    generalize frames'[i]? = frame' at hframe
    cases hframe with
    | none => rfl
    | some hframe => exact congrArg some (Frame.matches_moved_iff.1 hframe)
  · rintro rfl
    refine ⟨fun i => ?_, (Array.size_map ..).symm, rfl⟩
    rw [Environment.relabel, Array.getElem?_map]
    cases env.frames[i]? with
    | none => exact .none
    | some frame => exact .some (Frame.matches_moved_iff.2 rfl)

/-- Machines match up to a move just if the environment of the second one is that of the first one,
    moved, and the rest is the same. -/
theorem Machine.matches_moved_iff {m m' : Machine} :
    m.Matches (.moved f hf) m' ↔ m' = m.relabel f := by
  constructor
  · rintro ⟨henv, hm'⟩
    rw [hm', Environment.matches_moved_iff.1 henv]
    rfl
  · rintro rfl
    exact ⟨Environment.matches_moved_iff.2 rfl, rfl⟩

/-! ### Runs -/

/-- A run that stops like another up to a move stops at the token that is moved, and for the same
    cause. -/
theorem Stop.Matches.eq_relabel {stop stop' : Stop} (h : stop.Matches (.moved f hf) stop') :
    stop' = stop.relabel f := by
  cases h with
  | @failed e e' he =>
    obtain ⟨place, htoken, -⟩ := he.token
    obtain ⟨token', cause'⟩ := e'
    obtain rfl : token' = f e.token := htoken
    obtain rfl : e.cause = cause' := he.cause_eq
    rfl
  | outOfFuel => rfl

/-- **Running a program with other tokens** is running it and putting the other tokens in
    afterwards, if these are of the same kind and spelling. -/
theorem executeAll_relabelAll (hf : Token.IsMove f) (settings : Settings) (fuel : Nat)
    (program : List (Stmt Nat)) (m : Machine) :
    executeAll settings fuel (Stmt.relabelAll f program) (m.relabel f) =
      Run.relabelResult f (executeAll settings fuel program m) := by
  have hprogram : Stmt.MatchesAll (.moved f hf) program (Stmt.relabelAll f program) :=
    Stmt.matchesAll_relabelAll program (fun _ _ => rfl) fun _ _ => trivial
  have hruns := matches_executeAll settings fuel hprogram m (m.relabel f)
    (Machine.matches_moved_iff.2 rfl)
  -- Results that match up to a move are made by the move, whether they are values or errors.
  generalize executeAll settings fuel program m = x at hruns
  generalize executeAll settings fuel (Stmt.relabelAll f program) (m.relabel f) = x' at hruns
  cases hruns with
  | ok _ hm => rw [Machine.matches_moved_iff.1 hm, Run.relabelResult]
  | error hstop hm => rw [Machine.matches_moved_iff.1 hm, hstop.eq_relabel, Run.relabelResult]

end Lox
