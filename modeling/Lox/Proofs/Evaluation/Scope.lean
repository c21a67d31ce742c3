import Lox.Proofs.Environment.Frames
import Lox.Proofs.Evaluation.Following
import Lox.Proofs.Grammar.Declared
import Lox.Session

namespace Lox

/-!
# Scopes around a run

Whatever a run does and however it ends, it leaves all scopes and calls that it has entered. In the
scopes that were open before, it binds names in the current one only, and only those that the
statement itself may bind there. All of this is one invariant, kept by each step and carried
through a run by induction on the fuel.

* `Run.after` — the machine on which a run ends, be it with a value, an error or for want of fuel.
* `Run.Keeps` — a run confined to given names, with its lemmas for steps, sequences and brackets.
* `keepsAll` — evaluation and execution are confined.
* `scopes_restored` — frames and depth of calls are the same before and after.
* `scopes_confined` — what becomes of the bindings.
-/

variable {α β : Type} {settings : Settings} {fuel : Nat} {names names' : List String}

open Environment (Confined SameFrames IsStack)

/-! ### Machines before and after a run -/

/-- The machine on which a run ends, however it ends. -/
def Run.after (r : Run α) (m : Machine) : Machine :=
  match r m with
  | .ok _ n => n
  | .error _ n => n

/-- The second machine is as deep in calls as the first one, and its environment is a stack that
    comes from the environment of the first one by a run confined to some names. -/
structure Machine.Confined (names : List String) (m m' : Machine) : Prop where
  env : Environment.Confined names m.env m'.env
  isStack : m'.env.IsStack
  depth : m'.depth = m.depth

namespace Machine.Confined

variable {m m' m'' : Machine}

theorem refl (names : List String) (h : m.env.IsStack) : Machine.Confined names m m :=
  ⟨.refl names m.env, h, rfl⟩

theorem trans (h : Machine.Confined names m m') (h' : Machine.Confined names m' m'') :
    Machine.Confined names m m'' :=
  ⟨h.env.trans h'.env, h'.isStack, h'.depth.trans h.depth⟩

/-- Further names may be allowed. -/
theorem mono (h : Machine.Confined names m m') (hnames : names ⊆ names') :
    Machine.Confined names' m m' :=
  ⟨h.env.mono hnames, h.isStack, h.depth⟩

end Machine.Confined

/-! ### Steps, sequences and brackets -/

namespace Run

/-- On every machine, the run is confined to the names. -/
def Keeps (names : List String) (r : Run α) : Prop :=
  ∀ m : Machine, m.env.IsStack → Machine.Confined names m (after r m)

/-- A sequence ends where its second part ends, or where its first part stops. -/
theorem after_bind (r : Run α) (f : α → Run β) (m : Machine) :
    after (r >>= f) m = match r m with
      | .ok a n => after (f a) n
      | .error _ n => n := by
  unfold after
  rw [bind_eq]
  cases r m <;> rfl

/-- A frame is pushed before the run and popped after it, however it ends. -/
theorem after_inNewFrame (r : Run α) (m : Machine) :
    after (inNewFrame r) m =
      let n := after r { m with env := m.env.push }
      { n with env := n.env.pop } := by
  unfold after inNewFrame
  cases r { m with env := m.env.push } <;> rfl

/-- The depth goes up before the run and down after it, however it ends. -/
theorem after_inCall (r : Run α) (m : Machine) :
    after (inCall r) m =
      let n := after r { m with depth := m.depth + 1 }
      { n with depth := n.depth - 1 } := by
  unfold after inCall
  cases r { m with depth := m.depth + 1 } <;> rfl

/-- On a machine without open calls, starting anew changes nothing. -/
theorem after_anew {r : Run α} {m : Machine} (h : m.depth = 0) : after (anew r) m = after r m := by
  unfold after
  rw [anew_eq r h]

/-- The machine on which a run ends that yields a value. -/
theorem after_eq_of_ok {r : Run α} {m n : Machine} {a : α} (h : r m = .ok a n) :
    after r m = n := by
  unfold after
  rw [h]

/-- The machine on which a run ends that stops. -/
theorem after_eq_of_error {r : Run α} {m n : Machine} {stop : Stop} (h : r m = .error stop n) :
    after r m = n := by
  unfold after
  rw [h]

namespace Keeps

/-- A run may be confined to more names than it binds. -/
theorem mono {r : Run α} (h : Keeps names r) (hnames : names ⊆ names') : Keeps names' r :=
  fun m hm => (h m hm).mono hnames

/-- A run that changes neither the environment nor the depth of calls. -/
theorem of_same {r : Run α}
    (h : ∀ m, (after r m).env = m.env ∧ (after r m).depth = m.depth) : Keeps names r := by
  intro m hm
  obtain ⟨henv, hdepth⟩ := h m
  refine ⟨?_, ?_, hdepth⟩
  · rw [henv]
    exact .refl names m.env
  · rw [henv]
    exact hm

theorem pure (a : α) : Keeps names (Pure.pure a : Run α) := .of_same fun _ => ⟨rfl, rfl⟩

theorem fail (e : RuntimeError) : Keeps names (Run.fail e : Run α) := .of_same fun _ => ⟨rfl, rfl⟩

theorem exhausted : Keeps names (Run.exhausted : Run α) := .of_same fun _ => ⟨rfl, rfl⟩

/-- A value or an error that is given leaves the machine as it is. -/
theorem ofExcept (x : Except RuntimeError α) : Keeps names (Run.ofExcept x) := by
  -- The two cases are the two runs above.
  cases x with
  | ok a => exact pure a
  | error e => exact fail e

/-- Sequences are confined where both parts are. Confinement is transitive, and it ends on a
    stack. -/
theorem bind {r : Run α} {f : α → Run β} (h : Keeps names r) (hf : ∀ a, Keeps names (f a)) :
    Keeps names (r >>= f) := by
  intro m hm
  have hfirst := h m hm
  rw [after_bind]
  unfold after at hfirst
  cases hr : r m with
  | ok a n =>
    rw [hr] at hfirst
    exact hfirst.trans (hf a n hfirst.isStack)
  | error stop n =>
    rw [hr] at hfirst
    exact hfirst

theorem ite {c : Prop} [Decidable c] {r u : Run α} (h : Keeps names r) (hu : Keeps names u) :
    Keeps names (if c then r else u) := by
  by_cases hc : c
  · rwa [if_pos hc]
  · rwa [if_neg hc]

/-- A run that looks at the machine first. -/
theorem of_get {f : Machine → Run α} (h : ∀ m, Keeps names (f m)) :
    Keeps names (MonadState.get >>= f) :=
  fun m hm => h m m hm

/-- A scope takes with it what was bound inside. -/
theorem inNewFrame {r : Run α} (h : Keeps names r) : Keeps [] (Run.inNewFrame r) := by
  intro m hm
  have hinside := h { m with env := m.env.push } hm.push
  rw [after_inNewFrame]
  -- Whatever names are bound inside, they are bound in the frame that is left.
  refine ⟨?_, hinside.isStack.pop, hinside.depth⟩
  exact hm.confined_pop hinside.isStack hinside.env

/-- A call takes the depth back that it has added. -/
theorem inCall {r : Run α} (h : Keeps names r) : Keeps names (Run.inCall r) := by
  intro m hm
  have hinside := h { m with depth := m.depth + 1 } hm
  rw [after_inCall]
  refine ⟨hinside.env, hinside.isStack, ?_⟩
  show (after r { m with depth := m.depth + 1 }).depth - 1 = m.depth
  rw [hinside.depth]
  rfl

end Keeps

/-- Looking a name up binds nothing. -/
theorem keeps_get (name : Token) : Keeps names (Run.get name) :=
  .of_get fun m => .ofExcept (m.env.get name)

/-- An assignment changes a binding that is there already, in whatever frame it is. -/
theorem keeps_assign (name : Token) (value : Value) : Keeps [] (Run.assign name value) := by
  intro m hm
  show Machine.Confined [] m (after (Run.ofExcept (m.env.assign name value) >>= _) m)
  rw [after_bind]
  cases hassign : m.env.assign name value with
  | ok env => exact ⟨hm.confined_assign hassign, hm.assign hassign, rfl⟩
  | error e => exact .refl [] hm

/-- A definition binds one name in the current frame. -/
theorem keeps_define (name : Token) (value : Value) :
    Keeps [name.lexeme] (Run.define name value) :=
  fun _ hm => ⟨hm.confined_define name.lexeme value, hm.define name.lexeme value, rfl⟩

/-- Parameters are bound one after the other. -/
theorem keeps_defineAll (parameters : List Token) (values : List Value) :
    Keeps (parameters.map Token.lexeme) (Run.defineAll parameters values) := by
  induction parameters generalizing values with
  | nil => exact .pure ()
  | cons name parameters ih =>
    cases values with
    | nil => exact .pure ()
    | cons value values =>
      have hname : [name.lexeme] ⊆ (name :: parameters).map Token.lexeme := by simp
      have hrest : parameters.map Token.lexeme ⊆ (name :: parameters).map Token.lexeme := by simp
      exact ((keeps_define name value).mono hname).bind fun _ => (ih values).mono hrest

/-- Printing touches the output only, also where it fails. -/
theorem keeps_print (keyword : Token) (value : Value) :
    Keeps names (Run.print keyword value) := by
  refine Keeps.bind (.of_same fun m => ⟨rfl, rfl⟩) fun complete => ?_
  exact (Keeps.pure ()).ite (.fail _)

/-- Native functions touch neither the environment nor the depth. -/
theorem keeps_callNative (n : Native) (paren : Token) (arguments : List Value) :
    Keeps names (callNative settings n paren arguments) := by
  unfold callNative
  -- The cases are the clock, the pause, the square root and arguments of another kind.
  split
  · exact .bind (.of_same fun m => ⟨rfl, rfl⟩) fun seconds => .ofExcept _
  · exact .ite (.bind (.of_same fun m => ⟨rfl, rfl⟩) fun _ => .pure _) (.fail _)
  · exact .pure _
  · exact .fail _

end Run

/-! ### Programs -/

open Run (Keeps after after_anew)

/-- With some fuel, evaluation binds no names in the current scope, and a statement those that it
    may bind there. -/
structure KeepsAll (settings : Settings) (fuel : Nat) : Prop where
  evaluate (e : Expr) : Keeps [] (evaluate settings fuel e)
  evaluateAll (es : List Expr) : Keeps [] (evaluateAll settings fuel es)
  call (callee : Value) (paren : Token) (arguments : List Value) :
    Keeps [] (call settings fuel callee paren arguments)
  execute (s : Stmt Nat) : Keeps s.boundNames (execute settings fuel s)
  executeBlock (body : List (Stmt Nat)) :
    Keeps (body.flatMap Stmt.boundNames) (executeBlock settings fuel body)
  loop (condition : Expr) (body : Stmt Nat) :
    Keeps body.boundNames (loop settings fuel condition body)

/-- Without fuel nothing is done. -/
theorem keepsAll_zero : KeepsAll settings 0 where
  evaluate _ := .exhausted
  evaluateAll _ := .exhausted
  call _ _ _ := .exhausted
  execute _ := .exhausted
  executeBlock _ := .exhausted
  loop _ _ := .exhausted

namespace KeepsAll

variable (h : KeepsAll settings fuel)

include h

/-- An expression binds no names, so it is confined to any. -/
theorem evaluate_within (names : List String) (e : Expr) :
    Keeps names (Lox.evaluate settings fuel e) :=
  (h.evaluate e).mono (List.nil_subset names)

/-- One level of evaluation, with one case for each kind of expression. -/
theorem evaluate_succ (e : Expr) : Keeps [] (Lox.evaluate settings (fuel + 1) e) := by
  cases e with
  | constant c => exact .pure _
  | group e => exact h.evaluate e
  | name name => exact Run.keeps_get name
  | assign name e =>
    exact (h.evaluate e).bind fun value => (Run.keeps_assign name value).bind fun _ => .pure value
  | unary op e => exact (h.evaluate e).bind fun operand => .ofExcept _
  | binary l op r =>
    exact (h.evaluate l).bind fun left => (h.evaluate r).bind fun right => .ofExcept _
  | logical l op r =>
    -- The left operand may decide, and it may be no operand for the operator.
    refine (h.evaluate l).bind fun left => ?_
    cases left.decides? op with
    | none => exact .fail _
    | some decided =>
      cases decided with
      | true => exact .pure left
      | false => exact h.evaluate r
  | call callee paren arguments =>
    exact (h.evaluate callee).bind fun callee => (h.evaluateAll arguments).bind fun arguments =>
      h.call callee paren arguments

/-- A list of expressions is evaluated one by one. -/
theorem evaluateAll_succ (es : List Expr) : Keeps [] (Lox.evaluateAll settings (fuel + 1) es) := by
  cases es with
  | nil => exact .pure []
  | cons e es =>
    exact (h.evaluate e).bind fun value => (h.evaluateAll es).bind fun values => .pure _

/-- Parameters and names of the body are bound in the scope of the call. -/
theorem callBody (f : Function) (arguments : List Value) :
    Keeps (f.parameters.map Token.lexeme ++ f.body.flatMap Stmt.boundNames)
      (Run.defineAll f.parameters arguments >>= fun _ =>
        Lox.executeBlock settings fuel f.body) := by
  have hparameters := (Run.keeps_defineAll f.parameters arguments).mono
    (List.subset_append_left _ (f.body.flatMap Stmt.boundNames))
  have hbody := (h.executeBlock f.body).mono
    (List.subset_append_right (f.parameters.map Token.lexeme) _)
  exact hparameters.bind fun _ => hbody

/-- A call is confined to no names at all, as its frame is popped and its depth taken back. -/
theorem call_succ (callee : Value) (paren : Token) (arguments : List Value) :
    Keeps [] (Lox.call settings (fuel + 1) callee paren arguments) := by
  cases callee with
  | callable callee =>
    refine .ite (.fail _) ?_
    cases callee with
    -- A native function has no frame of its own.
    | native n => exact Run.keeps_callNative n paren arguments
    | function f =>
      -- The checks come first, and then the body in its own frame and at its own depth.
      exact .of_get fun m => .ite (.fail _)
        (.bind (.inCall (.inNewFrame (h.callBody f arguments))) fun flow => .pure _)
  | _ => exact .fail _

/-- One level of execution, with one case for each kind of statement. -/
theorem execute_succ (s : Stmt Nat) :
    Keeps s.boundNames (Lox.execute settings (fuel + 1) s) := by
  cases s with
  | expression e => exact (h.evaluate e).bind fun _ => .pure _
  | print keyword e =>
    exact (h.evaluate e).bind fun value => (Run.keeps_print keyword value).bind fun _ => .pure _
  | «variable» name e =>
    exact (h.evaluate_within _ e).bind fun value =>
      (Run.keeps_define name value).bind fun _ => .pure _
  | function id name parameters body => exact (Run.keeps_define name _).bind fun _ => .pure _
  | block body => exact .inNewFrame (h.executeBlock body)
  | ifThen condition yes =>
    exact (h.evaluate_within _ condition).bind fun value => (h.execute yes).ite (.pure _)
  | ifElse condition yes no =>
    -- Either branch is executed in the current frame, so the names of both count.
    have hyes : yes.boundNames ⊆ (Stmt.ifElse condition yes no).boundNames :=
      List.subset_append_left _ _
    have hno : no.boundNames ⊆ (Stmt.ifElse condition yes no).boundNames :=
      List.subset_append_right _ _
    exact (h.evaluate_within _ condition).bind fun value =>
      ((h.execute yes).mono hyes).ite ((h.execute no).mono hno)
  | «while» condition body => exact h.loop condition body
  | «return» keyword e => exact (h.evaluate e).bind fun value => .pure _

/-- A block of statements stops at the first `return`. -/
theorem executeBlock_succ (body : List (Stmt Nat)) :
    Keeps (body.flatMap Stmt.boundNames) (Lox.executeBlock settings (fuel + 1) body) := by
  cases body with
  | nil => exact .pure _
  | cons s rest =>
    obtain ⟨hs, hrest⟩ := s.subset_flatMap_boundNames_cons rest
    refine ((h.execute s).mono hs).bind fun flow => ?_
    cases flow with
    | «return» value => exact .pure _
    | normal => exact (h.executeBlock rest).mono hrest

/-- A turn of a loop is its condition, its body and the loop that is left. -/
theorem loop_succ (condition : Expr) (body : Stmt Nat) :
    Keeps body.boundNames (Lox.loop settings (fuel + 1) condition body) := by
  refine (h.evaluate_within _ condition).bind fun value => .ite ?_ (.pure _)
  refine (h.execute body).bind fun flow => ?_
  cases flow with
  | «return» value => exact .pure _
  | normal => exact h.loop condition body

end KeepsAll

/-- Evaluation and execution are confined, whatever the fuel. -/
theorem keepsAll (settings : Settings) (fuel : Nat) : KeepsAll settings fuel := by
  induction fuel with
  | zero => exact keepsAll_zero
  | succ fuel ih =>
    exact ⟨ih.evaluate_succ, ih.evaluateAll_succ, ih.call_succ, ih.execute_succ,
      ih.executeBlock_succ, ih.loop_succ⟩

/-- A program binds the names that its statements may bind. -/
theorem keeps_executeAll (settings : Settings) (fuel : Nat) (program : List (Stmt Nat)) :
    Keeps (program.flatMap Stmt.boundNames) (executeAll settings fuel program) := by
  induction program with
  | nil => exact .pure ()
  | cons s rest ih =>
    obtain ⟨hs, hrest⟩ := s.subset_flatMap_boundNames_cons rest
    exact (((keepsAll settings fuel).execute s).mono hs).bind fun _ => ih.mono hrest

/-! ### Scopes and calls are left again -/

/-- The second machine has the frames of the first one and is as deep in calls. -/
structure Machine.Restored (m m' : Machine) : Prop where
  sameFrames : SameFrames m.env m'.env
  depth : m'.depth = m.depth

/-- A confined run leaves frames and depth as they are. -/
theorem Machine.Confined.restored {m m' : Machine} (h : Machine.Confined names m m') :
    m.Restored m' :=
  ⟨h.env.sameFrames, h.depth⟩

/-- A machine between two program texts: its environment is a stack, and no call is open. -/
structure Machine.AtRest (m : Machine) : Prop where
  isStack : m.env.IsStack
  depth : m.depth = 0

/-- A confined run leads from rest to rest. -/
theorem Machine.AtRest.of_confined {m m' : Machine} (h : m.AtRest)
    (hconfined : Machine.Confined names m m') : m'.AtRest :=
  ⟨hconfined.isStack, hconfined.depth.trans h.depth⟩

/-- A session starts at rest. -/
theorem Machine.atRest_fresh (output : Sink) : Machine.AtRest { output } :=
  ⟨Environment.reachable_global.isStack, rfl⟩

/-- The machine on which some statements leave off that are executed one after the other, whatever
    becomes of those before. -/
def attemptAll (settings : Settings) (fuel : Nat) : List (Stmt Nat) → Machine → Machine
  | [], m => m
  | s :: rest, m => attemptAll settings fuel rest (after (execute settings fuel s) m)

/-- Confinement is carried along from one statement to the next, also past errors. -/
theorem confined_attemptAll (settings : Settings) (fuel : Nat) (program : List (Stmt Nat))
    {m : Machine} (hm : m.env.IsStack) :
    Machine.Confined (program.flatMap Stmt.boundNames) m (attemptAll settings fuel program m) := by
  induction program generalizing m with
  | nil => exact .refl _ hm
  | cons s rest ih =>
    obtain ⟨hs, hrest⟩ := s.subset_flatMap_boundNames_cons rest
    have hfirst := (keepsAll settings fuel).execute s m hm
    exact (hfirst.mono hs).trans ((ih hfirst.isStack).mono hrest)

namespace Session

/-- The session after some program texts, whatever became of each of them. -/
def runAll (settings : Settings) (fuel : Nat) : List String → Session → Session
  | [], s => s
  | source :: rest, s => runAll settings fuel rest (s.run settings fuel source).2

/-- How a program ended whose run had that result. -/
def outcomeOf : EStateM.Result Stop Machine Unit → Outcome
  | .ok _ _ => .finished
  | .error (.failed e) _ => .failed (.runtime e)
  | .error .outOfFuel _ => .outOfFuel

/-- A program is executed on the machine of the session. -/
theorem execute_eq (s : Session) (program : List (Stmt Nat)) :
    s.execute settings fuel program =
      (outcomeOf (Run.anew (executeAll settings fuel program) s.machine),
        { s with machine := after (Run.anew (executeAll settings fuel program)) s.machine }) := by
  unfold execute perform after
  cases Run.anew (executeAll settings fuel program) s.machine with
  | ok a m => rfl
  | error stop m => cases stop <;> rfl

/-- Running a text leaves the machine as it is, or executes some statements on it. -/
theorem machine_run (s : Session) (source : String) :
    (s.run settings fuel source).2.machine = s.machine ∨
      ∃ program, (s.run settings fuel source).2.machine =
        after (Run.anew (executeAll settings fuel program)) s.machine := by
  unfold run
  split
  · next program _ =>
    -- Loading numbers the functions and does not touch the machine.
    exact .inr ⟨(s.load program).1, congrArg (·.2.machine) (execute_eq (s.load program).2 _)⟩
  · exact .inl rfl

/-- Running a text between calls binds some names in the current scope. -/
theorem confined_run (settings : Settings) (fuel : Nat) (source : String) {s : Session}
    (hs : s.machine.AtRest) :
    ∃ names, Machine.Confined names s.machine (s.run settings fuel source).2.machine := by
  rcases machine_run s source with hsame | ⟨program, hprogram⟩
  · rw [hsame]
    exact ⟨[], .refl [] hs.isStack⟩
  · rw [hprogram, after_anew hs.depth]
    exact ⟨_, keeps_executeAll settings fuel program s.machine hs.isStack⟩

/-- Between two texts no call is open. -/
theorem atRest_run (settings : Settings) (fuel : Nat) (source : String) {s : Session}
    (hs : s.machine.AtRest) : (s.run settings fuel source).2.machine.AtRest := by
  obtain ⟨names, hrun⟩ := confined_run settings fuel source hs
  exact hs.of_confined hrun

/-- Confinement is carried along from one text to the next, also past errors. -/
theorem confined_runAll (settings : Settings) (fuel : Nat) (sources : List String) {s : Session}
    (hs : s.machine.AtRest) :
    ∃ names, Machine.Confined names s.machine (s.runAll settings fuel sources).machine := by
  induction sources generalizing s with
  | nil => exact ⟨[], .refl [] hs.isStack⟩
  | cons source rest ih =>
    -- Each text may bind names of its own.
    obtain ⟨names, hfirst⟩ := confined_run settings fuel source hs
    obtain ⟨names', hrest⟩ := ih (hs.of_confined hfirst)
    exact ⟨names ++ names', (hfirst.mono (List.subset_append_left _ _)).trans
      (hrest.mono (List.subset_append_right _ _))⟩

end Session

/-- **Every scope and every call that is entered is left again.** Evaluating an expression and
    executing a statement, with a result, with an error or for want of fuel, leave the frames of
    every environment and the depth of calls as they are. So each statement starts where the first
    one did: after statements executed one by one whatever became of them, and, in a session, after
    texts run whatever became of them and behind other statements of its own text. -/
theorem scopes_restored {m : Machine} (hm : m.env.Reachable) (settings : Settings) (fuel : Nat) :
    (∀ e, m.Restored (after (evaluate settings fuel e) m)) ∧
      (∀ s, m.Restored (after (execute settings fuel s) m)) ∧
      (∀ program, m.Restored (attemptAll settings fuel program m)) ∧
      ∀ (output : Sink) (sources : List String) (program : List (Stmt Nat)),
        let session : Session := { machine := { output } }
        let start := after (executeAll settings fuel program)
          (session.runAll settings fuel sources).machine
        session.machine.Restored start ∧ start.env.depth = 1 ∧ start.env.current = 0 ∧
          start.depth = 0 := by
  have hkeeps := keepsAll settings fuel
  have hstack := hm.isStack
  refine ⟨fun e => (hkeeps.evaluate e m hstack).restored,
    fun s => (hkeeps.execute s m hstack).restored,
    fun program => (confined_attemptAll settings fuel program hstack).restored,
    fun output sources program => ?_⟩
  let session : Session := { machine := { output } }
  -- The texts before lead to some stack, and the statements before go on from there.
  obtain ⟨names, hruns⟩ := session.confined_runAll settings fuel sources
    (Machine.atRest_fresh output)
  have hprogram := keeps_executeAll settings fuel program _ hruns.isStack
  have hframes := hruns.restored.sameFrames.trans hprogram.restored.sameFrames
  have hdepth := hprogram.depth.trans hruns.depth
  exact ⟨⟨hframes, hdepth⟩, hframes.depth, hframes.current, hdepth⟩

/-- The error with which a run fails, if it does. -/
def Run.error? (r : Run α) (m : Machine) : Option RuntimeError :=
  match r m with
  | .error (.failed e) _ => some e
  | _ => none

/-- The statement `{ fun f() { x = nil; y; } f(); }`. -/
def failingCall : Stmt Nat :=
  let word (kind : Token.Kind) (lexeme : String) : Token := { kind, lexeme, line := 1 }
  let name (lexeme : String) : Token := word .identifier lexeme
  .block [.function 0 (name "f") [] [.expression (.assign (name "x") .nil),
      .expression (.name (name "y"))],
    .expression (.call (.name (name "f")) (word Symbol.rightParen ")") [])]

/-- A machine in a scope and a call, where `x` is bound in two scopes and `y` in none. -/
def shadowing : Machine where
  env := ((Environment.global.define "x" (.bool true)).push).define "x" (.bool false)
  depth := 1

/-- A call that fails two scopes further in leaves the machine in its scope and its call. -/
theorem restored_failingCall :
    shadowing.env.Reachable ∧
      ((execute { clock := fun _ => 0 } 16 failingCall).error? shadowing).map (·.cause) =
        some (.undefinedVariable "y") ∧
      shadowing.Restored (after (execute { clock := fun _ => 0 } 16 failingCall) shadowing) := by
  have hreachable : shadowing.env.Reachable :=
    ((Environment.reachable_global.define "x" _).push).define "x" _
  refine ⟨hreachable, by decide +kernel, ?_⟩
  exact (scopes_restored hreachable { clock := fun _ => 0 } 16).2.1 failingCall

/-! ### Bindings of other scopes -/

/-- **Nothing leaks out of a scope, and shadowed bindings are safe.** In the frames that were there
    before, evaluating an expression changes no set of names, and executing a statement adds names
    to the current frame only, those that the statement may bind there. Of a program that was
    parsed, each statement at any depth adds no name but the one that it declares. What lies under
    another binding of the same name stays as it is. All this holds however the run ends. -/
theorem scopes_confined {m : Machine} (hm : m.env.IsStack) (settings : Settings) (fuel : Nat) :
    (∀ e, Environment.Confined [] m.env (after (evaluate settings fuel e) m).env) ∧
      (∀ s, Environment.Confined s.boundNames m.env (after (execute settings fuel s) m).env) ∧
      ∀ (tokens : List Token) (next : Nat),
        ∀ s ∈ Stmt.partsAll (Stmt.numberAll next (parse tokens).1).1,
          Environment.Confined s.declared?.toList m.env
            (after (execute settings fuel s) m).env := by
  have hkeeps := keepsAll settings fuel
  refine ⟨fun e => (hkeeps.evaluate e m hm).env, fun s => (hkeeps.execute s m hm).env,
    fun tokens next s hs => ?_⟩
  rw [← boundNames_of_mem_partsAll_parse tokens next s hs]
  exact (hkeeps.execute s m hm).env

/-- The call assigns to the inner `x`, and the outer one keeps its value. -/
theorem confined_failingCall :
    shadowing.env.IsStack ∧
      let env := (after (execute { clock := fun _ => 0 } 16 failingCall) shadowing).env
      (env.binding? 1 "x").map Value.text = some "nil" ∧
        env.binding? 0 "x" = some (.bool true) ∧ ∀ name, env.Binds 0 name ↔
          shadowing.env.Binds 0 name := by
  have hreachable : shadowing.env.Reachable :=
    ((Environment.reachable_global.define "x" _).push).define "x" _
  have hconfined := (scopes_confined hreachable.isStack { clock := fun _ => 0 } 16).2.1 failingCall
  have hinner : shadowing.env.Binds 1 "x" := rfl
  have houter : shadowing.env.binding? 0 "x" = some (.bool true) := rfl
  refine ⟨hreachable.isStack, by decide +kernel, ?_, fun name => ?_⟩
  · exact (hconfined.shadowed (by decide) hinner).trans houter
  · exact hconfined.binds_iff_of_lt (by decide)

end Lox
