import Lox.Proofs.Evaluation.Correspondence
import Lox.Proofs.Evaluation.Scope
import Lox.Proofs.Grammar.Fitting

namespace Lox

/-!
# The tokens of run-time errors

An error is attributed to a token of the program that is executed, or of a function that has been
declared by an earlier one, and its cause fits the place of the token. For the functions in an
environment keep the trees of their declarations, and a run brings in no other functions than those
declared in its own program, or in the functions that it may call.

* `Machine.Knows` — all functions bound on a machine are declared in some statements.
* `Machine.Knows.executeAll` — one program.
* `Session.runAllTokens` — programs that run one after the other.
* `runtimeError_fitsAt` — the tokens of their errors.
-/

open Run (after)

variable {settings : Settings} {fuel : Nat}

/-! ### One program -/

/-- Runs that end in the same way leave machines that match. -/
theorem Result.Matches.after {α β : Type} {C : Correspondence} {P : α → β → Prop} {r : Run α}
    {r' : Run β} {m m' : Machine} (h : Result.Matches C P (r m) (r' m')) :
    (after r m).Matches C (after r' m') := by
  unfold Run.after
  generalize r m = x at h
  generalize r' m' = x' at h
  cases h with
  | ok _ hm => exact hm
  | error _ hm => exact hm

/-- Each function that is bound on the machine has its declaration in the statements. -/
def Machine.Knows (m : Machine) (statements : List (Stmt Nat)) : Prop :=
  ∀ f, m.env.HasFunction f → f.declaration ∈ Stmt.partsAll statements

/-- The tokens at which a program may fail on a machine: its own ones, and those in the functions
    that are bound there. -/
def Machine.Reaches (m : Machine) (program : List (Stmt Nat)) (place : Place) (t : Token) : Prop :=
  (place, t) ∈ Stmt.placesAll program ∨
    ∃ f, m.env.HasFunction f ∧ (place, t) ∈ f.declaration.places

/-- Each token that a program may come to corresponds to itself, and so does each function declared
    in some statements. -/
def Machine.reached (m : Machine) (program statements : List (Stmt Nat)) : Correspondence where
  token place t t' := t = t' ∧ m.Reaches program place t
  function f _ := f.declaration ∈ Stmt.partsAll statements
  kind_eq h := by rw [h.1]
  lexeme_eq h := by rw [h.1]

namespace Machine.Knows

variable {m : Machine} {program statements : List (Stmt Nat)}

/-- A machine that knows its functions matches itself. -/
theorem matches_self (h : m.Knows statements) :
    m.Matches (m.reached program (statements ++ program)) m := by
  refine ⟨Environment.matches_self_iff.2 fun f hf => ?_, rfl⟩
  have hdeclared := h f hf
  -- The function is declared earlier, and so are the functions inside it.
  have hparts : f.declaration.parts ⊆ Stmt.partsAll (statements ++ program) := by
    obtain ⟨s, hs, hwithin⟩ := Stmt.exists_within_of_mem_partsAll statements hdeclared
    exact List.Subset.trans hwithin.parts
      (Stmt.parts_subset_partsAll (List.mem_append_left program hs))
  -- Each token in the function corresponds to itself, as `m` reaches it through the function.
  have hself : f.declaration.Matches (m.reached program (statements ++ program))
      (f.declaration.relabel id) :=
    f.declaration.matches_relabel (fun p hp => ⟨rfl, .inr ⟨f, hf, hp⟩⟩) fun f' hf' => hparts hf'
  rw [(Stmt.relabel_eq_self_iff f.declaration).2 fun _ _ => rfl] at hself
  cases hself with
  | function hn hparameters hbody hfunction => exact ⟨rfl, hn, hparameters, hbody, hfunction⟩

/-- A program corresponds to itself while it runs, with its own functions and those known before. -/
theorem matchesAll_self (m : Machine) (program statements : List (Stmt Nat)) :
    Stmt.MatchesAll (m.reached program (statements ++ program)) program program := by
  have hself : Stmt.MatchesAll (m.reached program (statements ++ program)) program
      (Stmt.relabelAll id program) := by
    refine Stmt.matchesAll_relabelAll program (fun p hp => ⟨rfl, .inl hp⟩) fun f hf => ?_
    obtain ⟨s, hs, hp⟩ := Stmt.mem_partsAll.1 hf
    exact Stmt.mem_partsAll.2 ⟨s, List.mem_append_right statements hs, hp⟩
  rwa [(Stmt.relabelAll_eq_self_iff program).2 fun _ _ => rfl] at hself

/-- The program ends as it does when run a second time. -/
theorem result_matches (h : m.Knows statements) (settings : Settings) (fuel : Nat)
    (program : List (Stmt Nat)) :
    Result.Matches (m.reached program (statements ++ program)) (fun _ _ => True)
      (executeAll settings fuel program m) (executeAll settings fuel program m) :=
  matches_executeAll settings fuel (matchesAll_self m program statements) m m h.matches_self

/-- What is known does not depend on the calls that are open. -/
theorem closed (h : m.Knows statements) : Machine.Knows { m with depth := 0 } statements := h

/-- **One program.** Behind a program, the machine knows all functions if it also knows the
    statements of the program. -/
theorem executeAll (h : m.Knows statements) :
    (after (Lox.executeAll settings fuel program) m).Knows (statements ++ program) := by
  intro f hf
  have hafter := (h.result_matches settings fuel program).after
  exact (Environment.matches_self_iff.1 hafter.env f hf).function

/-- If the program fails, it is at a token that it may come to. -/
theorem exists_place (h : m.Knows statements) {e : RuntimeError}
    (he : (Lox.executeAll settings fuel program).error? m = some e) :
    ∃ place, m.Reaches program place e.token ∧
      (place.fits e.token.kind = true → e.FitsAt place) := by
  -- The result matches itself, so the token of an error corresponds to itself at its place.
  have hresult := h.result_matches settings fuel program
  unfold Run.error? at he
  cases hrun : Lox.executeAll settings fuel program m with
  | ok a n =>
    rw [hrun] at he
    cases he
  | error stop n =>
    rw [hrun] at hresult he
    cases stop with
    | outOfFuel => cases he
    | failed e' =>
      cases he
      cases hresult with
      | error hstop _ =>
        cases hstop with
        | failed hmatches =>
          obtain ⟨place, htoken, hfits⟩ := hmatches.token
          exact ⟨place, htoken.2, hfits⟩

end Machine.Knows

/-! ### Programs that run one after the other -/

namespace Session

/-- Executes what is read from tokens, even if there are syntax errors. -/
def runTokens (settings : Settings) (fuel : Nat) (s : Session) (tokens : List Token) :
    Outcome × Session :=
  match s.load (parse tokens).1 with
  | (program, s) => s.execute settings fuel program

/-- The session after some programs, whatever became of each of them. -/
def runAllTokens (settings : Settings) (fuel : Nat) : List (List Token) → Session → Session
  | [], s => s
  | tokens :: rest, s => runAllTokens settings fuel rest (s.runTokens settings fuel tokens).2

/-- The statements of some programs, numbered as they are when they run one after the other. -/
def loadAll (s : Session) (programs : List (List Token)) : List (Stmt Nat) :=
  (s.load (programs.flatMap fun tokens => (parse tokens).1)).1

/-- An outcome with a runtime error is that of a run, not deep in calls at first, that fails with
    it. -/
theorem error?_of_execute {s : Session} {program : List (Stmt Nat)} {e : RuntimeError}
    (h : (s.execute settings fuel program).1 = .failed (.runtime e)) :
    (Lox.executeAll settings fuel program).error? { s.machine with depth := 0 } = some e := by
  rw [execute_eq] at h
  unfold Run.anew at h
  unfold Run.error?
  cases hrun : Lox.executeAll settings fuel program { s.machine with depth := 0 } with
  | ok a m =>
    rw [hrun] at h
    cases h
  | error stop m =>
    rw [hrun] at h
    cases stop <;> cases h
    rfl

/-- After some programs, all functions are known from before or declared in these programs. -/
theorem knows_runAllTokens (settings : Settings) (fuel : Nat) (programs : List (List Token))
    {s : Session} {statements : List (Stmt Nat)} (h : s.machine.Knows statements) :
    (s.runAllTokens settings fuel programs).machine.Knows (statements ++ s.loadAll programs) := by
  induction programs generalizing s statements with
  | nil =>
    show s.machine.Knows (statements ++ [])
    rwa [List.append_nil]
  | cons tokens rest ih =>
    have hrun : s.runTokens settings fuel tokens = _ :=
      execute_eq (s.load (parse tokens).1).2 (s.load (parse tokens).1).1
    have hload : s.loadAll (tokens :: rest) =
        (s.load (parse tokens).1).1 ++ (s.runTokens settings fuel tokens).2.loadAll rest := by
      simp only [loadAll, load, List.flatMap_cons, Stmt.numberAll_append, hrun]
    have hfirst : (s.runTokens settings fuel tokens).2.machine.Knows
        (statements ++ (s.load (parse tokens).1).1) := by
      rw [hrun]
      exact h.closed.executeAll
    rw [hload, ← List.append_assoc]
    exact ih hfirst

end Session

/-- At the start there are no functions but native ones. -/
theorem Environment.not_hasFunction {env : Environment} (h : env = .empty ∨ env = .global)
    (f : Function) : ¬ env.HasFunction f := by
  have hglobal : Environment.global.frames =
      #[⟨Native.all.map fun n => (n.name, .callable (.native n)), none⟩] := rfl
  rintro ⟨i, frame, name, hframe, hentry⟩
  have hmem := Array.mem_of_getElem? hframe
  rcases h with rfl | rfl
  · obtain rfl : frame = {} := Array.mem_singleton.1 hmem
    exact absurd hentry List.not_mem_nil
  · rw [hglobal] at hmem
    obtain rfl := Array.mem_singleton.1 hmem
    simp at hentry

/-- **Run-time errors point at fitting tokens.** Read programs from any tokens, whatever their
    spelling and even if there are syntax errors, and execute them one after the other, starting
    without variables or with the native functions. If a program fails, its error names a token at a
    place of the program, or of the declaration of a function that is bound before the program
    starts and comes from one of the programs before. The place and the kind of the token are those
    that the cause of the error is for; there is none for an operator that has no meaning. -/
theorem runtimeError_fitsAt {settings : Settings} {fuel : Nat} {s : Session}
    (hs : s.machine.env = .empty ∨ s.machine.env = .global) (earlier : List (List Token))
    (tokens : List Token) {e : RuntimeError}
    (he : ((s.runAllTokens settings fuel earlier).runTokens settings fuel tokens).1 =
      .failed (.runtime e)) :
    let before := s.runAllTokens settings fuel earlier
    ∃ place, e.FitsAt place ∧
      ((place, e.token) ∈ Stmt.placesAll (before.load (parse tokens).1).1 ∨
        ∃ f, before.machine.env.HasFunction f ∧
          f.declaration ∈ Stmt.partsAll (s.loadAll earlier) ∧
          (place, e.token) ∈ f.declaration.places) := by
  intro before
  have hstart : s.machine.Knows [] := fun f hf => absurd hf (Environment.not_hasFunction hs f)
  have hknows : before.machine.Knows (s.loadAll earlier) :=
    Session.knows_runAllTokens settings fuel earlier hstart
  have he := Session.error?_of_execute (s := (before.load (parse tokens).1).2) he
  obtain ⟨place, hreaches, hfits⟩ := hknows.closed.exists_place he
  -- Wherever the token stands, it has been read, so it fits its place.
  rcases hreaches with hprogram | ⟨f, hf, hdeclaration⟩
  · have hkind := fits_of_mem_placesAll_numberAll (isFitting_of_mem_parse tokens) _ _ hprogram
    exact ⟨place, hfits hkind, .inl hprogram⟩
  · have hearlier : ∀ s ∈ earlier.flatMap fun tokens => (parse tokens).1, s.IsFitting := by
      intro s hs
      obtain ⟨tokens, -, hs⟩ := List.mem_flatMap.1 hs
      exact isFitting_of_mem_parse tokens s hs
    obtain ⟨s', hs', hwithin⟩ := Stmt.exists_within_of_mem_partsAll _ (hknows f hf)
    have hkind := fits_of_mem_placesAll_numberAll hearlier _ _
      (Stmt.places_subset_placesAll hs' (hwithin.places hdeclaration))
    exact ⟨place, hfits hkind, .inr ⟨f, hf, hknows f hf, hdeclaration⟩⟩

/-- The run-time error with which a program failed, if it did. -/
def Outcome.runtimeError? : Outcome → Option RuntimeError
  | .failed (.runtime e) => some e
  | _ => none

/-- An outcome that has a runtime error is the failure with this error. -/
theorem Outcome.eq_of_runtimeError? {outcome : Outcome} {e : RuntimeError}
    (h : outcome.runtimeError? = some e) : outcome = .failed (.runtime e) := by
  unfold runtimeError? at h
  split at h
  · rw [Option.some.inj h]
  · cases h

/-- How a program ends that calls a function of another one, in which `nil` is negated. There is a
    syntax error behind the function. -/
def negation : Outcome :=
  let settings : Settings := { clock := fun _ => 0 }
  ((({} : Session).runAllTokens settings 16 [scan "fun f() { return -nil; } )"]).runTokens
    settings 16 (scan "f();")).1

/-- The error is at the `-` in the function. -/
theorem runtimeError_fitsAt_negation :
    ∃ e, negation = .failed (.runtime e) ∧ e.cause = .operandMustBeNumber ∧
      e.token.kind = Symbol.minus := by
  have hcause : (negation.runtimeError?).map (·.cause) = some .operandMustBeNumber := by
    decide +kernel
  obtain ⟨e, he, hcause⟩ := Option.map_eq_some_iff.1 hcause
  have houtcome : negation = .failed (.runtime e) := Outcome.eq_of_runtimeError? he
  obtain ⟨place, hfits, -⟩ := runtimeError_fitsAt (s := {}) (.inr rfl)
    [scan "fun f() { return -nil; } )"] (scan "f();") houtcome
  rw [RuntimeError.FitsAt, hcause] at hfits
  exact ⟨e, houtcome, hcause, hfits.2⟩

end Lox
