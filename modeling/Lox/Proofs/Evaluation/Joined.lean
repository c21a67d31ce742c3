import Lox.Proofs.Evaluation.ErrorToken
import Lox.Proofs.Grammar.Joined

namespace Lox

/-!
# Sessions and single programs

Texts that are run one after the other in a session do what they do as one text, joined by line
feeds. For the joined text is read as the statements of all texts, with each token as many lines
further down as the texts before it have lines; the functions get the same numbers; and runs do not
look at lines.

* `Session.runUntilFailure` — a session that ends with the first text that is not run to its end.
* `Session.runUntilFailure_eq` — such a session executes the statements of all texts.
* `movedDown` — tokens of the texts and of the joined text that correspond to each other.
* `run_intercalate` — the session and the joined text.
-/

open Run (after)

variable {settings : Settings} {fuel : Nat} {C : Correspondence}

/-- The same end, up to the tokens of run-time errors. -/
inductive Outcome.Matches (C : Correspondence) : Outcome → Outcome → Prop
  | finished : Outcome.Matches C .finished .finished
  | failed {e e' : RuntimeError} : e.Matches C e' →
      Outcome.Matches C (.failed (.runtime e)) (.failed (.runtime e'))
  | outOfFuel : Outcome.Matches C .outOfFuel .outOfFuel

/-- A program of two parts is executed part by part. -/
theorem executeAll_append (settings : Settings) (fuel : Nat) (program rest : List (Stmt Nat)) :
    executeAll settings fuel (program ++ rest) =
      executeAll settings fuel program >>= fun _ => executeAll settings fuel rest := by
  induction program with
  | nil => exact (pure_bind () fun _ => executeAll settings fuel rest).symm
  | cons s program ih => simp only [List.cons_append, executeAll, ih, bind_assoc]

namespace Session

/-- Runs texts one after the other, up to the first one that is not run to its end. -/
def runUntilFailure (settings : Settings) (fuel : Nat) : List String → Session → Outcome × Session
  | [], s => (.finished, s)
  | source :: rest, s =>
    match s.run settings fuel source with
    | (.finished, s) => runUntilFailure settings fuel rest s
    | failed => failed

/-- After running texts until one fails, no call and no scope is open. -/
theorem atRest_runUntilFailure (settings : Settings) (fuel : Nat) (sources : List String)
    {s : Session} (hs : s.machine.AtRest) :
    (s.runUntilFailure settings fuel sources).2.machine.AtRest := by
  induction sources generalizing s with
  | nil => exact hs
  | cons source rest ih =>
    have hrun := atRest_run settings fuel source hs
    rw [runUntilFailure]
    split
    · next s₁ hfinished =>
      rw [hfinished] at hrun
      exact ih hrun
    · exact hrun

/-- A text without syntax errors is loaded and executed. -/
theorem run_eq (s : Session) {source : String} {program : List (Stmt Unit)}
    (h : parse (scan source) = (program, [])) :
    let run := Run.anew (executeAll settings fuel (s.load program).1)
    s.run settings fuel source =
      (outcomeOf (run s.machine), { (s.load program).2 with machine := after run s.machine }) := by
  rw [run, h]
  exact execute_eq (s.load program).2 (s.load program).1

/-- The texts of a session are executed as the statements of all of them. -/
theorem runUntilFailure_eq (settings : Settings) (fuel : Nat) {sources : List String}
    (h : ∀ source ∈ sources, (parse (scan source)).2 = []) {s : Session}
    (hs : s.machine.AtRest) :
    let run := executeAll settings fuel (s.load (sources.flatMap statements)).1
    (s.runUntilFailure settings fuel sources).1 = outcomeOf (run s.machine) ∧
      (s.runUntilFailure settings fuel sources).2.machine = after run s.machine := by
  induction sources generalizing s with
  | nil => exact ⟨rfl, rfl⟩
  | cons source rest ih =>
    obtain ⟨hsource, hrest⟩ := List.forall_mem_cons.1 h
    have hparse : parse (scan source) = (statements source, []) := Prod.ext rfl hsource
    have hrun : s.run settings fuel source = _ := s.run_eq hparse
    have hload : (s.load ((source :: rest).flatMap statements)).1 =
        (s.load (statements source)).1 ++
          ((s.load (statements source)).2.load (rest.flatMap statements)).1 := by
      simp only [load, List.flatMap_cons, Stmt.numberAll_append]
    -- The next text finds the machine at rest again.
    have hrested := hs.of_confined
      (keeps_executeAll settings fuel (s.load (statements source)).1 s.machine hs.isStack)
    rw [Run.after_anew hs.depth, Run.anew_eq _ hs.depth] at hrun
    simp only [hload, executeAll_append, runUntilFailure, hrun]
    unfold after at hrested ⊢
    simp only [Run.bind_eq]
    -- The next text goes on if the first one is finished, and so does the joined run.
    cases hfirst : executeAll settings fuel (s.load (statements source)).1 s.machine with
    | ok a m =>
      rw [hfirst] at hrested
      exact ih hrest (s := { (s.load (statements source)).2 with machine := m }) hrested
    | error stop m => cases stop <;> exact ⟨rfl, rfl⟩

end Session

/-! ### Tokens further down -/

/-- Each token of each text corresponds to the one that is further down by the lines of the texts
    before. Nothing more is asked of functions. -/
def movedDown (sources : List String) : Correspondence where
  token _ t t' := ∃ before source behind, sources = before ++ source :: behind ∧
    t ∈ scan source ∧ t' = t.below (before.map lineCount).sum
  function _ _ := True
  kind_eq := by
    rintro _ t _ ⟨before, -, -, -, -, rfl⟩
    rfl
  lexeme_eq := by
    rintro _ t _ ⟨before, -, -, -, -, rfl⟩
    rfl

/-- The statements of the texts match those of the texts behind line feeds. -/
theorem matchesAll_lowerAll (before rest : List String) (next : Nat) :
    Stmt.MatchesAll (movedDown (before ++ rest))
      (Stmt.numberAll next (rest.flatMap statements)).1
      (Stmt.numberAll next
        ((lowerAll (before.map lineCount).sum rest).flatMap statements)).1 := by
  induction rest generalizing before next with
  | nil => exact .nil
  | cons source rest ih =>
    -- A text behind line feeds has the same statements, further down.
    have hfirst : statements (lowered (before.map lineCount).sum source) =
        Stmt.relabelAll (Token.below (before.map lineCount).sum) (statements source) := by
      rw [statements, parse_scan_lowered, Stmt.relabelAll_eq_map]
      rfl
    have hbefore : (before.map lineCount).sum + lineCount source =
        ((before ++ [source]).map lineCount).sum := by
      simp
    have hrest := ih (before ++ [source]) (Stmt.numberAll next (statements source)).2
    rw [List.append_assoc, List.singleton_append, ← hbefore] at hrest
    simp only [lowerAll, List.flatMap_cons, hfirst, Stmt.numberAll_append,
      Stmt.numberAll_relabelAll]
    refine .append (Stmt.matchesAll_relabelAll _ (fun p hp => ?_) fun _ _ => trivial) hrest
    rw [Stmt.placesAll_numberAll] at hp
    exact ⟨before, source, rest, rfl,
      mem_of_mem_placesAll_parse (exists_eof_scan source) p hp, rfl⟩

/-- Results that match are ends of a program that match. -/
theorem Result.Matches.outcomeOf {x x' : EStateM.Result Stop Machine Unit}
    (h : Result.Matches C (fun _ _ => True) x x') :
    (Session.outcomeOf x).Matches C (Session.outcomeOf x') := by
  cases h with
  | ok => exact .finished
  | error hstop =>
    cases hstop with
    | failed he => exact .failed he
    | outOfFuel => exact .outOfFuel

/-- **A session equals one program.** Let each of some texts be without syntax errors. Run in a new
    session, one after the other up to the first one that fails, they end as their text does that is
    joined by line feeds, and they leave the same machine: the same output, clock and variables.
    Only the tokens of errors and functions may differ, and only in their lines: those of the joined
    text are further down by the lines of the texts before the one that they come from. So nothing
    differs at all if each text already stands behind as many line feeds as that. -/
theorem run_intercalate (settings : Settings) (fuel : Nat) (output : Sink) (sources : List String)
    (h : ∀ source ∈ sources, (parse (scan source)).2 = []) :
    let fresh : Session := { machine := { output } }
    let joined := fresh.run settings fuel ("\n".intercalate sources)
    let session := fresh.runUntilFailure settings fuel sources
    let level := fresh.runUntilFailure settings fuel (lowerAll 0 sources)
    (session.1.Matches (movedDown sources) joined.1 ∧
        session.2.machine.Matches (movedDown sources) joined.2.machine) ∧
      level.1 = joined.1 ∧ level.2.machine = joined.2.machine := by
  intro fresh joined session level
  have hparse := parse_intercalate 0 h
  rw [lowered_zero] at hparse
  have hrest : fresh.machine.AtRest := Machine.atRest_fresh output
  have hjoined : joined = _ := fresh.run_eq hparse
  obtain ⟨hsession, hsessionMachine⟩ := Session.runUntilFailure_eq settings fuel h hrest
  obtain ⟨hlevel, hlevelMachine⟩ :=
    Session.runUntilFailure_eq settings fuel (errors_of_mem_lowerAll 0 h) hrest
  have hself : fresh.machine.Matches (movedDown sources) fresh.machine :=
    ⟨Environment.matches_self_iff.2 fun f hf =>
      absurd hf (Environment.not_hasFunction (.inr rfl) f), rfl⟩
  -- Both programs have the same functions and differ in the lines of their tokens.
  have hruns := matches_executeAll settings fuel (matchesAll_lowerAll [] sources 0) _ _ hself
  rw [hjoined]
  refine ⟨?_, hlevel, hlevelMachine⟩
  rw [hsession, hsessionMachine]
  exact ⟨hruns.outcomeOf, hruns.after⟩

/-- Three texts. The last one calls a function of the second one, which negates a variable of the
    first one, that is `nil`. -/
def negatedNil : List String :=
  ["var a = nil; // nothing", "fun f()\n{ return -a; }", "// here\nf();"]

/-- How the texts end in a session. -/
def negatedNilInTurn : Outcome :=
  let fresh : Session := { machine := { output := {} } }
  (fresh.runUntilFailure { clock := fun _ => 0 } 16 negatedNil).1

/-- How they end as one text. -/
def negatedNilJoined : Outcome :=
  let fresh : Session := { machine := { output := {} } }
  (fresh.run { clock := fun _ => 0 } 16 ("\n".intercalate negatedNil)).1

/-- The error is on the second line of the second text and on the third line of the joined one. -/
theorem run_intercalate_negatedNil :
    (∀ source ∈ negatedNil, (parse (scan source)).2 = []) ∧
      ∃ e e', negatedNilInTurn = .failed (.runtime e) ∧ negatedNilJoined = .failed (.runtime e') ∧
        e.cause = e'.cause ∧ e.token.kind = e'.token.kind ∧ e.token.line = 2 ∧
        e'.token.line = 3 := by
  have hclean : ∀ source ∈ negatedNil, (parse (scan source)).2 = [] := by
    have hempty : negatedNil.all (fun source => (parse (scan source)).2.isEmpty) = true := by
      decide +kernel
    exact fun source hsource => List.isEmpty_iff.1 (List.all_eq_true.1 hempty source hsource)
  have hline : negatedNilInTurn.runtimeError?.map (·.token.line) = some 2 := by decide +kernel
  have hline' : negatedNilJoined.runtimeError?.map (·.token.line) = some 3 := by decide +kernel
  obtain ⟨e, he, hline⟩ := Option.map_eq_some_iff.1 hline
  obtain ⟨e', he', hline'⟩ := Option.map_eq_some_iff.1 hline'
  have hfirst := Outcome.eq_of_runtimeError? he
  have hsecond := Outcome.eq_of_runtimeError? he'
  have hends : negatedNilInTurn.Matches (movedDown negatedNil) negatedNilJoined :=
    (run_intercalate { clock := fun _ => 0 } 16 {} negatedNil hclean).1.1
  rw [hfirst, hsecond] at hends
  cases hends with
  | failed hmatches =>
    obtain ⟨place, htoken, -⟩ := hmatches.token
    exact ⟨hclean, e, e', hfirst, hsecond, hmatches.cause_eq,
      (movedDown negatedNil).kind_eq htoken, hline, hline'⟩

end Lox
