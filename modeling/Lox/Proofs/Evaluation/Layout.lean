import Lox.Proofs.Evaluation.ErrorToken
import Lox.Proofs.Evaluation.Relabelling
import Lox.Proofs.Evaluation.Scope
import Lox.Proofs.Evaluation.Simulation
import Lox.Proofs.Grammar.Unreadable
import Lox.Proofs.Token.Layout

namespace Lox

/-!
# Lines make no difference

Lines are handed on from tokens to trees, from trees to functions and errors, and from errors to
reports, and that is all. Tokens that differ in lines only are read as the same program, and such
programs do the same. So a text can be laid out anew without a change but in the lines reported.

Two things are equal up to lines if they are equal after all tokens in them are put on line 0.

* `parse_onLine` — without lines, what is read depends on the tokens without lines.
* `Session.runParsed_relabel` — running a program with other tokens, in a session.
* `Session.run_onLine` — without lines, a run depends on the tokens without lines.
* `lines_irrelevant` — reading, running and laying out anew.
-/

variable {f : Token → Token} {settings : Settings} {fuel : Nat}

/-! ### Reading -/

namespace Grammar

/-- Where the tokens are cut off does not depend on the lines that they are on. -/
theorem map_endedFrom (line : Nat) (tokens : List Token) :
    (endedFrom line tokens).map (Token.onLine 0) = endedFrom 0 (tokens.map (Token.onLine 0)) := by
  induction tokens generalizing line with
  | nil => rfl
  | cons token tokens ih =>
    rw [List.map_cons, endedFrom, endedFrom]
    have hkind : (token.onLine 0).kind = token.kind := rfl
    -- The line of an end token that is made up is that of a token on line 0.
    have hline : (if (token.onLine 0).isUnreadable then 0 else (token.onLine 0).line) = 0 :=
      ite_self 0
    rw [hkind, hline, ← ih]
    split <;> rfl

end Grammar

open Grammar

/-- Without lines, the statements and errors of a program depend on its tokens without lines. -/
theorem parse_onLine (tokens : List Token) :
    parse (endedFrom 0 (tokens.map (Token.onLine 0))) =
      ((parse tokens).1.map (Stmt.relabel (Token.onLine 0)),
        (parse tokens).2.map (SyntaxError.relabel (Token.onLine 0))) := by
  have hend : ∃ token ∈ ended tokens, token.kind = .eof := by
    obtain ⟨last, hlast, hended⟩ := exists_endedFrom_eq 1 tokens
    refine ⟨last, ?_, hlast⟩
    rw [ended_eq_endedFrom, hended]
    exact List.mem_append_right _ (List.mem_singleton_self last)
  rw [← map_endedFrom 1, ← ended_eq_endedFrom, parse_map (Token.isRelabelling_onLine 0) hend,
    parse_ended]

/-- From tokens that are equal up to lines, the same is read up to lines. -/
theorem parse_congr_onLine {tokens tokens' : List Token}
    (h : tokens.map (Token.onLine 0) = tokens'.map (Token.onLine 0)) :
    (parse tokens).1.map (Stmt.relabel (Token.onLine 0)) =
        (parse tokens').1.map (Stmt.relabel (Token.onLine 0)) ∧
      (parse tokens).2.map (SyntaxError.relabel (Token.onLine 0)) =
        (parse tokens').2.map (SyntaxError.relabel (Token.onLine 0)) := by
  have hparse := parse_onLine tokens
  rw [h, parse_onLine tokens'] at hparse
  obtain ⟨hstatements, herrors⟩ := Prod.mk.inj hparse
  exact ⟨hstatements.symm, herrors.symm⟩

/-! ### Running -/

/-- Applies a function to the tokens in a failure. -/
def Failure.relabel (f : Token → Token) : Failure → Failure
  | .syntactic errors => .syntactic (errors.map (SyntaxError.relabel f))
  | .runtime e => .runtime (e.relabel f)

/-- Applies a function to the tokens in an outcome. -/
def Outcome.relabel (f : Token → Token) : Outcome → Outcome
  | .finished => .finished
  | .failed failure => .failed (failure.relabel f)
  | .outOfFuel => .outOfFuel

/-- Applies a function to the tokens in a session. -/
def Session.relabel (f : Token → Token) (s : Session) : Session :=
  { s with machine := s.machine.relabel f }

/-- The report with another line. -/
def Report.onLine (line : Nat) (r : Report) : Report := { r with line }

/-- Of the tokens of a failure, reports show the lines as they are. -/
theorem Failure.reports_onLine (line : Nat) (failure : Failure) :
    (failure.relabel (Token.onLine line)).reports = failure.reports.map (Report.onLine line) := by
  cases failure with
  | syntactic errors =>
    show (errors.map _).map SyntaxError.report = (errors.map SyntaxError.report).map _
    rw [List.map_map, List.map_map]
    rfl
  | runtime e => rfl

namespace Session

/-- Runs what was read of a program text. -/
def runParsed (settings : Settings) (fuel : Nat) (s : Session) :
    List (Stmt Unit) × List SyntaxError → Outcome × Session
  | (program, []) =>
    match s.load program with
    | (program, s) => s.execute settings fuel program
  | (_, errors) => (.failed (.syntactic errors), s)

/-- Running a text is running what is read from its tokens. -/
theorem run_eq_runParsed (s : Session) (source : String) :
    s.run settings fuel source = s.runParsed settings fuel (parse (scan source)) := by
  unfold run runParsed
  rfl

/-- Functions get the same numbers, whichever lines their tokens are on. -/
theorem load_relabel (s : Session) (program : List (Stmt Unit)) :
    (s.relabel f).load (Stmt.relabelAll f program) =
      (Stmt.relabelAll f (s.load program).1, (s.load program).2.relabel f) := by
  unfold load
  simp only [Stmt.numberAll_relabelAll, relabel]

/-- Loading does not look at the tokens that are changed. -/
theorem relabelAll_load_congr {program program' : List (Stmt Unit)}
    (h : program.map (Stmt.relabel f) = program'.map (Stmt.relabel f)) (s : Session) :
    Stmt.relabelAll f (s.load program).1 = Stmt.relabelAll f (s.load program').1 := by
  rw [← Stmt.relabelAll_eq_map, ← Stmt.relabelAll_eq_map] at h
  have hload := congrArg (s.relabel f).load h
  rw [load_relabel, load_relabel] at hload
  exact congrArg Prod.fst hload

/-- With other tokens the outcome of a run is the same at other tokens. -/
theorem outcomeOf_relabelResult (x : EStateM.Result Stop Machine Unit) :
    outcomeOf (Run.relabelResult f x) = (outcomeOf x).relabel f := by
  cases x with
  | ok => rfl
  | error stop => cases stop <;> rfl

/-- The number of open calls has nothing to do with tokens. -/
theorem anew_relabel (hf : Token.IsMove f) (settings : Settings) (fuel : Nat)
    (program : List (Stmt Nat)) (m : Machine) :
    Run.anew (executeAll settings fuel (Stmt.relabelAll f program)) (m.relabel f) =
      Run.relabelResult f (Run.anew (executeAll settings fuel program) m) :=
  executeAll_relabelAll hf settings fuel program { m with depth := 0 }

/-- Where two runs have the same result up to tokens, they leave the same machine up to tokens. -/
theorem after_eq_relabel {r r' : Run Unit} {m m' : Machine}
    (h : r' m' = Run.relabelResult f (r m)) : Run.after r' m' = (Run.after r m).relabel f := by
  unfold Run.after
  rw [h]
  cases r m <;> rfl

/-- Executing a program with other tokens is executing it and putting the other tokens in
    afterwards. -/
theorem execute_relabel (hf : Token.IsMove f) (s : Session) (program : List (Stmt Nat)) :
    (s.relabel f).execute settings fuel (Stmt.relabelAll f program) =
      ((s.execute settings fuel program).1.relabel f,
        (s.execute settings fuel program).2.relabel f) := by
  have hrun := anew_relabel hf settings fuel program s.machine
  rw [execute_eq, execute_eq, relabel, after_eq_relabel hrun, hrun, outcomeOf_relabelResult,
    relabel]

/-- **Running a program with other tokens** in a session with other tokens. -/
theorem runParsed_relabel (hf : Token.IsMove f) (s : Session)
    (program : List (Stmt Unit)) (errors : List SyntaxError) :
    (s.relabel f).runParsed settings fuel
        (program.map (Stmt.relabel f), errors.map (SyntaxError.relabel f)) =
      ((s.runParsed settings fuel (program, errors)).1.relabel f,
        (s.runParsed settings fuel (program, errors)).2.relabel f) := by
  cases errors with
  | nil =>
    show execute settings fuel ((s.relabel f).load _).2 ((s.relabel f).load _).1 = _
    rw [← Stmt.relabelAll_eq_map, load_relabel, execute_relabel hf]
    rfl
  | cons e errors => rfl

/-- Without lines, how a text is run depends on its tokens and the session without lines. -/
theorem run_onLine (settings : Settings) (fuel : Nat) (s : Session) (source : String) :
    ((s.run settings fuel source).1.relabel (Token.onLine 0),
        (s.run settings fuel source).2.relabel (Token.onLine 0)) =
      (s.relabel (Token.onLine 0)).runParsed settings fuel
        (parse (endedFrom 0 ((scan source).map (Token.onLine 0)))) := by
  rw [parse_onLine, runParsed_relabel (Token.isMove_onLine 0), run_eq_runParsed]

end Session

/-- Without lines, what a program comes to depends on the program and the machine without lines. -/
theorem exists_terminates_relabel_iff (hf : Token.IsMove f) {program : List (Stmt Nat)}
    {m : Machine} {r : EStateM.Result Stop Machine Unit} :
    (∃ x, Terminates (fun fuel => executeAll settings fuel program) m x ∧
        Run.relabelResult f x = r) ↔
      Terminates (fun fuel => executeAll settings fuel (Stmt.relabelAll f program))
        (m.relabel f) r := by
  constructor
  · rintro ⟨x, ⟨hfinal, fuel, rfl⟩, rfl⟩
    exact ⟨Run.isFinal_relabelResult.2 hfinal, fuel,
      executeAll_relabelAll hf settings fuel program m⟩
  · rintro ⟨hfinal, fuel, hrun⟩
    have hrun : Run.relabelResult f (executeAll settings fuel program m) = r :=
      (executeAll_relabelAll hf settings fuel program m).symm.trans hrun
    refine ⟨_, ⟨?_, fuel, rfl⟩, hrun⟩
    rw [← hrun] at hfinal
    exact Run.isFinal_relabelResult.1 hfinal

/-- **Lines make no difference.** From tokens that are equal up to lines, statements and errors are
    read that are equal up to lines. Programs that are equal up to lines, run on machines that are
    equal up to lines, both end or neither does, and what they end with is equal up to lines: error
    and environment, with the same output. So a text in another layout has the same effect in a
    session, and nothing but the lines of its reports may be different. -/
theorem lines_irrelevant :
    (∀ tokens tokens' : List Token,
      tokens.map (Token.onLine 0) = tokens'.map (Token.onLine 0) →
      (parse tokens).1.map (Stmt.relabel (Token.onLine 0)) =
          (parse tokens').1.map (Stmt.relabel (Token.onLine 0)) ∧
        (parse tokens).2.map (SyntaxError.relabel (Token.onLine 0)) =
          (parse tokens').2.map (SyntaxError.relabel (Token.onLine 0))) ∧
    (∀ (settings : Settings) (program program' : List (Stmt Nat)) (m m' : Machine),
      Stmt.relabelAll (Token.onLine 0) program = Stmt.relabelAll (Token.onLine 0) program' →
      m.relabel (Token.onLine 0) = m'.relabel (Token.onLine 0) →
      ∀ r, (∃ x, Terminates (fun fuel => executeAll settings fuel program) m x ∧
          Run.relabelResult (Token.onLine 0) x = r) ↔
        ∃ x', Terminates (fun fuel => executeAll settings fuel program') m' x' ∧
          Run.relabelResult (Token.onLine 0) x' = r) ∧
    ∀ (settings : Settings) (fuel : Nat) (source source' : String) (s s' : Session),
      Relaid none source.toList source'.toList →
      s.relabel (Token.onLine 0) = s'.relabel (Token.onLine 0) →
      (s.run settings fuel source).1.relabel (Token.onLine 0) =
          (s'.run settings fuel source').1.relabel (Token.onLine 0) ∧
        (s.run settings fuel source).2.relabel (Token.onLine 0) =
          (s'.run settings fuel source').2.relabel (Token.onLine 0) ∧
        ∀ failure failure', (s.run settings fuel source).1 = .failed failure →
          (s'.run settings fuel source').1 = .failed failure' →
          failure.reports.map (Report.onLine 0) = failure'.reports.map (Report.onLine 0) := by
  refine ⟨fun _ _ => parse_congr_onLine, fun settings program program' m m' hprogram hm r => ?_,
    fun settings fuel source source' s s' hsource hs => ?_⟩
  · rw [exists_terminates_relabel_iff (Token.isMove_onLine 0),
      exists_terminates_relabel_iff (Token.isMove_onLine 0), hprogram, hm]
  · -- Both runs are those of the same tokens, on one line, in the same session.
    have hrun := s.run_onLine settings fuel source
    rw [scan_relaid hsource, hs, ← s'.run_onLine] at hrun
    obtain ⟨houtcome, hsession⟩ := Prod.mk.inj hrun
    refine ⟨houtcome, hsession, fun failure failure' hfailure hfailure' => ?_⟩
    rw [hfailure, hfailure'] at houtcome
    rw [← failure.reports_onLine, ← failure'.reports_onLine]
    exact congrArg Failure.reports (Outcome.failed.inj houtcome)

/-- A program that negates `nil`. -/
def negation₁ : String := "print -nil;"

/-- The same program with a comment and a blank line in it. -/
def negation₂ : String := "print // minus\n\n -nil;"

/-- The two texts differ in their layout only. -/
theorem relaid_negation : Relaid none negation₁.toList negation₂.toList := by
  have hfeed : IsBlank '\n' := .inr (.inr (.inr rfl))
  have hlines : Gap "\n\n".toList " -nil;".toList := .blank hfeed (.blank hfeed (.nil _))
  have hcomment : Gap ('/' :: '/' :: (" minus".toList ++ "\n\n".toList)) " -nil;".toList :=
    .comment (by simp) (by simp) hlines
  have hreads : Cursor.Reads (Cursor.start negation₁) [⟨Keyword.print_, "print", 1, none⟩]
      ⟨" -nil;".toList, 1⟩ := .singleton rfl nofun
  have hallows : ∀ t ∈ [(⟨Keyword.print_, "print", 1, none⟩ : Token)].getLast?,
      ∀ c ∈ (' ' :: '/' :: '/' :: (" minus".toList ++ "\n\n".toList)).head?, t.AllowsGap c := by
    rintro _ ⟨⟩ c ⟨⟩
    exact ⟨nofun, fun h => absurd h (by decide)⟩
  obtain ⟨front, hfront, hrelaid⟩ := relaid_insert hreads (.blank (.inl rfl) hcomment) hallows
  obtain rfl : "print".toList = front := List.append_cancel_right hfront
  exact hrelaid

/-- The statements of a text, numbered for a first run. -/
def loadedNegation (source : String) : List (Stmt Nat) :=
  (({} : Session).load (parse (scan source)).1).1

/-- How a text ends in a new session. -/
def negationOutcome (source : String) : Outcome :=
  (({} : Session).run { clock := fun _ => 0 } 16 source).1

/-- The minus is reported on the first line of the one text and on the third line of the other. -/
theorem lines_irrelevant_negation :
    (scan negation₁).map (Token.onLine 0) = (scan negation₂).map (Token.onLine 0) ∧
      (parse (scan negation₁)).1.map (Stmt.relabel (Token.onLine 0)) =
        (parse (scan negation₂)).1.map (Stmt.relabel (Token.onLine 0)) ∧
      (∀ r, (∃ x, Terminates (fun fuel => executeAll { clock := fun _ => 0 } fuel
            (loadedNegation negation₁)) {} x ∧ Run.relabelResult (Token.onLine 0) x = r) ↔
        ∃ x', Terminates (fun fuel => executeAll { clock := fun _ => 0 } fuel
            (loadedNegation negation₂)) {} x' ∧ Run.relabelResult (Token.onLine 0) x' = r) ∧
      ∃ e e', negationOutcome negation₁ = .failed (.runtime e) ∧
        negationOutcome negation₂ = .failed (.runtime e') ∧ e.token.line = 1 ∧
        e'.token.line = 3 ∧ e.report.onLine 0 = e'.report.onLine 0 := by
  obtain ⟨hparse, hterminates, hrun⟩ := lines_irrelevant
  have hscan := scan_relaid relaid_negation
  have hstatements := (hparse _ _ hscan).1
  have hloaded : Stmt.relabelAll (Token.onLine 0) (loadedNegation negation₁) =
      Stmt.relabelAll (Token.onLine 0) (loadedNegation negation₂) :=
    Session.relabelAll_load_congr hstatements {}
  have hline : (negationOutcome negation₁).runtimeError?.map (·.token.line) = some 1 := by
    decide +kernel
  have hline' : (negationOutcome negation₂).runtimeError?.map (·.token.line) = some 3 := by
    decide +kernel
  obtain ⟨e, he, hline⟩ := Option.map_eq_some_iff.1 hline
  obtain ⟨e', he', hline'⟩ := Option.map_eq_some_iff.1 hline'
  have hfirst := Outcome.eq_of_runtimeError? he
  have hsecond := Outcome.eq_of_runtimeError? he'
  refine ⟨hscan, hstatements, hterminates _ _ _ {} {} hloaded rfl, e, e', hfirst, hsecond, hline,
    hline', ?_⟩
  obtain ⟨-, -, hreports⟩ :=
    hrun { clock := fun _ => 0 } 16 negation₁ negation₂ {} {} relaid_negation rfl
  exact (List.cons.inj (hreports _ _ hfirst hsecond)).1

end Lox
