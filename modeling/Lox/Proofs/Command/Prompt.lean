import Lox.Command
import Lox.Proofs.Evaluation.Joined
import Lox.Proofs.Evaluation.Layout
import Lox.Proofs.Text.Line
import Lox.Proofs.Token.Trimmed

namespace Lox

/-!
# The prompt and files

A text whose lines are programs of their own can be typed at the prompt or run as a file. The prompt
runs each line without the white space around it, and goes on after a failure; the file is read as
one program. Up to the first failure both do the same, and so do several files that the text is cut
into at line ends.

* `parse_trimmed_line` — a line without the white space around it is read as the same program.
* `onLine_statements_lines` — up to lines, a text has the statements of its lines.
* `Session.runUntilFailure_onLine` — up to lines, a session depends on the statements of all texts.
* `Command.runPaths_lines` — files with a text do what its lines do in a session.
* `Command.runLines_of_failed`, `Command.runLines_of_forall_ne` — and so does the prompt.
* `Command.prompt_agrees` — the prompt, a file, and several files.
-/

variable {settings : Settings} {fuel : Nat} {body behind line : List Char}

/-! ### Reading lines -/

/-- Of what is read without errors, the end token is no part. -/
theorem parse_end {words : List Token} {last last' : Token} {program : List (Stmt Unit)}
    (h : parse (words ++ [last]) = (program, [])) (honly : ∀ t ∈ words, t.kind ≠ .eof)
    (hlast : last.kind = .eof) (hlast' : last'.kind = .eof) :
    parse (words ++ [last']) = (program, []) := by
  have hnone : ∀ t ∈ ([] : List Token), t.kind ≠ .eof := fun t ht => absurd ht List.not_mem_nil
  have hend : parse ([] ++ [last']) = ([], []) :=
    (Grammar.parse_eq_nil_iff hlast' hnone []).2 (.nil _)
  have happend := Grammar.parse_append hlast honly hlast' hnone h hend
  rwa [List.append_nil] at happend

/-- White space at the end of a text without syntax errors adds nothing to what is read. -/
theorem parse_append_whiteSpace (hbehind : ∀ c ∈ behind, isWhiteSpace c = true)
    (h : (parse (scan (String.ofList (body ++ behind)))).2 = []) :
    parse (scan (String.ofList body)) = parse (scan (String.ofList (body ++ behind))) := by
  obtain ⟨words, last, last', hscan, hscan', hlast, hlast', honly⟩ :=
    scan_of_append_whiteSpace hbehind (isKnown_of_parse_scan h)
  rw [hscan] at h ⊢
  rw [hscan']
  exact (parse_end (Prod.ext rfl h) honly hlast hlast').trans (Prod.ext rfl h.symm)

/-- A line is the same program without the white space around it. -/
theorem parse_trimmed_line (hline : '\n' ∉ line.dropLast)
    (h : (parse (scan (String.ofList line))).2 = []) :
    parse (scan (String.ofList (trimWhiteSpace (withoutLineEnd line)))) =
      parse (scan (String.ofList line)) := by
  obtain ⟨ending, hending, hwhite⟩ := exists_append_withoutLineEnd line
  obtain ⟨front, behind, hsaid, hfront, hbehind⟩ :=
    exists_append_trimWhiteSpace (withoutLineEnd line)
  generalize withoutLineEnd line = said at *
  generalize trimWhiteSpace said = trimmed at *
  have hall : line = front ++ (trimmed ++ (behind ++ ending)) := by
    rw [hending, hsaid]
    simp
  have hafter : ∀ c ∈ behind ++ ending, isWhiteSpace c = true :=
    List.forall_mem_append.2 ⟨hbehind, hwhite⟩
  by_cases htrimmed : trimmed = []
  · -- Nothing but white space: all of it is cut off the end.
    subst htrimmed
    have hblank : ∀ c ∈ line, isWhiteSpace c = true := by
      rw [hall]
      exact List.forall_mem_append.2 ⟨hfront, hafter⟩
    have hempty : (parse (scan (String.ofList ([] ++ line)))).2 = [] := h
    exact parse_append_whiteSpace hblank hempty
  · -- Something follows the white space in front, which then has no line feed.
    have hfeed : '\n' ∉ front := by
      intro hmem
      apply hline
      rw [hall, List.dropLast_append_of_ne_nil (by simp [htrimmed])]
      exact List.mem_append_left _ hmem
    rw [hall] at h ⊢
    have hscan := scan_of_whiteSpace_append hfront hfeed (isKnown_of_parse_scan h)
    rw [hscan] at h ⊢
    exact parse_append_whiteSpace hafter h

/-- Up to lines, a text whose lines are programs of their own has the statements of its lines. -/
theorem onLine_statements_lines (cs : List Char)
    (h : ∀ line ∈ lines cs, (parse (scan (String.ofList line))).2 = []) :
    (parse (scan (String.ofList cs))).2 = [] ∧
      (statements (String.ofList cs)).map (Stmt.relabel (Token.onLine 0)) =
        (((lines cs).map String.ofList).flatMap statements).map
          (Stmt.relabel (Token.onLine 0)) := by
  induction cs using lines_induction with
  | nil => exact ⟨rfl, rfl⟩
  | last body hbody hne =>
    rw [lines_of_notMem hbody hne] at h ⊢
    simpa using h
  | line body rest hbody ih =>
    rw [lines_append_lineFeed hbody] at h ⊢
    obtain ⟨hfirst, hrest⟩ := List.forall_mem_cons.1 h
    obtain ⟨hclean, hstatements⟩ := ih hrest
    -- The first line goes without its line feed, and the rest is further down.
    have hfeed : ∀ c ∈ ['\n'], isWhiteSpace c = true := List.forall_mem_singleton.2 rfl
    have hsource : parse (scan (String.ofList body)) =
        (statements (String.ofList (body ++ ['\n'])), []) :=
      (parse_append_whiteSpace hfeed hfirst).trans (Prod.ext rfl hfirst)
    have hsource' (k : Nat) : parse (scan (lowered k (String.ofList rest))) =
        (statements (lowered k (String.ofList rest)), []) :=
      Prod.ext rfl (errors_lowered k hclean)
    have hbelow (k : Nat) :
        (statements (lowered k (String.ofList rest))).map (Stmt.relabel (Token.onLine 0)) =
          (statements (String.ofList rest)).map (Stmt.relabel (Token.onLine 0)) := by
      refine (parse_congr_onLine ?_).1
      rw [scan_lowered, List.map_map]
      rfl
    have htext : String.ofList (body ++ '\n' :: rest) =
        String.ofList body ++ "\n" ++ String.ofList rest :=
      String.toList_inj.1 (by simp)
    have hparse := parse_append_lineFeed hsource (hsource' _)
    rw [← htext] at hparse
    refine ⟨congrArg Prod.snd hparse, ?_⟩
    rw [statements, hparse, List.map_append, hbelow, hstatements, List.map_cons,
      List.flatMap_cons, List.map_append]

/-- The same for several texts. -/
theorem onLine_statements_pieces (pieces : List String)
    (h : ∀ line ∈ pieces.flatMap (lines ·.toList), (parse (scan (String.ofList line))).2 = []) :
    (∀ piece ∈ pieces, (parse (scan piece)).2 = []) ∧
      (pieces.flatMap statements).map (Stmt.relabel (Token.onLine 0)) =
        (((pieces.flatMap (lines ·.toList)).map String.ofList).flatMap statements).map
          (Stmt.relabel (Token.onLine 0)) := by
  induction pieces with
  | nil => exact ⟨nofun, rfl⟩
  | cons piece pieces ih =>
    rw [List.flatMap_cons] at h ⊢
    obtain ⟨hpiece, hpieces⟩ := List.forall_mem_append.1 h
    obtain ⟨hclean, hstatements⟩ := onLine_statements_lines piece.toList hpiece
    obtain ⟨hcleans, hrest⟩ := ih hpieces
    rw [String.ofList_toList] at hclean hstatements
    refine ⟨List.forall_mem_cons.2 ⟨hclean, hcleans⟩, ?_⟩
    rw [List.flatMap_cons, List.map_append, hstatements, hrest, List.map_append,
      List.flatMap_append, List.map_append]

/-! ### Sessions -/

namespace Session

/-- How a text is run depends on what is read of it. -/
theorem run_congr (s : Session) {source source' : String}
    (h : parse (scan source) = parse (scan source')) :
    s.run settings fuel source = s.run settings fuel source' := by
  rw [run_eq_runParsed, run_eq_runParsed, h]

/-- A text without syntax errors can only fail at run time. -/
theorem status_of_run {s s' : Session} {source : String} {failure : Failure}
    (hclean : (parse (scan source)).2 = [])
    (h : s.run settings fuel source = (.failed failure, s')) : failure.status = 70 := by
  rw [s.run_eq (Prod.ext rfl hclean)] at h
  obtain ⟨houtcome, -⟩ := Prod.mk.inj h
  generalize Run.anew _ s.machine = x at houtcome
  cases x with
  | ok => cases houtcome
  | error stop =>
    cases stop with
    | failed e =>
      cases houtcome
      rfl
    | outOfFuel => cases houtcome

/-- A session that fails has a first line that fails. -/
theorem exists_of_runUntilFailure {texts : List (List Char)} {s s' : Session} {failure : Failure}
    (h : s.runUntilFailure settings fuel (texts.map String.ofList) = (.failed failure, s')) :
    ∃ before line after s₀, texts = before ++ line :: after ∧
      s.runUntilFailure settings fuel (before.map String.ofList) = (.finished, s₀) ∧
      s₀.run settings fuel (String.ofList line) = (.failed failure, s') := by
  induction texts generalizing s with
  | nil => cases h
  | cons line texts ih =>
    rw [List.map_cons, runUntilFailure] at h
    split at h
    · next s₁ hrun =>
      obtain ⟨before, line', after, s₀, rfl, hbefore, hline⟩ := ih h
      refine ⟨line :: before, line', after, s₀, rfl, ?_, hline⟩
      rw [List.map_cons, runUntilFailure, hrun]
      exact hbefore
    · exact ⟨[], line, texts, s, rfl, rfl, h⟩

/-- Up to lines, a session depends on the statements of all its texts. -/
theorem runUntilFailure_onLine (settings : Settings) (fuel : Nat) {sources sources' : List String}
    (h : ∀ source ∈ sources, (parse (scan source)).2 = [])
    (h' : ∀ source ∈ sources', (parse (scan source)).2 = [])
    (hsame : (sources.flatMap statements).map (Stmt.relabel (Token.onLine 0)) =
      (sources'.flatMap statements).map (Stmt.relabel (Token.onLine 0))) {s : Session}
    (hs : s.machine.AtRest) :
    (s.runUntilFailure settings fuel sources).1.relabel (Token.onLine 0) =
        (s.runUntilFailure settings fuel sources').1.relabel (Token.onLine 0) ∧
      (s.runUntilFailure settings fuel sources).2.machine.relabel (Token.onLine 0) =
        (s.runUntilFailure settings fuel sources').2.machine.relabel (Token.onLine 0) := by
  obtain ⟨houtcome, hmachine⟩ := runUntilFailure_eq settings fuel h hs
  obtain ⟨houtcome', hmachine'⟩ := runUntilFailure_eq settings fuel h' hs
  -- Both sessions are the run of one program, and the two programs are equal up to lines.
  have hloaded := relabelAll_load_congr hsame s
  have hmove := Token.isMove_onLine 0
  have hrun := executeAll_relabelAll hmove settings fuel
    (s.load (sources.flatMap statements)).1 s.machine
  have hrun' := executeAll_relabelAll hmove settings fuel
    (s.load (sources'.flatMap statements)).1 s.machine
  rw [houtcome, houtcome', hmachine, hmachine', ← outcomeOf_relabelResult,
    ← outcomeOf_relabelResult, ← after_eq_relabel hrun, ← after_eq_relabel hrun', ← hrun, ← hrun',
    hloaded]
  exact ⟨rfl, rfl⟩

/-- Runs texts one after the other, whatever becomes of them. -/
def runEach (settings : Settings) (fuel : Nat) : List String → Session → List Outcome × Session
  | [], s => ([], s)
  | source :: rest, s =>
    match s.run settings fuel source with
    | (outcome, s) =>
      match runEach settings fuel rest s with
      | (outcomes, s) => (outcome :: outcomes, s)

end Session

namespace Outcome

/-- The exit status after an outcome; none if the fuel ran out. -/
def status : Outcome → Option Nat
  | .finished => some 0
  | .failed failure => some failure.status
  | .outOfFuel => none

/-- The exit status does not depend on the tokens in an outcome. -/
theorem status_relabel (f : Token → Token) (outcome : Outcome) :
    (outcome.relabel f).status = outcome.status := by
  cases outcome with
  | failed failure => cases failure <;> rfl
  | _ => rfl

/-- An outcome that is a failure with other tokens is a failure. -/
theorem exists_eq_failed_of_relabel {f : Token → Token} {outcome : Outcome} {failure : Failure}
    (h : outcome.relabel f = .failed failure) : ∃ failure', outcome = .failed failure' := by
  cases outcome with
  | failed failure' => exact ⟨failure', rfl⟩
  | finished => cases h
  | outOfFuel => cases h

end Outcome

namespace Command

/-! ### Files -/

/-- What running files has written in the end, and its exit status. -/
def fileTranscript : Outcome × Session → Transcript
  | (outcome, s) =>
    { output := s.machine.output.written
      errors := match outcome with
        | .failed failure => failure.text ++ "\n"
        | _ => ""
      status := outcome.status }

/-- Files are run as texts in a session that ends with the first failure. -/
theorem runPaths_eq {read : String → Except String String} {paths sources : List String}
    (h : List.Forall₂ (fun path source => read path = .ok source) paths sources) (s : Session) :
    runPaths settings fuel read paths s =
      fileTranscript (s.runUntilFailure settings fuel sources) := by
  induction h generalizing s with
  | nil => rfl
  | @cons path source paths sources hread _ ih =>
    simp only [runPaths, hread, Session.runUntilFailure]
    cases hrun : s.run settings fuel source with
    | mk outcome s' =>
      cases outcome with
      | finished => exact ih s'
      | _ => rfl

/-- Files with the pieces of a text come to the same as the lines of the text in a session. -/
theorem runPaths_lines (settings : Settings) (fuel : Nat) {read : String → Except String String}
    {paths pieces : List String} {text : String}
    (hread : List.Forall₂ (fun path piece => read path = .ok piece) paths pieces)
    (hcut : IsCut text pieces)
    (hclean : ∀ line ∈ lines text.toList, (parse (scan (String.ofList line))).2 = [])
    {s : Session} (hs : s.machine.AtRest) :
    let inTurn := s.runUntilFailure settings fuel ((lines text.toList).map String.ofList)
    let files := runPaths settings fuel read paths s
    files.output = inTurn.2.machine.output.written ∧ files.status = inTurn.1.status ∧
      ((∀ failure, inTurn.1 ≠ .failed failure) → files.errors = "") := by
  intro inTurn files
  -- The session of the pieces has the statements of the session of the lines.
  obtain ⟨hpieces, hstatements⟩ :=
    onLine_statements_pieces pieces (hcut.flatMap_lines.symm ▸ hclean)
  rw [hcut.flatMap_lines] at hstatements
  have hlines : ∀ source ∈ (lines text.toList).map String.ofList, (parse (scan source)).2 = [] :=
    List.forall_mem_map.2 hclean
  obtain ⟨houtcome, hmachine⟩ :=
    Session.runUntilFailure_onLine settings fuel hpieces hlines hstatements hs
  have hfiles : files = fileTranscript (s.runUntilFailure settings fuel pieces) :=
    runPaths_eq hread s
  rw [hfiles]
  refine ⟨congrArg (fun m => m.output.written) hmachine, ?_, fun hgood => ?_⟩
  · have hstatus := congrArg Outcome.status houtcome
    rwa [Outcome.status_relabel, Outcome.status_relabel] at hstatus
  · cases hpiece : s.runUntilFailure settings fuel pieces with
    | mk outcome s' =>
      cases outcome with
      | failed failure =>
        rw [hpiece] at houtcome
        obtain ⟨failure', hfailure⟩ := Outcome.exists_eq_failed_of_relabel houtcome.symm
        exact absurd hfailure (hgood failure')
      | _ => rfl

/-! ### The prompt -/

/-- A line that is a program of its own, and in which nothing is taken back. -/
structure IsPlain (line : List Char) : Prop where
  lineFeed : '\n' ∉ line.dropLast
  clean : (parse (scan (String.ofList line))).2 = []
  said : withoutBackspaces (withoutLineEnd line) = withoutLineEnd line

variable {texts before rest : List (List Char)} {errors : String} {s s' : Session}

/-- The prompt runs a plain line as it stands. -/
theorem runLines_cons (h : IsPlain line) (rest : List (List Char)) (errors : String)
    (hs : s.machine.AtRest) :
    runLines settings fuel (line :: rest) errors s =
      match s.run settings fuel (String.ofList line) with
      | (.finished, s) => runLines settings fuel rest errors s
      | (.failed f, s) => runLines settings fuel rest (errors ++ f.text ++ "\n") s
      | (.outOfFuel, s) => ⟨s.machine.output.written, errors, none⟩ := by
  have hclean := h.clean
  have htrimmed := parse_trimmed_line h.lineFeed hclean
  -- Instead of the line, the prompt runs it without the white space around it.
  rw [← s.run_congr htrimmed, runLines, Request.ofLine, h.said]
  generalize trimWhiteSpace (withoutLineEnd line) = trimmed at htrimmed
  by_cases hempty : String.ofList trimmed = ""
  · -- The prompt passes over an empty line, and running no statements leaves the session as it is.
    have hnothing : s.run settings fuel "" = (.finished, s) := by
      have hparse : parse (scan "") = ([], []) := rfl
      rw [s.run_eq hparse, Run.after_anew hs.depth, Run.anew_eq _ hs.depth]
      rfl
    rw [if_pos hempty, hempty, hnothing]
  by_cases hquit : String.ofList trimmed = "quit"
  · -- The word alone is no program.
    rw [hquit] at htrimmed
    rw [← htrimmed] at hclean
    exact absurd hclean (by decide +kernel)
  · cases hrun : s.run settings fuel (String.ofList trimmed) with
    | mk outcome s' => cases outcome <;> simp only [if_neg hempty, if_neg hquit, hrun]

/-- Lines that are run to their ends come to the same as in a session. -/
theorem runLines_of_finished (hplain : ∀ line ∈ before, IsPlain line) (hs : s.machine.AtRest)
    (h : s.runUntilFailure settings fuel (before.map String.ofList) = (.finished, s')) :
    runLines settings fuel (before ++ rest) errors s = runLines settings fuel rest errors s' := by
  induction before generalizing s with
  | nil =>
    obtain ⟨-, rfl⟩ := Prod.mk.inj h
    rfl
  | cons line before ih =>
    obtain ⟨hline, hplain⟩ := List.forall_mem_cons.1 hplain
    have hrested := Session.atRest_run settings fuel (String.ofList line) hs
    rw [List.cons_append, runLines_cons hline _ _ hs]
    rw [List.map_cons, Session.runUntilFailure] at h
    -- The session goes on only behind a line that is run to its end.
    split at h
    · next s₁ hrun =>
      rw [hrun] at hrested ⊢
      exact ih hplain hrested h
    · next hne => exact absurd h fun h => hne _ h

/-- Where a line fails, the prompt reports it and goes on in the session that the line has left. -/
theorem runLines_of_failed (errors : String) {failure : Failure}
    (hplain : ∀ line ∈ texts, IsPlain line) (hs : s.machine.AtRest)
    (h : s.runUntilFailure settings fuel (texts.map String.ofList) = (.failed failure, s')) :
    failure.status = 70 ∧ ∃ before line after s₀, texts = before ++ line :: after ∧
      s.runUntilFailure settings fuel (before.map String.ofList) = (.finished, s₀) ∧
      s₀.run settings fuel (String.ofList line) = (.failed failure, s') ∧
      ∀ rest, runLines settings fuel (before ++ line :: rest) errors s =
        runLines settings fuel rest (errors ++ failure.text ++ "\n") s' := by
  obtain ⟨before, line, after, s₀, rfl, hbefore, hline⟩ := Session.exists_of_runUntilFailure h
  rw [List.forall_mem_append, List.forall_mem_cons] at hplain
  obtain ⟨hfirst, hat, -⟩ := hplain
  refine ⟨Session.status_of_run hat.clean hline, before, line, after, s₀, rfl, hbefore, hline,
    fun rest => ?_⟩
  -- Behind the lines before it, no scope is open that the prompt would not know of.
  have hrested : s₀.machine.AtRest := by
    have hrun := Session.atRest_runUntilFailure settings fuel (before.map String.ofList) hs
    rwa [hbefore] at hrun
  rw [runLines_of_finished hfirst hs hbefore, runLines_cons hat _ _ hrested, hline]

/-- Where no line fails, the prompt comes to the same as a session. -/
theorem runLines_of_forall_ne (hplain : ∀ line ∈ texts, IsPlain line) (hs : s.machine.AtRest)
    (h : ∀ failure, (s.runUntilFailure settings fuel (texts.map String.ofList)).1 ≠
      .failed failure) :
    runLines settings fuel texts errors s =
      let inTurn := s.runUntilFailure settings fuel (texts.map String.ofList)
      ⟨inTurn.2.machine.output.written, errors, inTurn.1.status⟩ := by
  induction texts generalizing s with
  | nil => rfl
  | cons line texts ih =>
    obtain ⟨hline, hplain⟩ := List.forall_mem_cons.1 hplain
    have hrested := Session.atRest_run settings fuel (String.ofList line) hs
    rw [runLines_cons hline _ _ hs]
    rw [List.map_cons, Session.runUntilFailure] at h ⊢
    cases hrun : s.run settings fuel (String.ofList line) with
    | mk outcome s₁ =>
      rw [hrun] at h hrested
      cases outcome with
      | finished => exact ih hplain hrested h
      | failed failure => exact absurd rfl (h failure)
      | outOfFuel => rfl

/-- Where the fuel suffices for each line, the prompt ends without complaint. -/
theorem runLines_of_runEach (hplain : ∀ line ∈ texts, IsPlain line) (hs : s.machine.AtRest)
    (hfuel : .outOfFuel ∉ (s.runEach settings fuel (texts.map String.ofList)).1) :
    (runLines settings fuel texts errors s).status = some 0 ∧
      (runLines settings fuel texts errors s).output =
        (s.runEach settings fuel (texts.map String.ofList)).2.machine.output.written := by
  induction texts generalizing s errors with
  | nil => exact ⟨rfl, rfl⟩
  | cons line texts ih =>
    obtain ⟨hline, hplain⟩ := List.forall_mem_cons.1 hplain
    have hrested := Session.atRest_run settings fuel (String.ofList line) hs
    rw [runLines_cons hline _ _ hs]
    simp only [List.map_cons, Session.runEach, List.mem_cons, not_or] at hfuel ⊢
    cases hrun : s.run settings fuel (String.ofList line) with
    | mk outcome s₁ =>
      rw [hrun] at hfuel hrested
      cases outcome with
      -- Any other outcome lets the prompt go on with the next line.
      | outOfFuel => exact absurd rfl hfuel.1
      | _ => exact ih hplain hrested hfuel.2

/-- **The prompt agrees with files.** Let each line of a text be a program of its own, and let the
    line editor hand it over as it stands.

    If no line fails, the prompt and a file with the text write the same output and no errors, and
    both exit with status 0. If a line fails, the file exits with status 70; its output is what the
    prompt has written when this line has failed, and the prompt goes on with the other lines in the
    session that this line has left. If a line does not come to an end, neither of the two does.
    The prompt runs each line whatever becomes of the others, and exits with status 0 if each of
    them comes to an end.

    Files that the text is cut into at line ends have the output and the exit status of the file
    with the whole text. -/
theorem prompt_agrees (settings : Settings) (fuel : Nat) (stdin : String)
    {read : String → Except String String} {path text : String} (hread : read path = .ok text)
    (hclean : ∀ line ∈ lines text.toList, (parse (scan (String.ofList line))).2 = [])
    (hsaid : ∀ line ∈ lines text.toList,
      withoutBackspaces (withoutLineEnd line) = withoutLineEnd line) :
    let fresh : Session := {}
    let sources := (lines text.toList).map String.ofList
    let inTurn := fresh.runUntilFailure settings fuel sources
    let each := fresh.runEach settings fuel sources
    let prompt := perform settings fuel read text .prompt
    let file := perform settings fuel read stdin (.runFiles [path])
    (inTurn.1 = .finished → prompt = file ∧ file.errors = "" ∧ file.status = some 0) ∧
      (∀ failure, inTurn.1 = .failed failure →
        ∃ before line after s₀ s₁, lines text.toList = before ++ line :: after ∧
          fresh.runUntilFailure settings fuel (before.map String.ofList) = (.finished, s₀) ∧
          s₀.run settings fuel (String.ofList line) = (.failed failure, s₁) ∧
          file.status = some 70 ∧ file.output = s₁.machine.output.written ∧
          file.output = (runLines settings fuel (before ++ [line]) "" fresh).output ∧
          prompt = runLines settings fuel after (failure.text ++ "\n") s₁) ∧
      (inTurn.1 = .outOfFuel → prompt = file ∧ file.status = none) ∧
      (.outOfFuel ∉ each.1 →
        prompt.status = some 0 ∧ prompt.output = each.2.machine.output.written) ∧
      ∀ paths pieces, List.Forall₂ (fun path piece => read path = .ok piece) paths pieces →
        IsCut text pieces →
        let files := perform settings fuel read stdin (.runFiles paths)
        files.output = file.output ∧ files.status = file.status := by
  intro fresh sources inTurn each prompt file
  have hplain : ∀ line ∈ lines text.toList, IsPlain line := fun line hline =>
    ⟨notMem_dropLast_of_mem_lines hline, hclean line hline, hsaid line hline⟩
  have hrest : fresh.machine.AtRest := Machine.atRest_fresh {}
  obtain ⟨houtput, hstatus, herrors⟩ : file.output = inTurn.2.machine.output.written ∧
      file.status = inTurn.1.status ∧
      ((∀ failure, inTurn.1 ≠ .failed failure) → file.errors = "") :=
    runPaths_lines settings fuel (.cons hread .nil) (isCut_singleton text) hclean hrest
  -- Without a failure, the prompt and the file both write what the lines write in turn.
  have hsame {outcome : Outcome} (hend : inTurn.1 = outcome)
      (hgood : ∀ failure, outcome ≠ .failed failure) :
      prompt = file ∧ file.errors = "" ∧ file.status = outcome.status := by
    subst hend
    have hprompt : prompt = ⟨inTurn.2.machine.output.written, "", inTurn.1.status⟩ :=
      runLines_of_forall_ne hplain hrest hgood
    rw [← houtput, ← hstatus, ← herrors hgood] at hprompt
    exact ⟨hprompt, herrors hgood, hstatus⟩
  refine ⟨fun hend => hsame hend fun _ h => Outcome.noConfusion h, fun failure hfailure => ?_,
    fun hend => ?_, runLines_of_runEach hplain hrest, fun paths pieces hreads hcut => ?_⟩
  · obtain ⟨hfailed, before, line, after, s₀, hlines, hbefore, hline, hgoes⟩ :=
      runLines_of_failed "" hplain hrest (Prod.ext hfailure rfl)
    rw [String.empty_append] at hgoes
    refine ⟨before, line, after, s₀, inTurn.2, hlines, hbefore, hline, ?_, houtput, ?_, ?_⟩
    · rw [hstatus, hfailure, Outcome.status, hfailed]
    · rw [hgoes]
      exact houtput
    · rw [← hgoes, ← hlines]
      rfl
  · obtain ⟨hprompt, -, hnone⟩ := hsame hend fun _ h => Outcome.noConfusion h
    exact ⟨hprompt, hnone⟩
  · obtain ⟨houtput', hstatus', -⟩ := runPaths_lines settings fuel hreads hcut hclean hrest
    exact ⟨houtput'.trans houtput.symm, hstatus'.trans hstatus.symm⟩

/-- A text with a blank line and a line with white space around it. The fourth line negates a
    string. -/
def negatedText : String := "var a = \"x\";\n\n  print a;\t\nprint -a;\nprint a;"

def negatedLines : List String :=
  ["var a = \"x\";\n", "\n", "  print a;\t\n", "print -a;\n", "print a;"]

/-- The first three lines. -/
def negatedTop : String := "var a = \"x\";\n\n  print a;\t\n"

/-- The other two lines. -/
def negatedBottom : String := "print -a;\nprint a;"

/-- A file with the text, and two files that it is cut into. -/
def negatedFile : String → Except String String
  | "whole" => .ok negatedText
  | "top" => .ok negatedTop
  | "bottom" => .ok negatedBottom
  | _ => .error "no such file"

/-- How the command ends with the text on the standard input. -/
def negatedStatus (command : Command) : Option Nat :=
  (perform { clock := fun _ => 0 } 16 negatedFile negatedText command).status

/-- The files fail at the fourth line, and the prompt goes on. -/
theorem prompt_agrees_negated :
    negatedFile "whole" = .ok negatedText ∧
      (∀ line ∈ lines negatedText.toList, (parse (scan (String.ofList line))).2 = []) ∧
      (∀ line ∈ lines negatedText.toList,
        withoutBackspaces (withoutLineEnd line) = withoutLineEnd line) ∧
      negatedStatus .prompt = some 0 ∧ negatedStatus (.runFiles ["whole"]) = some 70 ∧
      negatedStatus (.runFiles ["top", "bottom"]) = some 70 := by
  have hread : negatedFile "whole" = .ok negatedText := rfl
  have hlines : lines negatedText.toList = negatedLines.map String.toList := by decide +kernel
  have hclean : ∀ line ∈ lines negatedText.toList, (parse (scan (String.ofList line))).2 = [] := by
    have hempty : negatedLines.all (fun source => (parse (scan source)).2.isEmpty) = true := by
      decide +kernel
    rw [hlines, List.forall_mem_map]
    intro source hsource
    rw [String.ofList_toList]
    exact List.isEmpty_iff.1 (List.all_eq_true.1 hempty source hsource)
  have hsaid : ∀ line ∈ lines negatedText.toList,
      withoutBackspaces (withoutLineEnd line) = withoutLineEnd line := by
    have hnone : ∀ line ∈ lines negatedText.toList, backspace ∉ withoutLineEnd line := by
      decide +kernel
    exact fun line hline => withoutBackspaces_of_notMem (hnone line hline)
  have hcut : IsCut negatedText [negatedTop, negatedBottom] := by
    have hlast : negatedTop.toList.getLast? = some '\n' := by decide +kernel
    refine ⟨String.toList_inj.1 ?_, List.forall_mem_singleton.2 fun c hc => ?_⟩
    · rw [String.toList_join]
      decide +kernel
    · exact Option.some.inj (hc.symm.trans hlast)
  obtain ⟨-, hfails, -, heach, hfiles⟩ :=
    prompt_agrees { clock := fun _ => 0 } 16 negatedText hread hclean hsaid
  have hfailed : (({} : Session).runUntilFailure { clock := fun _ => 0 } 16
      ((lines negatedText.toList).map String.ofList)).1.runtimeError?.isSome = true := by
    decide +kernel
  have hends : (({} : Session).runEach { clock := fun _ => 0 } 16
      ((lines negatedText.toList).map String.ofList)).1.all (·.status.isSome) = true := by
    decide +kernel
  obtain ⟨e, he⟩ := Option.isSome_iff_exists.1 hfailed
  obtain ⟨-, -, -, -, -, -, -, -, hstatus, -⟩ := hfails _ (Outcome.eq_of_runtimeError? he)
  have hprompt := heach fun hmem => absurd (List.all_eq_true.1 hends _ hmem) Bool.false_ne_true
  have hpieces := hfiles ["top", "bottom"] [negatedTop, negatedBottom]
    (.cons rfl (.cons rfl .nil)) hcut
  exact ⟨hread, hclean, hsaid, hprompt.1, hstatus, hpieces.2.trans hstatus⟩

end Command

end Lox
