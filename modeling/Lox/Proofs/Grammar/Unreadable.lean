import Lox.Proofs.Grammar.Parallel
import Lox.Proofs.Syntax.Correspondence

namespace Lox

/-!
# Unreadable tokens and the end of the text

Where a list of tokens ends and which of them are unreadable makes no difference to the grammar.
What stands behind the first end token is not looked at, and a missing end token is made up.
Unreadable tokens are passed over: each one leaves its own error behind, and the statements and the
other errors are those of the readable tokens.

* `Token.isUnreadable`, `Token.lexicalError?` — unreadable tokens and their errors.
* `ended` — a list of tokens cut behind its first end token, or with one added.
* `parse_ended` — parsing goes up to the first end token.
* `parse_filter_readable` — parsing the readable tokens only.
* `filter_isLexical_parse` — the errors of unreadable tokens.
* `parse_unreadable` — the three together.
-/

/-- Whether a token is a piece of text that is no token. -/
def Token.isUnreadable (t : Token) : Bool :=
  match t.kind with
  | .invalid _ => true
  | _ => false

/-- What is recorded when an unreadable token is passed: what the scanner has to say about it. -/
def Token.lexicalError? (t : Token) : Option SyntaxError :=
  match t.kind with
  | .invalid cause => some ⟨t, .lexical cause⟩
  | _ => none

/-- Whether an error is that of an unreadable token. -/
def SyntaxError.isLexical (e : SyntaxError) : Bool :=
  match e.cause with
  | .lexical _ => true
  | _ => false

/-- A token of an invalid kind is unreadable. -/
theorem Token.isUnreadable_of_invalid {t : Token} {cause : LexicalError}
    (h : t.kind = .invalid cause) : t.isUnreadable = true := by
  rw [isUnreadable, h]

/-- All other tokens are those that the grammar knows. -/
theorem Token.isUnreadable_eq_false_iff {t : Token} : t.isUnreadable = false ↔ t.kind.IsKnown := by
  constructor
  · intro h cause hk
    rw [isUnreadable_of_invalid hk] at h
    exact absurd h (by simp)
  · intro h
    rw [isUnreadable]
    split
    · next cause hk => exact absurd hk (h cause)
    · rfl

/-- An unreadable token leaves its own error behind. -/
theorem Token.lexicalError?_of_invalid {t : Token} {cause : LexicalError}
    (h : t.kind = .invalid cause) : t.lexicalError? = some ⟨t, .lexical cause⟩ := by
  rw [lexicalError?, h]

/-- A token that the grammar knows leaves none. -/
theorem Token.lexicalError?_of_isKnown {t : Token} (h : t.kind.IsKnown) :
    t.lexicalError? = none := by
  rw [lexicalError?]
  split
  · next cause hk => exact absurd hk (h cause)
  · rfl

/-- A token is unreadable, with what the scanner has to say, or else known to the grammar. -/
theorem Token.invalid_or_isKnown (t : Token) :
    (∃ cause, t.kind = .invalid cause) ∨ t.kind.IsKnown := by
  by_cases h : t.kind.IsKnown
  · exact .inr h
  · exact .inl (by simpa [Token.Kind.IsKnown] using h)

/-- The errors that rules find are not those of the scanner. -/
theorem SyntaxError.isLexical_of_isGrammatical {token : Token} {cause : SyntaxError.Cause}
    (h : cause.IsGrammatical) : SyntaxError.isLexical ⟨token, cause⟩ = false := by
  cases cause with
  | lexical => exact h.elim
  | _ => rfl

/-! ### The end of the text -/

/-- The line of the last token that the grammar knows; the first line if there is none. -/
def lastLine (tokens : List Token) : Nat :=
  ((tokens.filter (!·.isUnreadable)).getLast?.map Token.line).getD 1

/-- The tokens up to the first end token. If there is none, one is made up behind the last line. -/
def ended (tokens : List Token) : List Token :=
  match tokens.findIdx? (·.kind == .eof) with
  | some i => tokens.take (i + 1)
  | none => tokens ++ [Token.eof (lastLine tokens)]

namespace Grammar

/-- The tokens up to the first end token, read one by one. The last token that the grammar knew is
    on the line `line`. -/
def endedFrom (line : Nat) : List Token → List Token
  | [] => [Token.eof line]
  | token :: tokens =>
    if token.kind = .eof then [token]
    else token :: endedFrom (if token.isUnreadable then line else token.line) tokens

/-- Reading the tokens one by one comes to the same list. -/
theorem endedFrom_eq (line : Nat) (tokens : List Token) :
    endedFrom line tokens =
      match tokens.findIdx? (·.kind == .eof) with
      | some i => tokens.take (i + 1)
      | none =>
        tokens ++
          [Token.eof (((tokens.filter (!·.isUnreadable)).getLast?.map Token.line).getD line)] := by
  -- The line is carried along, so the induction is for every line.
  induction tokens generalizing line with
  | nil => rfl
  | cons token tokens ih =>
    rw [endedFrom, List.findIdx?_cons]
    by_cases heof : token.kind = .eof
    · rw [if_pos heof, if_pos (beq_iff_eq.2 heof)]
      rfl
    · rw [if_neg heof, if_neg fun h => heof (beq_iff_eq.1 h), ih]
      cases tokens.findIdx? (·.kind == .eof) with
      | some i => rfl
      | none =>
        dsimp only [Option.map_none]
        cases hu : token.isUnreadable with
        | true => simp [hu]
        | false =>
          rw [List.filter_cons_of_pos (by simp [hu]), List.getLast?_cons, List.cons_append]
          cases (tokens.filter (!·.isUnreadable)).getLast? <;> rfl

/-- Before the first token, the line is the first one. -/
theorem ended_eq_endedFrom (tokens : List Token) : ended tokens = endedFrom 1 tokens :=
  (endedFrom_eq 1 tokens).symm

/-- A list that ends with its only end token begins with the tokens in front of it. -/
theorem exists_endedFrom_eq (line : Nat) (tokens : List Token) :
    ∃ last : Token, last.kind = .eof ∧
      endedFrom line tokens = tokens.takeWhile (·.kind != .eof) ++ [last] := by
  induction tokens generalizing line with
  | nil => exact ⟨Token.eof line, rfl, rfl⟩
  | cons token tokens ih =>
    rw [endedFrom]
    by_cases heof : token.kind = .eof
    · refine ⟨token, heof, ?_⟩
      rw [if_pos heof, List.takeWhile_cons_of_neg (by simp [heof]), List.nil_append]
    · obtain ⟨last, hlast, hrest⟩ := ih (if token.isUnreadable then line else token.line)
      refine ⟨last, hlast, ?_⟩
      rw [if_neg heof, List.takeWhile_cons_of_pos (by simp [heof]), hrest, List.cons_append]

/-! ### Reading up to the first end token -/

/-- Two states that are the same, but for what comes behind the first end token. -/
structure CutAtEnd (s s' : State) : Prop where
  current_eq : s'.current = s.current
  errors_eq : s'.errors = s.errors
  functionDepth_eq : s'.functionDepth = s.functionDepth
  nesting_eq : s'.nesting = s.nesting
  ahead_eq : s.current.kind ≠ .eof → s'.ahead = endedFrom s.current.line s.ahead

/-- Looking for the next token comes to the same one, or to the one that is made up. -/
theorem cutAtEnd_pull (line line' : Nat) (errors : Array SyntaxError) (ahead : List Token)
    (functionDepth nesting : Nat) :
    CutAtEnd
      { current := (State.pull line errors ahead).1
        ahead := (State.pull line errors ahead).2.1
        errors := (State.pull line errors ahead).2.2
        functionDepth, nesting }
      { current := (State.pull line' errors (endedFrom line ahead)).1
        ahead := (State.pull line' errors (endedFrom line ahead)).2.1
        errors := (State.pull line' errors (endedFrom line ahead)).2.2
        functionDepth, nesting } := by
  induction ahead generalizing errors with
  | nil =>
    rw [endedFrom, State.pull_of_isKnown (by simp)]
    exact ⟨rfl, rfl, rfl, rfl, fun h => absurd rfl h⟩
  | cons token ahead ih =>
    rcases token.invalid_or_isKnown with ⟨cause, hc⟩ | hknown
    · -- An unreadable token is skipped on both sides and does not change the line.
      rw [endedFrom, if_neg (by simp [hc]), if_pos (token.isUnreadable_of_invalid hc),
        State.pull_of_invalid hc, State.pull_of_invalid hc]
      exact ih _
    · rw [State.pull_of_isKnown hknown, endedFrom]
      by_cases heof : token.kind = .eof
      · rw [if_pos heof, State.pull_of_isKnown hknown]
        exact ⟨rfl, rfl, rfl, rfl, fun h => absurd heof h⟩
      · rw [if_neg heof, State.pull_of_isKnown hknown]
        refine ⟨rfl, rfl, rfl, rfl, fun _ => ?_⟩
        rw [Token.isUnreadable_eq_false_iff.2 hknown]
        rfl

/-- Cutting off what is behind the end is kept by all that rules do. -/
theorem simulation_cutAtEnd : Simulation id CutAtEnd where
  relabelling := ⟨fun _ => rfl, fun _ => rfl⟩
  current_eq h := h.current_eq
  functionDepth_eq h := h.functionDepth_eq
  nesting_eq h := h.nesting_eq
  advanced {s s'} h := by
    by_cases heof : s.current.kind = .eof
    · -- Behind the end nothing is taken, so what is cut off there is never seen.
      rw [State.advanced_of_atEnd heof, State.advanced_of_atEnd (h.current_eq ▸ heof)]
      exact h
    · rw [State.advanced_of_ne_eof heof, State.advanced_of_ne_eof (h.current_eq ▸ heof),
        h.errors_eq, h.ahead_eq heof, h.functionDepth_eq, h.nesting_eq]
      exact cutAtEnd_pull s.current.line s'.current.line s.errors s.ahead _ _
  record token cause h _ := by
    refine ⟨h.current_eq, ?_, h.functionDepth_eq, h.nesting_eq, h.ahead_eq⟩
    simp only [State.record, h.errors_eq, id]
  withLevels k l h :=
    ⟨h.current_eq, h.errors_eq, congrArg k h.functionDepth_eq, congrArg l h.nesting_eq, h.ahead_eq⟩

/-- Parsing goes up to the first end token, and makes one up if there is none. -/
theorem parse_ended (tokens : List Token) : parse (ended tokens) = parse tokens := by
  have hstart : CutAtEnd (State.start tokens) (State.start (endedFrom 1 tokens)) :=
    cutAtEnd_pull 1 1 #[] tokens 0 0
  obtain ⟨hprogram, t, t', -, ht, herrors, herrors'⟩ := agree_parse simulation_cutAtEnd hstart
  rw [Stmt.relabel_id, List.map_id] at hprogram
  rw [ended_eq_endedFrom]
  exact Prod.ext hprogram (by rw [herrors, herrors', ht.errors_eq])

/-! ### Reading the readable tokens only -/

/-- A state, and the one without the unreadable tokens and the errors that they leave behind. -/
structure WithoutUnreadable (s s' : State) : Prop where
  current_eq : s'.current = s.current
  ahead_eq : s'.ahead = s.ahead.filter (!·.isUnreadable)
  errors_eq : s'.errors.toList = s.errors.toList.filter (!·.isLexical)
  functionDepth_eq : s'.functionDepth = s.functionDepth
  nesting_eq : s'.nesting = s.nesting

/-- Looking for the next token passes over unreadable ones, or finds none on the other side. -/
theorem withoutUnreadable_pull (line : Nat) (errors errors' : Array SyntaxError)
    (ahead : List Token) (functionDepth nesting : Nat)
    (herrors : errors'.toList = errors.toList.filter (!·.isLexical)) :
    WithoutUnreadable
      { current := (State.pull line errors ahead).1
        ahead := (State.pull line errors ahead).2.1
        errors := (State.pull line errors ahead).2.2
        functionDepth, nesting }
      { current := (State.pull line errors' (ahead.filter (!·.isUnreadable))).1
        ahead := (State.pull line errors' (ahead.filter (!·.isUnreadable))).2.1
        errors := (State.pull line errors' (ahead.filter (!·.isUnreadable))).2.2
        functionDepth, nesting } := by
  induction ahead generalizing errors with
  | nil => exact ⟨rfl, rfl, herrors, rfl, rfl⟩
  | cons token ahead ih =>
    rcases token.invalid_or_isKnown with ⟨cause, hc⟩ | hknown
    · rw [List.filter_cons_of_neg (by simp [token.isUnreadable_of_invalid hc]),
        State.pull_of_invalid hc]
      -- The token is skipped on one side, and its error is one that the other side leaves out.
      refine ih _ ?_
      rw [Array.toList_push, List.filter_append, herrors]
      simp [SyntaxError.isLexical]
    · rw [List.filter_cons_of_pos (by simp [Token.isUnreadable_eq_false_iff.2 hknown]),
        State.pull_of_isKnown hknown, State.pull_of_isKnown hknown]
      exact ⟨rfl, rfl, herrors, rfl, rfl⟩

/-- Leaving out the unreadable tokens and their errors is kept by all that rules do. -/
theorem simulation_withoutUnreadable : Simulation id WithoutUnreadable where
  relabelling := ⟨fun _ => rfl, fun _ => rfl⟩
  current_eq h := h.current_eq
  functionDepth_eq h := h.functionDepth_eq
  nesting_eq h := h.nesting_eq
  advanced {s s'} h := by
    by_cases heof : s.current.kind = .eof
    · rw [State.advanced_of_atEnd heof, State.advanced_of_atEnd (h.current_eq ▸ heof)]
      exact h
    · rw [State.advanced_of_ne_eof heof, State.advanced_of_ne_eof (h.current_eq ▸ heof),
        h.current_eq, h.ahead_eq, h.functionDepth_eq, h.nesting_eq]
      exact withoutUnreadable_pull s.current.line s.errors s'.errors s.ahead _ _ h.errors_eq
  record token cause h hc := by
    refine ⟨h.current_eq, h.ahead_eq, ?_, h.functionDepth_eq, h.nesting_eq⟩
    simp [State.record, h.errors_eq, SyntaxError.isLexical_of_isGrammatical hc]
  withLevels k l h :=
    ⟨h.current_eq, h.ahead_eq, h.errors_eq, congrArg k h.functionDepth_eq,
      congrArg l h.nesting_eq⟩

/-- Without the unreadable tokens there are the same statements, and the other errors. -/
theorem parse_filter_readable (tokens : List Token) :
    parse (tokens.filter (!·.isUnreadable)) =
      ((parse tokens).1, (parse tokens).2.filter (!·.isLexical)) := by
  have hstart : WithoutUnreadable (State.start tokens)
      (State.start (tokens.filter (!·.isUnreadable))) :=
    withoutUnreadable_pull 1 #[] #[] tokens 0 0 rfl
  obtain ⟨hprogram, t, t', -, ht, herrors, herrors'⟩ :=
    agree_parse simulation_withoutUnreadable hstart
  rw [Stmt.relabel_id, List.map_id] at hprogram
  exact Prod.ext hprogram (by rw [herrors, herrors', ht.errors_eq])

/-! ### The errors of unreadable tokens -/

/-- The errors of the unreadable tokens that have been passed, and of those to come. -/
def State.lexicalErrors (s : State) : List SyntaxError :=
  s.errors.toList.filter (·.isLexical) ++
    if s.atEnd then []
    else (s.ahead.takeWhile (·.kind != .eof)).filterMap Token.lexicalError?

/-- An unreadable token to come is one whose error is recorded when it is passed. -/
theorem lexicalErrors_pull (line : Nat) (errors : Array SyntaxError) (ahead : List Token)
    (functionDepth nesting : Nat) :
    State.lexicalErrors
        { current := (State.pull line errors ahead).1
          ahead := (State.pull line errors ahead).2.1
          errors := (State.pull line errors ahead).2.2
          functionDepth, nesting } =
      errors.toList.filter (·.isLexical) ++
        (ahead.takeWhile (·.kind != .eof)).filterMap Token.lexicalError? := by
  induction ahead generalizing errors with
  | nil => rfl
  | cons token ahead ih =>
    rcases token.invalid_or_isKnown with ⟨cause, hc⟩ | hknown
    · -- It moves from the tokens to come to the errors recorded.
      rw [State.pull_of_invalid hc, ih, List.takeWhile_cons_of_pos (by simp [hc]),
        List.filterMap_cons_some (Token.lexicalError?_of_invalid hc), Array.toList_push]
      simp [SyntaxError.isLexical]
    · rw [State.pull_of_isKnown hknown, State.lexicalErrors]
      by_cases heof : token.kind = .eof
      · rw [List.takeWhile_cons_of_neg (by simp [heof]), if_pos (State.atEnd_eq_true.2 heof)]
        rfl
      · rw [List.takeWhile_cons_of_pos (by simp [heof]),
          List.filterMap_cons_none (Token.lexicalError?_of_isKnown hknown),
          if_neg fun h => heof (State.atEnd_eq_true.1 h)]

/-- Taking a token records the errors of those passed, which were still to come before. -/
theorem lexicalErrors_advanced (s : State) : s.advanced.lexicalErrors = s.lexicalErrors := by
  by_cases heof : s.current.kind = .eof
  · rw [State.advanced_of_atEnd heof]
  · rw [State.advanced_of_ne_eof heof, lexicalErrors_pull, State.lexicalErrors,
      if_neg fun h => heof (State.atEnd_eq_true.1 h)]

/-- Errors of rules are not among them. -/
theorem lexicalErrors_record (s : State) {token : Token} {cause : SyntaxError.Cause}
    (hc : cause.IsGrammatical) : (s.record ⟨token, cause⟩).lexicalErrors = s.lexicalErrors := by
  simp [State.lexicalErrors, State.record, SyntaxError.isLexical_of_isGrammatical hc, State.atEnd]

/-- The errors recorded and to come are the same across every step. -/
theorem stepClosed_lexicalErrors :
    StepClosed fun s t => t.lexicalErrors = s.lexicalErrors where
  refl _ := rfl
  trans h h' := h'.trans h
  advanced := lexicalErrors_advanced
  record s _ hc := lexicalErrors_record s hc.isGrammatical
  nested _ h := h

/-- Entering a function and leaving it change none of them. -/
theorem functionClosed_lexicalErrors :
    FunctionClosed fun s t => t.lexicalErrors = s.lexicalErrors where
  returned s _ _ := by
    have hc : SyntaxError.Cause.IsGrammatical .returnAtTopLevel := trivial
    exact (lexicalErrors_record s.advanced hc).trans (lexicalErrors_advanced s)
  inFunction h := h

/-- Each unreadable token up to the first end token leaves its error behind, in order. -/
theorem filter_isLexical_parse (tokens : List Token) :
    (parse tokens).2.filter (·.isLexical) = (ended tokens).filterMap Token.lexicalError? := by
  let t := (declarations (declaration (expression maxNesting) (statement maxNesting)
    (block maxNesting)) (fun _ => false) (State.start tokens).remaining (State.start tokens)).2
  -- At the end nothing is to come, and at the start nothing has been recorded.
  have hend : t.current.kind = .eof :=
    atEnd_declarations (left_declaration_lt maxNesting) (State.left_le_length_remaining _)
  have hrun : t.lexicalErrors = (State.start tokens).lexicalErrors :=
    rel_declarations stepClosed_lexicalErrors functionClosed_lexicalErrors maxNesting _ _ _
  have hstart : (State.start tokens).lexicalErrors =
      (tokens.takeWhile (·.kind != .eof)).filterMap Token.lexicalError? :=
    lexicalErrors_pull 1 #[] tokens 0 0
  obtain ⟨last, hlast, hended⟩ := exists_endedFrom_eq 1 tokens
  calc (parse tokens).2.filter (·.isLexical)
      = t.errors.toList.filter (·.isLexical) := rfl
    _ = t.lexicalErrors := by
        rw [State.lexicalErrors, if_pos (State.atEnd_eq_true.2 hend), List.append_nil]
    _ = (tokens.takeWhile (·.kind != .eof)).filterMap Token.lexicalError? := hrun.trans hstart
    _ = (ended tokens).filterMap Token.lexicalError? := by
        have hknown : last.kind.IsKnown := by simp [hlast]
        rw [ended_eq_endedFrom, hended, List.filterMap_append,
          List.filterMap_cons_none (Token.lexicalError?_of_isKnown hknown), List.filterMap_nil,
          List.append_nil]

/-- The current token is readable, and errors at unreadable tokens are those of the scanner. -/
structure State.TellsApart (s : State) : Prop where
  isKnown : s.current.kind.IsKnown
  isLexical_eq : ∀ e ∈ s.errors.toList, e.isLexical = e.token.isUnreadable

/-- An error that a rule finds is at a token that is readable. -/
theorem State.TellsApart.record {s : State} (hs : s.TellsApart) {token : Token}
    (htoken : token.kind.IsKnown) {cause : SyntaxError.Cause} (hc : cause.IsGrammatical) :
    (s.record ⟨token, cause⟩).TellsApart where
  isKnown := hs.isKnown
  isLexical_eq := by
    simp only [State.record, Array.toList_push]
    refine List.forall_mem_append.2 ⟨hs.isLexical_eq, List.forall_mem_singleton.2 ?_⟩
    rw [SyntaxError.isLexical_of_isGrammatical hc, Token.isUnreadable_eq_false_iff.2 htoken]

/-- An error that the scanner has found is at a token that is not. -/
theorem tellsApart_pull (line : Nat) (errors : Array SyntaxError) (ahead : List Token)
    (functionDepth nesting : Nat)
    (herrors : ∀ e ∈ errors.toList, e.isLexical = e.token.isUnreadable) :
    State.TellsApart
      { current := (State.pull line errors ahead).1
        ahead := (State.pull line errors ahead).2.1
        errors := (State.pull line errors ahead).2.2
        functionDepth, nesting } := by
  induction ahead generalizing errors with
  | nil => exact ⟨by simp [State.pull], herrors⟩
  | cons token ahead ih =>
    rcases token.invalid_or_isKnown with ⟨cause, hc⟩ | hknown
    · -- The error that is recorded is one of the scanner, at an unreadable token.
      rw [State.pull_of_invalid hc]
      refine ih _ ?_
      rw [Array.toList_push]
      refine List.forall_mem_append.2 ⟨herrors, List.forall_mem_singleton.2 ?_⟩
      rw [token.isUnreadable_of_invalid hc]
      rfl
    · rw [State.pull_of_isKnown hknown]
      exact ⟨hknown, herrors⟩

/-- Taking a token comes to a readable one. -/
theorem State.TellsApart.advanced {s : State} (hs : s.TellsApart) : s.advanced.TellsApart := by
  by_cases heof : s.current.kind = .eof
  · rw [State.advanced_of_atEnd heof]
    exact hs
  · rw [State.advanced_of_ne_eof heof]
    exact tellsApart_pull s.current.line s.errors s.ahead _ _ hs.isLexical_eq

/-- The errors can be told apart behind every step, if they can before it. -/
theorem stepClosed_tellsApart : StepClosed fun s t => s.TellsApart → t.TellsApart where
  refl _ := id
  trans h h' := h' ∘ h
  advanced _ := State.TellsApart.advanced
  record _ _ hc hs := hs.record hs.isKnown hc.isGrammatical
  nested _ h hs := ⟨(h ⟨hs.isKnown, hs.isLexical_eq⟩).isKnown,
    (h ⟨hs.isKnown, hs.isLexical_eq⟩).isLexical_eq⟩

/-- The errors can be told apart behind a function body, if they can before it. -/
theorem functionClosed_tellsApart : FunctionClosed fun s t => s.TellsApart → t.TellsApart where
  returned _ _ _ hs := hs.advanced.record hs.isKnown trivial
  inFunction h hs := ⟨(h ⟨hs.isKnown, hs.isLexical_eq⟩).isKnown,
    (h ⟨hs.isKnown, hs.isLexical_eq⟩).isLexical_eq⟩

/-- The errors of a program can be told apart by their tokens. -/
theorem isLexical_of_mem_parse (tokens : List Token) :
    ∀ e ∈ (parse tokens).2, e.isLexical = e.token.isUnreadable := by
  have hstart : (State.start tokens).TellsApart := tellsApart_pull 1 #[] tokens 0 0 (by simp)
  exact (rel_declarations stepClosed_tellsApart functionClosed_tellsApart maxNesting
    (fun _ => false) (State.start tokens).remaining (State.start tokens) hstart).isLexical_eq

/-- **Unreadable tokens.** Only the tokens up to the first end token count, and one is made up if
    there is none. The errors at unreadable tokens are those of the scanner, each once and in
    order; the statements and all other errors are those of the readable tokens alone. -/
theorem parse_unreadable (tokens : List Token) :
    parse tokens = parse (ended tokens) ∧
      (parse tokens).2.filter (·.token.isUnreadable) =
        (ended tokens).filterMap Token.lexicalError? ∧
      parse ((ended tokens).filter (!·.isUnreadable)) =
        ((parse tokens).1, (parse tokens).2.filter (!·.token.isUnreadable)) := by
  have hlexical : ∀ e ∈ (parse tokens).2, e.token.isUnreadable = e.isLexical :=
    fun e he => (isLexical_of_mem_parse tokens e he).symm
  refine ⟨(parse_ended tokens).symm, ?_, ?_⟩
  · rw [List.filter_congr hlexical]
    exact filter_isLexical_parse tokens
  · have hother : ∀ e ∈ (parse tokens).2, (!e.token.isUnreadable) = !e.isLexical :=
      fun e he => congrArg not (hlexical e he)
    rw [parse_filter_readable, parse_ended, List.filter_congr hother]

end Grammar

end Lox
