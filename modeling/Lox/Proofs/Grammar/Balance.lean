import Lox.Proofs.Grammar.Incremental

namespace Lox.Grammar

/-!
# Levels that are entered are left

The parser counts the levels of nesting and the function bodies around the current token. Each rule
counts up and down again, whether it succeeds or fails, and recovery counts nothing. So behind every
declaration of a program, malformed or not, the counters are at zero, and what comes next is read as
if the text began there.

That counting down never goes below zero is said by checks: with checks around each level and each
function body, of whatever outcome when they fail, the rules are the same functions.

* `SameLevels` — the counters of two states are the same.
* `checked`, `checkedExpression`, `checkedStatement`, … — the rules with checks.
* `checkedExpression_eq_checkedUnary_eq`, `checkedStatement_eq_checkedBlock_eq` — the checks never
  fail.
* `Resumed` — errors recorded earlier do not matter.
* `readProgram_cons` — behind a declaration, reading on is reading anew.
* `counters_balanced` — all that together.
-/

variable {α : Type}

/-! ### Counters -/

/-- As many levels of nesting and as many function bodies are around the current token. -/
structure SameLevels (s t : State) : Prop where
  nesting_eq : t.nesting = s.nesting
  functionDepth_eq : t.functionDepth = s.functionDepth

/-- Levels stay the same in every step, and a level that is opened is closed again. -/
theorem stepClosed_sameLevels : StepClosed SameLevels where
  refl _ := ⟨rfl, rfl⟩
  trans h h' := ⟨h'.nesting_eq.trans h.nesting_eq, h'.functionDepth_eq.trans h.functionDepth_eq⟩
  advanced s := ⟨s.nesting_advanced, s.functionDepth_advanced⟩
  record _ _ _ := ⟨rfl, rfl⟩
  nested _ h := ⟨congrArg (· - 1) h.nesting_eq, h.functionDepth_eq⟩

/-- Levels stay the same around the body of a function. -/
theorem functionClosed_sameLevels : FunctionClosed SameLevels where
  returned s _ _ := ⟨s.nesting_advanced, s.functionDepth_advanced⟩
  inFunction h := ⟨h.nesting_eq, congrArg (· - 1) h.functionDepth_eq⟩

/-! ### Checks -/

/-- What becomes of a run when a check fails in some state. -/
abbrev Fault := ∀ α : Type, State → EStateM.Result SyntaxError State α

/-- A rule with a check in front of it and another one behind it. -/
def checked (fault : Fault) (before behind : State → Bool) (rule : Rule α) : Rule α := fun s =>
  if before s then
    match rule s with
    | .ok a t => if behind t then .ok a t else fault α t
    | .error e t => if behind t then .error e t else fault α t
  else fault α s

/-- What is read on a level of nesting. The level is one of `maxNesting`, and it can be left. -/
def levelChecked (fault : Fault) (rule : Rule α) : Rule α :=
  checked fault (fun s => s.nesting ≤ maxNesting) (fun t => 0 < t.nesting) rule

/-- What is read in the body of a function. The body can be left. -/
def bodyChecked (fault : Fault) (rule : Rule α) : Rule α :=
  checked fault (fun _ => true) (fun t => 0 < t.functionDepth) rule

/-- A check that the relation guarantees never fails. -/
theorem checked_of_respects {R : State → State → Prop} {rule : Rule α} (h : Respects R rule)
    (fault : Fault) {before behind : State → Bool} {s : State} (hs : before s = true)
    (ht : ∀ t, R s t → behind t = true) : checked fault before behind rule s = rule s := by
  unfold checked
  rw [if_pos hs]
  cases hr : rule s with
  | ok a t => exact if_pos (ht t (h.of_ok hr))
  | error e t => exact if_pos (ht t (h.of_error hr).1)

/-- The counter has been raised to one of `maxNesting` levels at most, and is not lower when it is
    lowered again. -/
theorem nested_levelChecked (fault : Fault) {rule : Rule α} (h : Respects SameLevels rule) :
    nested (levelChecked fault rule) = nested rule := by
  funext s
  unfold nested
  by_cases hroom : s.nesting < maxNesting
  -- The rule ends on the level on which it starts, and that is not the outermost one.
  · have hrun : levelChecked fault rule { s with nesting := s.nesting + 1 } =
        rule { s with nesting := s.nesting + 1 } :=
      checked_of_respects h fault (decide_eq_true hroom) fun t ht => by
        rw [ht.nesting_eq]
        exact decide_eq_true (Nat.succ_pos _)
    rw [if_pos hroom, if_pos hroom, hrun]
  · rw [if_neg hroom, if_neg hroom]

/-- The counter of functions has been raised in the body, and is not lower when it is lowered
    again. -/
theorem inFunction_bodyChecked (fault : Fault) {rule : Rule α} (h : Respects SameLevels rule) :
    inFunction (bodyChecked fault rule) = inFunction rule := by
  funext s
  have hrun : bodyChecked fault rule { s with functionDepth := s.functionDepth + 1 } =
      rule { s with functionDepth := s.functionDepth + 1 } :=
    checked_of_respects h fault rfl fun t ht => by
      rw [ht.functionDepth_eq]
      exact decide_eq_true (Nat.succ_pos _)
  rw [inFunction, inFunction, hrun]

/-- The check in the body of a declared function never fails. -/
theorem functionDeclaration_bodyChecked (fault : Fault) {block : Rule (List (Stmt Unit))}
    (h : Respects SameLevels block) :
    functionDeclaration (bodyChecked fault block) = functionDeclaration block := by
  simp only [functionDeclaration, inFunction_bodyChecked fault h]

/-- The check in the bodies of functions never fails in a declaration. -/
theorem declaration_bodyChecked (fault : Fault) (expression : Rule Expr)
    (statement : Rule (Stmt Unit)) {block : Rule (List (Stmt Unit))}
    (h : Respects SameLevels block) :
    declaration expression statement (bodyChecked fault block) =
      declaration expression statement block := by
  simp only [declaration, functionDeclaration_bodyChecked fault h]

mutual

/-- Expressions, with a check of each level that they open. -/
def checkedExpression (fault : Fault) : (free : Nat) → Rule Expr
  | 0 => failHere .tooMuchNesting
  | free + 1 => nested <| levelChecked fault <|
    assignment (checkedExpression fault free) (checkedUnary fault free)

/-- Operands, with a check of each level that they open. -/
def checkedUnary (fault : Fault) : (free : Nat) → Rule Expr
  | 0 => unaryOr (failHere .tooMuchNesting) (calls (failHere .tooMuchNesting))
  | free + 1 => unaryOr (nested (levelChecked fault (checkedUnary fault free))) <|
    calls <| nested <| levelChecked fault <|
      assignment (checkedExpression fault free) (checkedUnary fault free)

end

mutual

/-- Statements, with a check of each level and each function body. -/
def checkedStatement (fault : Fault) : (free : Nat) → Rule (Stmt Unit)
  | 0 => failHere .tooMuchNesting
  | free + 1 => nested <| levelChecked fault <|
    anyStatement (checkedExpression fault free) (checkedStatement fault free)
      (checkedBlock fault free)

/-- Blocks, with a check of each level and each function body. -/
def checkedBlock (fault : Fault) : (free : Nat) → Rule (List (Stmt Unit))
  | 0 => failHere .tooMuchNesting
  | free + 1 => nested <| levelChecked fault <|
    blockContents <| declaration (checkedExpression fault free) (checkedStatement fault free)
      (bodyChecked fault (checkedBlock fault free))

end

/-- The checks in expressions never fail. -/
theorem checkedExpression_eq_checkedUnary_eq (fault : Fault) (free : Nat) :
    checkedExpression fault free = expression free ∧ checkedUnary fault free = unary free := by
  have hR := stepClosed_sameLevels
  induction free with
  | zero => exact ⟨rfl, rfl⟩
  | succ free ih =>
    obtain ⟨he, hu⟩ := respects_expression_unary hR free
    have hexpression : checkedExpression fault (free + 1) = expression (free + 1) := by
      rw [checkedExpression, ih.1, ih.2, nested_levelChecked fault (respects_assignment hR he hu)]
      rfl
    refine ⟨hexpression, ?_⟩
    rw [checkedExpression] at hexpression
    rw [checkedUnary, hexpression, ih.2, nested_levelChecked fault hu, unary_succ]

/-- The checks in statements never fail. -/
theorem checkedStatement_eq_checkedBlock_eq (fault : Fault) (free : Nat) :
    checkedStatement fault free = statement free ∧ checkedBlock fault free = block free := by
  have hR := stepClosed_sameLevels
  have hF := functionClosed_sameLevels
  induction free with
  | zero => exact ⟨rfl, rfl⟩
  | succ free ih =>
    have he := respects_expression hR free
    obtain ⟨hs, hb⟩ := respects_statement_block hR hF free
    have hcontents : Respects SameLevels
        (blockContents (declaration (expression free) (statement free) (block free))) :=
      respects_blockContents hR (rel_declaration hR hF he hs hb)
    constructor
    · rw [checkedStatement, (checkedExpression_eq_checkedUnary_eq fault free).1, ih.1, ih.2,
        nested_levelChecked fault (respects_anyStatement hR hF he hs hb)]
      rfl
    · rw [checkedBlock, (checkedExpression_eq_checkedUnary_eq fault free).1, ih.1, ih.2,
        declaration_bodyChecked fault _ _ hb, nested_levelChecked fault hcontents]
      rfl

/-! ### Reading anew -/

/-- The token that is pulled next is one that the grammar knows, or a made-up end. -/
theorem State.isKnown_pull (line : Nat) (errors : Array SyntaxError) (ahead : List Token) :
    (pull line errors ahead).1.kind.IsKnown := by
  induction ahead generalizing errors with
  | nil => exact Token.Kind.isKnown_eof
  | cons token ahead ih =>
    rcases token.invalid_or_isKnown with ⟨cause, hc⟩ | hknown
    · rw [pull_of_invalid hc]
      exact ih _
    · rwa [pull_of_isKnown hknown]

/-- The grammar knows the token that is looked at. -/
theorem stepClosed_isKnown :
    StepClosed fun s t => s.current.kind.IsKnown → t.current.kind.IsKnown where
  refl _ := id
  trans h h' := h' ∘ h
  advanced s hs := by
    by_cases heof : s.current.kind = .eof
    · rwa [State.advanced_of_atEnd heof]
    · rw [State.advanced_of_ne_eof heof]
      exact State.isKnown_pull _ _ _
  record _ _ _ := id
  nested _ h := h

/-- The grammar knows the token that is looked at, inside of functions and behind a `return`,
    too. -/
theorem functionClosed_isKnown :
    FunctionClosed fun s t => s.current.kind.IsKnown → t.current.kind.IsKnown where
  returned s _ _ := stepClosed_isKnown.advanced s
  inFunction h := h

/-- The same state, with errors in front that were recorded earlier. -/
structure Resumed (earlier : Array SyntaxError) (s s' : State) : Prop where
  current_eq : s'.current = s.current
  ahead_eq : s'.ahead = s.ahead
  errors_eq : s'.errors = earlier ++ s.errors
  functionDepth_eq : s'.functionDepth = s.functionDepth
  nesting_eq : s'.nesting = s.nesting

/-- Steps do the same with and without errors in front that were recorded earlier. -/
theorem simulation_resumed (earlier : Array SyntaxError) : Simulation id (Resumed earlier) where
  relabelling := ⟨fun _ => rfl, fun _ => rfl⟩
  current_eq h := h.current_eq
  functionDepth_eq h := h.functionDepth_eq
  nesting_eq h := h.nesting_eq
  advanced {s s'} h := by
    by_cases heof : s.current.kind = .eof
    · rw [State.advanced_of_atEnd heof, State.advanced_of_atEnd (h.current_eq ▸ heof)]
      exact h
    · rw [State.advanced_of_ne_eof heof, State.advanced_of_ne_eof (h.current_eq ▸ heof),
        h.current_eq, h.ahead_eq, State.pull_errors _ s.errors, State.pull_errors _ s'.errors]
      refine ⟨rfl, rfl, ?_, h.functionDepth_eq, h.nesting_eq⟩
      rw [h.errors_eq, Array.append_assoc]
  record token cause h _ := by
    refine ⟨h.current_eq, h.ahead_eq, ?_, h.functionDepth_eq, h.nesting_eq⟩
    simp only [State.record, h.errors_eq, Array.append_push, id]
  withLevels k l h :=
    ⟨h.current_eq, h.ahead_eq, h.errors_eq, congrArg k h.functionDepth_eq,
      congrArg l h.nesting_eq⟩

/-- Outside of all levels, a state is the start of the tokens that remain, with the errors that
    were recorded earlier. -/
theorem resumed_start {s : State} (hknown : s.current.kind.IsKnown)
    (hlevels : SameLevels (State.start []) s) :
    Resumed s.errors (State.start s.remaining) s := by
  rw [State.start, State.remaining, State.pull_of_isKnown hknown]
  exact ⟨rfl, rfl, (Array.append_empty).symm, hlevels.functionDepth_eq, hlevels.nesting_eq⟩

/-- Reading on outside of all levels is reading the tokens that remain. -/
theorem readProgram_eq_parse {s : State} (hknown : s.current.kind.IsKnown)
    (hlevels : SameLevels (State.start []) s) {bound : List Token} (hb : s.left ≤ bound.length) :
    (readProgram bound s).1 = (parse s.remaining).1 ∧
      (readProgram bound s).2.errors.toList = s.errors.toList ++ (parse s.remaining).2 := by
  have hR := simulation_resumed s.errors
  have hstart := resumed_start hknown hlevels
  rw [hR.left_eq hstart] at hb
  have hrun := agreeAlways_declarations hR (agreeAlways_declaration hR maxNesting)
    (left_declaration_lt maxNesting) (fun _ => false) hstart
    (State.start s.remaining).left_le_length_remaining hb
  rw [parse_eq_readProgram]
  refine ⟨?_, ?_⟩
  · rw [hrun.fst_eq, Stmt.relabel_id, List.map_id]
  · rw [hrun.snd.errors_eq, Array.toList_append]

/-- Behind a declaration outside of all levels, what remains is read anew. -/
theorem readProgram_cons {s : State} (hend : s.current.kind ≠ .eof)
    (hknown : s.current.kind.IsKnown) (hlevels : SameLevels (State.start []) s) :
    let behind := (readDeclaration s).2
    (readProgram s.remaining s).1 =
        (readDeclaration s).1.toList ++ (parse behind.remaining).1 ∧
      (readProgram s.remaining s).2.errors.toList =
        behind.errors.toList ++ (parse behind.remaining).2 := by
  intro behind
  have hbehind : SameLevels (State.start []) behind :=
    stepClosed_sameLevels.trans hlevels
      (rel_declaration_free stepClosed_sameLevels functionClosed_sameLevels maxNesting s)
  have hnext : behind.current.kind.IsKnown :=
    rel_declaration_free stepClosed_isKnown functionClosed_isKnown maxNesting s hknown
  -- The loop goes on with one token less as its bound, and at least one token has been passed.
  have hbound : behind.left ≤ s.ahead.length := by
    have hlt : behind.left < s.left := left_declaration_lt maxNesting hend
    have hle := s.left_le_length_remaining
    rw [State.remaining, List.length_cons] at hle
    omega
  obtain ⟨hprogram, herrors⟩ := readProgram_eq_parse hnext hbehind hbound
  rw [State.remaining, readProgram, declarations, if_neg (by simpa [State.atEnd] using hend)]
  exact ⟨congrArg (_ ++ ·) hprogram, herrors⟩

/-- **Counters are balanced, and parsing resumes afresh.** Whatever the state, each rule of the
    grammar leaves the counters of levels and function bodies as it found them, whether it succeeds
    or fails. No level is opened beyond `maxNesting`, and no counter is lowered below zero: with
    checks of that, whatever their outcome when they fail, the rules do the same. So behind the
    first declaration of a program, be it well formed or not, the statements and errors still to
    come are those of the tokens that remain, parsed anew. -/
theorem counters_balanced (tokens : List Token) :
    (∀ free : Nat, Respects SameLevels (expression free) ∧ Respects SameLevels (unary free) ∧
        Respects SameLevels (statement free) ∧ Respects SameLevels (block free) ∧
        Respects SameLevels (functionDeclaration (block free)) ∧
        ∀ s, SameLevels s (declaration (expression free) (statement free) (block free) s).2) ∧
      (∀ (fault : Fault) (free : Nat),
        checkedExpression fault free = expression free ∧ checkedUnary fault free = unary free ∧
        checkedStatement fault free = statement free ∧ checkedBlock fault free = block free ∧
        functionDeclaration (bodyChecked fault (checkedBlock fault free)) =
          functionDeclaration (block free) ∧
        declaration (checkedExpression fault free) (checkedStatement fault free)
            (bodyChecked fault (checkedBlock fault free)) =
          declaration (expression free) (statement free) (block free)) ∧
      ((State.start tokens).current.kind ≠ .eof →
        let first := readDeclaration (State.start tokens)
        parse tokens =
          (first.1.toList ++ (parse first.2.remaining).1,
            first.2.errors.toList ++ (parse first.2.remaining).2)) := by
  have hR := stepClosed_sameLevels
  have hF := functionClosed_sameLevels
  refine ⟨fun free => ?_, fun fault free => ?_, fun hend => ?_⟩
  · obtain ⟨he, hu⟩ := respects_expression_unary hR free
    obtain ⟨hs, hb⟩ := respects_statement_block hR hF free
    exact ⟨he, hu, hs, hb, respects_functionDeclaration hR hF hb, rel_declaration hR hF he hs hb⟩
  · obtain ⟨he, hu⟩ := checkedExpression_eq_checkedUnary_eq fault free
    obtain ⟨hs, hb⟩ := checkedStatement_eq_checkedBlock_eq fault free
    have hblock := respects_block hR hF free
    rw [he, hu, hs, hb, functionDeclaration_bodyChecked fault hblock,
      declaration_bodyChecked fault _ _ hblock]
    exact ⟨rfl, rfl, rfl, rfl, rfl, rfl⟩
  · have hknown : (State.start tokens).current.kind.IsKnown := State.isKnown_pull 1 #[] tokens
    obtain ⟨hprogram, herrors⟩ := readProgram_cons hend hknown ⟨rfl, rfl⟩
    rw [parse_eq_readProgram]
    exact Prod.ext hprogram herrors

/-- A function with an error in its body, deep inside an expression; a statement that is malformed
    as a whole; and a `return` outside of functions. -/
def errorsInside : List Token := scan "fun f() \x7b print ((1; \x7d\nprint f(-(2;\nreturn 3;"

/-- Behind the function, no level is open, and the `return` is known to be outside of it. -/
theorem counters_balanced_errorsInside :
    let first := readDeclaration (State.start errorsInside)
    parse errorsInside =
        (first.1.toList ++ (parse first.2.remaining).1,
          first.2.errors.toList ++ (parse first.2.remaining).2) ∧
      first.1.toList.map Stmt.sexpr = ["(fun f ())"] ∧
      first.2.errors.toList.map (·.report.text) =
        ["[line 1] Error at ';': Expect ')' after expression."] ∧
      (parse first.2.remaining).2.map (·.report.text) =
        ["[line 2] Error at ';': Expect ')' after expression.",
          "[line 3] Error at 'return': Can't return from top-level code."] :=
  have hbegins : (State.start errorsInside).current.kind ≠ .eof := by decide +kernel
  ⟨(counters_balanced errorsInside).2.2 hbegins, by decide +kernel, by decide +kernel,
    by decide +kernel⟩

end Lox.Grammar
