import Lox.Proofs.Grammar.Complete
import Lox.Proofs.Grammar.Sound
import Lox.Syntax.Sexpr

namespace Lox.Grammar

/-!
# What is accepted

A program is accepted without errors exactly if it is one of the grammar, and the statements are
those of its phrases; likewise for a single expression. The tokens end with the end token here, and
there is no other: it is the token that a phrase of the whole text leaves.

* `parse_eq_nil_iff` — programs.
* `parseExpression_eq_ok_iff` — expressions.
* `parse_exact` — both, with the empty list of errors by itself.
-/

variable {tokens : List Token} {last : Token}

/-! ### The first token -/

/-- If the first token is known to the grammar, nothing is passed over to get there. -/
theorem start_eq_at {p : Token.Kind → Prop} (h : Follows p tokens) :
    State.start tokens = (State.start []).at tokens := by
  obtain ⟨next, ahead, rfl, hknown, -⟩ := h
  rw [State.start, State.pull_of_isKnown hknown]
  rfl

/-- If reading starts without errors, no token has been passed over. -/
theorem remaining_start (hne : tokens ≠ []) (h : (State.start tokens).errors.size = 0) :
    (State.start tokens).remaining = tokens := by
  cases tokens with
  | nil => exact absurd rfl hne
  | cons next ahead =>
    by_cases hknown : next.kind.IsKnown
    · rw [State.start, State.pull_of_isKnown hknown]
      rfl
    · obtain ⟨cause, hc⟩ : ∃ cause, next.kind = .invalid cause := by
        simpa [Token.Kind.IsKnown] using hknown
      have hle := State.size_errors_le_pull 1 (#[].push ⟨next, .lexical cause⟩) ahead
      rw [State.start, State.pull_of_invalid hc] at h
      have hpush : ((#[] : Array SyntaxError).push ⟨next, .lexical cause⟩).size = 1 := rfl
      have hzero : (State.pull 1 (#[].push ⟨next, .lexical cause⟩) ahead).2.2.size = 0 := h
      omega

/-- Nothing is left behind the only end token. -/
theorem eq_singleton_of_suffix (honly : ∀ token ∈ tokens, token.kind ≠ .eof) {s : State}
    (hs : s.remaining <:+ tokens ++ [last]) (hend : s.current.kind = .eof) :
    s.remaining = [last] := by
  obtain ⟨front, hfront⟩ := hs
  rw [State.remaining] at hfront ⊢
  rcases List.eq_nil_or_concat s.ahead with hnil | ⟨inner, token, hconcat⟩
  · rw [hnil] at hfront ⊢
    exact (List.append_inj' hfront rfl).2
  · have hinit : front ++ s.current :: inner = tokens := by
      rw [hconcat, List.concat_eq_append, ← List.cons_append, ← List.append_assoc] at hfront
      exact (List.append_inj' hfront rfl).1
    have hmem : s.current ∈ tokens := by
      rw [← hinit]
      simp
    exact absurd hend (honly _ hmem)

/-- At the start of tokens that end in an end token, reading is outside of functions. -/
theorem isReady_start (hlast : last.kind = .eof)
    (h : (State.start (tokens ++ [last])).remaining = tokens ++ [last]) :
    (State.start (tokens ++ [last])).IsReady false where
  hasEnd := ⟨last, by rw [h]; simp, hlast⟩
  inside_eq := rfl

/-- At the start, all levels are free. -/
theorem hasRoom_start : (State.start []).HasRoom maxNesting false where
  nesting_le := Nat.le_refl _
  functionDepth_ne h := absurd h Bool.false_ne_true

/-! ### Programs -/

/-- A program is read without errors exactly if it is a program of the grammar. -/
theorem parse_eq_nil_iff (hlast : last.kind = .eof) (honly : ∀ token ∈ tokens, token.kind ≠ .eof)
    (program : List (Stmt Unit)) :
    parse (tokens ++ [last]) = (program, []) ↔ Program (tokens ++ [last]) program [last] := by
  constructor
  · intro h
    rw [parse] at h
    cases hrun : declarations
        (declaration (expression maxNesting) (statement maxNesting) (block maxNesting))
        (fun _ => false) (State.start (tokens ++ [last])).remaining
        (State.start (tokens ++ [last])) with
    | mk body t =>
      rw [hrun] at h
      obtain ⟨rfl, herr⟩ := Prod.mk.inj h
      -- No error is taken back, so there was none at the start either, and no token was passed
      -- over.
      have hsize : t.errors.size = 0 := by
        rw [← Array.length_toList, herr, List.length_nil]
      have hle : (State.start (tokens ++ [last])).errors.size ≤ t.errors.size := by
        have := (rel_declarations stepClosed_later functionClosed_later maxNesting (fun _ => false)
          (State.start (tokens ++ [last])).remaining
          (State.start (tokens ++ [last]))).size_errors_le
        rwa [hrun] at this
      have hremaining : (State.start (tokens ++ [last])).remaining = tokens ++ [last] :=
        remaining_start (by simp) (by omega)
      obtain ⟨hprogram, hend⟩ :=
        sound_declarations (isReady_start hlast hremaining) hrun (by omega)
      rw [hremaining] at hprogram
      -- The grammar leaves a part of the tokens that begins with an end token, of which there is
      -- one only.
      have hsuffix := hprogram.suffix (opens_declaration maxNesting false)
      rw [eq_singleton_of_suffix honly hsuffix hend] at hprogram
      exact hprogram
  · -- Phrases are read as they stand, from the state that is placed in front of them.
    intro h
    have hfollows : Follows (fun _ => True) (tokens ++ [last]) := by
      generalize hall : tokens ++ [last] = all at h
      cases h with
      | nil => exact follows_cons hlast (by simp) True.intro
      | cons h _ => exact ((opens_declaration maxNesting false h).follows fun _ => id).trivial
    have hrun := declarations_at hasRoom_start h hlast
    have hremaining : ((State.start []).at (tokens ++ [last])).remaining = tokens ++ [last] := by
      obtain ⟨next, ahead, hall, -⟩ := hfollows
      rw [hall]
      rfl
    rw [parse, start_eq_at hfollows]
    simp only [hremaining, hrun]
    rfl

/-! ### Expressions -/

/-- A text is read as an expression exactly if it is an expression of the grammar. -/
theorem parseExpression_eq_ok_iff (hlast : last.kind = .eof)
    (honly : ∀ token ∈ tokens, token.kind ≠ .eof) (e : Expr) :
    parseExpression (tokens ++ [last]) = .ok e ↔
      Expression maxNesting (tokens ++ [last]) e [last] := by
  constructor
  · intro h
    rw [parseExpression] at h
    cases hrun : expression maxNesting (State.start (tokens ++ [last])) with
    | error _ t =>
      rw [hrun] at h
      exact absurd h (by simp)
    | ok e' t =>
      rw [hrun] at h
      have hr : Reads false (expression maxNesting) (Expression maxNesting) :=
        reads_expression maxNesting
      -- Without errors at the end there were none on the way.
      have hle := (hr.later hrun).size_errors_le
      by_cases hend : t.atEnd = true
      · simp only [hend, if_true] at h
        split at h
        · next hempty =>
          obtain rfl := Except.ok.inj h
          have hsize : t.errors.size = 0 := by
            simpa using hempty
          have hremaining : (State.start (tokens ++ [last])).remaining = tokens ++ [last] :=
            remaining_start (by simp) (by omega)
          have hexpression := hr.sound (isReady_start hlast hremaining) hrun (by omega)
          rw [hremaining] at hexpression
          have hsuffix := (opens_expression maxNesting).suffix hexpression
          rw [eq_singleton_of_suffix honly hsuffix (State.atEnd_eq_true.1 hend)] at hexpression
          exact hexpression
        · exact absurd h (by simp)
      · simp [hend, State.record] at h
  · intro h
    have hfollows := ((opens_expression maxNesting h).follows fun _ =>
      startsDeclaration_of_startsExpression)
    -- Behind the whole expression stands the end token, which no operator is.
    have hlastFollows : Follows (binding · < 1) [last] := follows_cons hlast (by simp) (by decide)
    have hrun := accepts_expression maxNesting hasRoom_start hlastFollows h
    have hend : ((State.start []).at [last]).atEnd = true :=
      State.atEnd_eq_true.2 hlast
    rw [parseExpression, start_eq_at hfollows, hrun]
    simp only [hend, if_true]
    rfl

/-! ### Both -/

/-- **What is accepted.** Let the tokens end with their only end token. A program is read without
    errors exactly if it is a program of the grammar, and then the statements are the trees of its
    declarations. A single expression is read exactly if it is one of the grammar, with its tree. -/
theorem parse_exact (tokens : List Token) (last : Token) (hlast : last.kind = .eof)
    (honly : ∀ token ∈ tokens, token.kind ≠ .eof) :
    (∀ program, parse (tokens ++ [last]) = (program, []) ↔
        Program (tokens ++ [last]) program [last]) ∧
      ((parse (tokens ++ [last])).2 = [] ↔ ∃ program, Program (tokens ++ [last]) program [last]) ∧
      ∀ e, parseExpression (tokens ++ [last]) = .ok e ↔
        Expression maxNesting (tokens ++ [last]) e [last] := by
  have hprogram := parse_eq_nil_iff hlast honly
  refine ⟨hprogram, ⟨fun h => ?_, ?_⟩, parseExpression_eq_ok_iff hlast honly⟩
  · exact ⟨(parse (tokens ++ [last])).1, (hprogram _).1 (Prod.ext rfl h)⟩
  · rintro ⟨program, h⟩
    rw [(hprogram program).2 h]

/-- The tokens of `if (a) if (b) c; else d;`, without the end token. -/
def danglingElse : List Token :=
  let word (kind : Token.Kind) (lexeme : String) : Token := { kind, lexeme, line := 1 }
  [word Keyword.if_ "if", word Symbol.leftParen "(", word .identifier "a",
    word Symbol.rightParen ")", word Keyword.if_ "if", word Symbol.leftParen "(",
    word .identifier "b", word Symbol.rightParen ")", word .identifier "c",
    word Symbol.semicolon ";", word Keyword.else_ "else", word .identifier "d",
    word Symbol.semicolon ";"]

/-- The `else` goes with the inner `if`. -/
theorem program_danglingElse :
    ∃ program, Program (danglingElse ++ [Token.eof 1]) program [Token.eof 1] ∧
      program.map Stmt.sexpr = ["(if a (if b (; c) (; d)))"] := by
  have hclean : (parse (danglingElse ++ [Token.eof 1])).2.isEmpty = true := by decide +kernel
  have htree : (parse (danglingElse ++ [Token.eof 1])).1.map Stmt.sexpr =
      ["(if a (if b (; c) (; d)))"] := by decide +kernel
  obtain ⟨hprogram, -⟩ := parse_exact danglingElse (Token.eof 1) rfl (by decide)
  revert hclean htree
  generalize parse (danglingElse ++ [Token.eof 1]) = result at hprogram
  obtain ⟨program, errors⟩ := result
  intro hclean htree
  obtain rfl := List.isEmpty_iff.1 hclean
  exact ⟨program, (hprogram program).1 rfl, htree⟩

end Lox.Grammar
