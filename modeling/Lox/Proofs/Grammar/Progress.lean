import Lox.Proofs.Grammar.Invariant

namespace Lox.Grammar

/-!
# Rules take tokens

The loops of the parser are bounded by the tokens in front of them, and the bounds never take
effect: the tokens that can still be taken become fewer in each turn. No rule goes back, and a rule
that succeeds has taken a token. Recovery from an error takes one as well.

* `State.left` — the number of tokens that can still be taken.
* `Onward` — what holds between the states before and after every run: `left` does not grow.
* `Advances r` — a run of the rule `r` that succeeds has taken a token.
* `advances_expression`, `advances_statement`, `left_declaration_lt` — the rules of the grammar.
* `atEnd_declarations` — a program is read up to the end of the text.
-/

variable {α β : Type}

/-! ### The tokens that can be taken -/

/-- The number of tokens that the grammar knows in front of the first end token. -/
def knownBeforeEnd : List Token → Nat
  | [] => 0
  | token :: tokens =>
    match token.kind with
    | .eof => 0
    | .invalid _ => knownBeforeEnd tokens
    | _ => knownBeforeEnd tokens + 1

/-- The number of tokens that can still be taken. The end token cannot. -/
def State.left (s : State) : Nat := if s.atEnd then 0 else knownBeforeEnd s.ahead + 1

namespace State

/-- At the end no token can be taken. -/
theorem left_of_eof {s : State} (h : s.current.kind = .eof) : s.left = 0 :=
  if_pos (atEnd_eq_true.2 h)

/-- The current token can be taken, and so can the known ones ahead. -/
theorem left_of_ne_eof {s : State} (h : s.current.kind ≠ .eof) :
    s.left = knownBeforeEnd s.ahead + 1 :=
  if_neg fun he => h (atEnd_eq_true.1 he)

/-- Only at the end no token can be taken. -/
theorem left_eq_zero_iff {s : State} : s.left = 0 ↔ s.current.kind = .eof := by
  refine ⟨fun h => ?_, left_of_eof⟩
  by_cases hk : s.current.kind = .eof
  · exact hk
  · rw [left_of_ne_eof hk] at h
    omega

/-- Skipping unreadable tokens leaves as many to be taken. -/
theorem left_pull (line : Nat) (errors : Array SyntaxError) (ahead : List Token)
    (functionDepth nesting : Nat) :
    State.left
        { current := (pull line errors ahead).1
          ahead := (pull line errors ahead).2.1
          errors := (pull line errors ahead).2.2
          functionDepth, nesting } = knownBeforeEnd ahead := by
  induction ahead generalizing errors with
  | nil => rfl
  | cons token ahead ih =>
    cases hk : token.kind with
    -- An unreadable token is not counted, and it is passed over.
    | invalid cause =>
      rw [pull_of_invalid hk, knownBeforeEnd, hk]
      exact ih _
    | eof =>
      rw [pull_of_isKnown (by simp [hk]), left_of_eof hk, knownBeforeEnd, hk]
    | symbol | keyword | identifier | string | number =>
      rw [pull_of_isKnown (by simp [hk]), left_of_ne_eof (by simp [hk]), knownBeforeEnd, hk]

/-- Taking a token leaves one less to be taken. -/
theorem left_advanced {s : State} (h : s.current.kind ≠ .eof) : s.advanced.left + 1 = s.left := by
  rw [advanced_of_ne_eof h, left_of_ne_eof h, left_pull]

/-- Taking a token never leaves more. -/
theorem left_advanced_le (s : State) : s.advanced.left ≤ s.left := by
  by_cases h : s.current.kind = .eof
  · exact Nat.le_of_eq (congrArg left (advanced_of_atEnd h))
  · have := left_advanced h
    omega

@[simp] theorem left_record (s : State) (e : SyntaxError) : (s.record e).left = s.left := rfl

/-- The tokens that remain bound those that can be taken, which is why they bound the loops. -/
theorem left_le_length_remaining (s : State) : s.left ≤ s.remaining.length := by
  have hlist (tokens : List Token) : knownBeforeEnd tokens ≤ tokens.length := by
    induction tokens with
    | nil => exact Nat.le_refl _
    | cons token tokens ih =>
      rw [knownBeforeEnd, List.length_cons]
      split <;> omega
  have := hlist s.ahead
  rw [left, remaining, List.length_cons]
  split <;> omega

end State

/-- No more tokens can be taken after a run than before it. -/
def Onward (s t : State) : Prop := t.left ≤ s.left

/-- No step of a rule goes back. -/
theorem stepClosed_onward : StepClosed Onward where
  refl _ := Nat.le_refl _
  trans h h' := Nat.le_trans h' h
  advanced := State.left_advanced_le
  record s _ _ := Nat.le_refl s.left
  nested _ h := h

/-- Entering a function and leaving it do not go back either. -/
theorem functionClosed_onward : FunctionClosed Onward where
  returned s _ _ := State.left_advanced_le s
  inFunction h := h

/-! ### Rules that take a token -/

/-- A run of the rule that succeeds has taken a token. -/
def Advances (r : Rule α) : Prop := ∀ ⦃s t : State⦄ ⦃a : α⦄, r s = .ok a t → t.left < s.left

/-- A sequence takes a token if its first part does. -/
theorem Advances.bind {r : Rule α} {k : α → Rule β} (hr : Advances r)
    (hk : ∀ a, Respects Onward (k a)) : Advances (r >>= k) := by
  intro s u b h
  obtain ⟨a, t, hres, h⟩ := bind_eq_ok.1 h
  exact Nat.lt_of_le_of_lt ((hk a).of_ok h) (hr hres)

/-- Taking a token other than the end token, and what comes after it. -/
theorem left_lt_of_advance {r : Rule α} (hr : Respects Onward r) {s t : State} {a : α}
    (hs : s.current.kind ≠ .eof) (h : r s.advanced = .ok a t) : t.left < s.left := by
  have hrest : t.left ≤ s.advanced.left := hr.of_ok h
  have hstep := State.left_advanced hs
  omega

/-- A rule that always fails never succeeds without taking a token. -/
theorem advances_failHere (cause : SyntaxError.Cause) : Advances (failHere cause : Rule α) :=
  fun _ _ _ h => nomatch h

/-- A token that is expected is taken. -/
theorem advances_expect {kind : Token.Kind} (hne : kind ≠ .eof) {missing : SyntaxError.Cause} :
    Advances (expect kind missing) := by
  intro s t token h
  rw [← bind_pure (expect kind missing), expect_bind_eq_ok] at h
  exact left_lt_of_advance (respects_pure stepClosed_onward _) (h.1 ▸ hne) h.2

/-- Opening a level takes no token and puts none back. -/
theorem advances_nested {r : Rule α} (hr : Advances r) : Advances (nested r) := by
  intro s t a h
  obtain ⟨-, u, hrun, rfl⟩ := nested_eq_ok.1 h
  have hlt := hr hrun
  exact hlt

/-! ### Expressions -/

/-- A chain takes the tokens of its first operand. -/
theorem advances_chain {isOperator : Token.Kind → Bool} {join : Expr → Token → Expr → Expr}
    {operand : Rule Expr} (hr : Respects Onward operand) (ho : Advances operand) :
    Advances (chain isOperator join operand) :=
  ho.bind fun first => .bind stepClosed_onward (respects_get stepClosed_onward) fun s =>
    respects_chainFrom stepClosed_onward hr s.remaining first

/-- Six chains within one another take the tokens of the innermost operand. -/
theorem advances_disjunction {operand : Rule Expr} (hr : Respects Onward operand)
    (ho : Advances operand) : Advances (disjunction operand) := by
  have hchain {isOperator : Token.Kind → Bool} {join : Expr → Token → Expr → Expr}
      {operand : Rule Expr} (h : Respects Onward operand ∧ Advances operand) :
      Respects Onward (chain isOperator join operand) ∧
        Advances (chain isOperator join operand) :=
    ⟨respects_chain stepClosed_onward h.1, advances_chain h.1 h.2⟩
  exact (hchain <| hchain <| hchain <| hchain <| hchain <| hchain ⟨hr, ho⟩).2

/-- An assignment takes the tokens of its target. -/
theorem advances_assignment {expression operand : Rule Expr} (he : Respects Onward expression)
    (hr : Respects Onward operand) (ho : Advances operand) :
    Advances (assignment expression operand) := by
  have hR := stepClosed_onward
  refine (advances_disjunction hr ho).bind fun target => .bind hR (respects_sees hR _)
    fun assigns => ?_
  split
  · split
    · exact .bind hR (respects_advance hR) fun _ => .bind hR he fun value => respects_pure hR _
    · exact .noteHere hR .invalidAssignmentTarget trivial <|
        .bind hR (respects_advance hR) fun _ => .bind hR he fun _ => respects_pure hR target
  · exact respects_pure hR target

/-- A primary expression takes a token of its own, whatever it is. -/
theorem advances_primary {expression : Rule Expr} (he : Respects Onward expression) :
    Advances (primary expression) := by
  have hR := stepClosed_onward
  intro s t e h
  rw [primary, current_bind] at h
  -- Constants are taken in one step.
  have hconstant {c : Constant} (hne : s.current.kind ≠ .eof)
      (h : primary.constant c s = .ok e t) : t.left < s.left :=
    left_lt_of_advance (respects_pure hR _) hne h
  generalize s.current.literal = literal? at h
  generalize hk : s.current.kind = kind at h
  split at h
  · exact hconstant (by simp [hk]) h
  · exact hconstant (by simp [hk]) h
  · exact hconstant (by simp [hk]) h
  · cases literal? with
    | some literal => exact hconstant (by simp [hk]) h
    | none => exact advances_failHere _ h
  · cases literal? with
    | some literal => exact hconstant (by simp [hk]) h
    | none => exact advances_failHere _ h
  · exact left_lt_of_advance (respects_pure hR _) (by simp [hk]) h
  · have hinner : Respects Onward (do
        let inner ← expression
        let _ ← expect Symbol.rightParen .missingCloseOfGroup
        return Expr.group inner) :=
      .bind hR he fun inner => .bind hR (respects_expect hR _ trivial) fun _ => respects_pure hR _
    exact left_lt_of_advance hinner (by simp [hk]) h
  · exact advances_failHere _ h

/-- A call takes the tokens of what is called. -/
theorem advances_calls {expression : Rule Expr} (he : Respects Onward expression) :
    Advances (calls expression) :=
  (advances_primary he).bind fun callee =>
    .bind stepClosed_onward (respects_get stepClosed_onward) fun s =>
      respects_callsFrom stepClosed_onward he s.remaining callee

/-- An operator in front is taken, or an operand is read. -/
theorem advances_unaryOr {inner operand : Rule Expr} (hi : Respects Onward inner)
    (ho : Advances operand) : Advances (unaryOr inner operand) := by
  have hR := stepClosed_onward
  intro s t e h
  rw [unaryOr, current_bind] at h
  by_cases hop : isUnaryOperator s.current.kind = true
  · rw [if_pos hop] at h
    -- An operator is taken, since the end of the text is none.
    have hne : s.current.kind ≠ .eof := by
      intro heof
      rw [heof] at hop
      exact absurd hop (by decide)
    have hrest : Respects Onward (do return Expr.unary s.current (← inner)) :=
      .bind hR hi fun e => respects_pure hR _
    exact left_lt_of_advance hrest hne h
  · rw [if_neg hop] at h
    exact ho h

/-- Both rules for expressions take a token at every level of nesting. -/
theorem advances_expression_unary (free : Nat) :
    Advances (expression free) ∧ Advances (unary free) := by
  have hR := stepClosed_onward
  have hfail : Respects Onward (failHere .tooMuchNesting : Rule Expr) :=
    respects_failHere hR trivial
  induction free with
  | zero => exact ⟨advances_failHere _, advances_unaryOr hfail (advances_calls hfail)⟩
  | succ free ih =>
    obtain ⟨he, hu⟩ := respects_expression_unary hR free
    exact ⟨advances_nested (advances_assignment he hu ih.2),
      advances_unaryOr (respects_nested hR hu)
        (advances_calls (respects_expression hR (free + 1)))⟩

/-- A whole expression that has been read has taken a token. -/
theorem advances_expression (free : Nat) : Advances (expression free) :=
  (advances_expression_unary free).1

/-! ### Statements -/

/-- The objection to a `return` takes no token, and what follows it is the same. -/
theorem respects_returnStatement {expression : Rule Expr} (he : Respects Onward expression)
    (keyword : Token) : Respects Onward (returnStatement expression keyword) := by
  intro s
  have hvalue := respects_returnValue stepClosed_onward he keyword
  rw [returnStatement, get_bind]
  split
  · have hnote : Onward s (s.record ⟨keyword, .returnAtTopLevel⟩) := Nat.le_refl s.left
    exact .of_rel stepClosed_onward hnote (hvalue _)
  · exact hvalue s

/-- A statement takes its keyword, or the tokens of its expression. -/
theorem advances_anyStatement {expression : Rule Expr} {statement : Rule (Stmt Unit)}
    {block : Rule (List (Stmt Unit))} (he : Respects Onward expression)
    (hea : Advances expression) (hs : Respects Onward statement) (hb : Respects Onward block) :
    Advances (anyStatement expression statement block) := by
  have hR := stepClosed_onward
  intro s t a h
  rw [anyStatement, current_bind] at h
  -- In all cases but the last one a keyword or a brace is taken.
  generalize hk : s.current.kind = kind at h
  split at h
  · exact left_lt_of_advance (respects_printStatement hR he _) (by simp [hk]) h
  · have hblock : Respects Onward (do return (.block (← block) : Stmt Unit)) :=
      .bind hR hb fun _ => respects_pure hR _
    exact left_lt_of_advance hblock (by simp [hk]) h
  · exact left_lt_of_advance (respects_ifStatement hR he hs) (by simp [hk]) h
  · exact left_lt_of_advance (respects_whileStatement hR he hs) (by simp [hk]) h
  · exact left_lt_of_advance (respects_forStatement hR he hs) (by simp [hk]) h
  · exact left_lt_of_advance (respects_returnStatement he _) (by simp [hk]) h
  · have hstatement : Advances (expressionStatement expression) :=
      hea.bind fun _ => .bind hR (respects_expect hR _ trivial) fun _ => respects_pure hR _
    exact hstatement h

/-- A statement that has been read has taken a token. -/
theorem advances_statement (free : Nat) : Advances (statement free) := by
  cases free with
  | zero => exact advances_failHere _
  | succ free =>
    obtain ⟨hs, hb⟩ := respects_statement_block stepClosed_onward functionClosed_onward free
    exact advances_nested (advances_anyStatement (respects_expression stepClosed_onward free)
      (advances_expression free) hs hb)

/-! ### Declarations -/

/-- Recovery never goes back. -/
theorem left_synchronized_le (s : State) : (synchronized s).left ≤ s.left :=
  rel_synchronized stepClosed_onward s

/-- Recovery from an error takes a token. -/
theorem left_synchronized_lt {s : State} (h : s.current.kind ≠ .eof) :
    (synchronized s).left < s.left := by
  have hskip : (synchronized s).left ≤ s.advanced.left :=
    rel_synchronizedFrom stepClosed_onward _ _ _
  have := State.left_advanced h
  omega

/-- Each declaration takes a token, whether it is well formed or not. -/
theorem left_recovering_lt {r : Rule α} (hr : Respects Onward r) (ha : Advances r) {s : State}
    (hs : s.current.kind ≠ .eof) : (recovering r s).2.left < s.left := by
  unfold recovering
  cases h : r s with
  | ok a t => exact ha h
  | error e t =>
    have hst : t.left ≤ s.left := (hr.of_error h).1
    -- A rule that failed at the end had taken a token, for it did not begin there.
    by_cases hend : t.current.kind = .eof
    · have hskip : (synchronized (t.record e)).left ≤ (t.record e).left := left_synchronized_le _
      rw [State.left_record, State.left_of_eof hend] at hskip
      have := State.left_of_ne_eof hs
      show (synchronized (t.record e)).left < s.left
      omega
    · exact Nat.lt_of_lt_of_le (left_synchronized_lt (s := t.record e) hend) hst

/-- Each declaration of the grammar takes a token, whatever becomes of it. -/
theorem left_declaration_lt (free : Nat) {s : State} (hs : s.current.kind ≠ .eof) :
    (declaration (expression free) (statement free) (block free) s).2.left < s.left := by
  have hR := stepClosed_onward
  have hF := functionClosed_onward
  have he := respects_expression hR free
  have hst := respects_statement hR hF free
  have hb := respects_block hR hF free
  refine left_recovering_lt (respects_anyDeclaration hR hF he hst hb) ?_ hs
  intro s t a h
  rw [current_bind] at h
  generalize hk : s.current.kind = kind at h
  split at h
  · exact left_lt_of_advance (respects_variableDeclaration hR he) (by simp [hk]) h
  · exact left_lt_of_advance (respects_functionDeclaration hR hF hb) (by simp [hk]) h
  · exact advances_statement free h

/-- Nothing but the end of the text ends a program. -/
theorem atEnd_declarations {d : State → Option (Stmt Unit) × State}
    (hd : ∀ {s : State}, s.current.kind ≠ .eof → (d s).2.left < s.left) {bound : List Token}
    {s : State} (hs : s.left ≤ bound.length) :
    (declarations d (fun _ => false) bound s).2.current.kind = .eof := by
  induction bound generalizing s with
  | nil => exact State.left_eq_zero_iff.1 (Nat.le_zero.1 hs)
  | cons _ bound ih =>
    rw [declarations]
    by_cases hend : s.current.kind = .eof
    · rw [if_pos (by simp [State.atEnd_eq_true.2 hend])]
      exact hend
    · rw [if_neg (by simpa [State.atEnd] using hend)]
      have := hd hend
      rw [List.length_cons] at hs
      exact ih (by omega)

end Lox.Grammar
