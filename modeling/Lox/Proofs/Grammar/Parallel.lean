import Lox.Proofs.Grammar.Progress
import Lox.Proofs.Syntax.Relabel

namespace Lox

/-!
# Two runs side by side

Two runs of the parser look at the same tokens, up to a relabelling, in states that differ in what
is ahead or in the errors recorded. If taking a token and recording an error keep the difference,
so does every rule: it succeeds in both runs or in none, with the same tree or error up to the
relabelling. The bounds of loops may differ, too, as they do not take effect.

* `SyntaxError.Cause.IsGrammatical` — the causes other than those of unreadable tokens.
* `Grammar.Simulation f R` — the steps of the parser keep the relation `R` between two states.
* `Grammar.Agrees R f g r r'` — runs of `r'` are relabelled runs of `r`, from states with `R`.
* `agrees_expression`, `agrees_statement`, `agrees_block`, `agreeAlways_declaration` — the rules
  of the grammar.
* `agree_parse` — whole programs.
-/

/-- The causes that rules find. The other ones are found while a token is taken. -/
def SyntaxError.Cause.IsGrammatical : SyntaxError.Cause → Prop
  | .lexical _ => False
  | _ => True

/-- A cause that is local to a token of the grammar is grammatical, as only `lexical` is neither. -/
theorem SyntaxError.Cause.IsLocal.isGrammatical {cause : SyntaxError.Cause} (h : cause.IsLocal) :
    cause.IsGrammatical := by
  cases cause with
  | lexical => exact h
  | _ => trivial

namespace Grammar

/-- A relation between the states of two runs that is kept by what rules do to a state. The second
    run looks at the token of the first one, relabelled. -/
structure Simulation (f : Token → Token) (R : State → State → Prop) : Prop where
  relabelling : Token.IsRelabelling f
  current_eq {s s' : State} : R s s' → s'.current = f s.current
  functionDepth_eq {s s' : State} : R s s' → s'.functionDepth = s.functionDepth
  nesting_eq {s s' : State} : R s s' → s'.nesting = s.nesting
  advanced {s s' : State} : R s s' → R s.advanced s'.advanced
  record {s s' : State} (token : Token) {cause : SyntaxError.Cause} : R s s' →
    cause.IsGrammatical → R (s.record ⟨token, cause⟩) (s'.record ⟨f token, cause⟩)
  withLevels {s s' : State} (k l : Nat → Nat) : R s s' →
    R { s with functionDepth := k s.functionDepth, nesting := l s.nesting }
      { s' with functionDepth := k s'.functionDepth, nesting := l s'.nesting }

variable {α β γ δ : Type} {f : Token → Token} {R : State → State → Prop} {g : α → γ} {h : β → δ}

/-- Two results agree: the states are related, trees and errors are relabelled, and at most `n`
    tokens can still be taken. -/
inductive Agree (R : State → State → Prop) (f : Token → Token) (g : α → γ) (n : Nat) :
    EStateM.Result SyntaxError State α → EStateM.Result SyntaxError State γ → Prop
  | ok {a : α} {t t' : State} : t.left ≤ n → R t t' → Agree R f g n (.ok a t) (.ok (g a) t')
  | error {token : Token} {cause : SyntaxError.Cause} {t t' : State} : t.left ≤ n →
      cause.IsGrammatical → R t t' →
      Agree R f g n (.error ⟨token, cause⟩ t) (.error ⟨f token, cause⟩ t')

/-- The number of tokens that can still be taken is only a bound from above. -/
theorem Agree.mono {n m : Nat} {result : EStateM.Result SyntaxError State α}
    {result' : EStateM.Result SyntaxError State γ} (hrun : Agree R f g n result result')
    (hnm : n ≤ m) : Agree R f g m result result' := by
  cases hrun with
  | ok hn ht => exact .ok (Nat.le_trans hn hnm) ht
  | error hn hc ht => exact .error (Nat.le_trans hn hnm) hc ht

/-- In related states, a rule does what another one does, up to relabelling. -/
def Agrees (R : State → State → Prop) (f : Token → Token) (g : α → γ) (r : Rule α)
    (r' : Rule γ) : Prop :=
  ∀ ⦃s s' : State⦄, R s s' → ∀ ⦃n : Nat⦄, s.left ≤ n → Agree R f g n (r s) (r' s')

/-! ### Sequences and single steps -/

/-- Agreement is kept by sequencing. The second part starts from states that the first part really
    reaches, with the value it yields there. -/
theorem Agree.bind {n : Nat} {r : Rule α} {r' : Rule γ} {k : α → Rule β} {k' : γ → Rule δ}
    {s s' : State} (hrun : Agree R f g n (r s) (r' s'))
    (hk : ∀ {a : α} {t t' : State}, r s = .ok a t → R t t' → t.left ≤ n →
      Agree R f h n (k a t) (k' (g a) t')) :
    Agree R f h n ((r >>= k) s) ((r' >>= k') s') := by
  rw [bind_eq, bind_eq]
  generalize hres : r s = result at hrun
  generalize r' s' = result' at hrun
  cases hrun with
  | ok hn hR => exact hk hres hR hn
  | error hn hc hR => exact .error hn hc hR

/-- The form of `Agree.bind` for rules that agree from all related states. -/
theorem Agrees.bind {r : Rule α} {r' : Rule γ} {k : α → Rule β} {k' : γ → Rule δ}
    (hr : Agrees R f g r r') (hk : ∀ a, Agrees R f h (k a) (k' (g a))) :
    Agrees R f h (r >>= k) (r' >>= k') := by
  intro s s' hs n hn
  exact (hr hs hn).bind fun _ ht htn => hk _ ht htn

/-- Values that are images of one another are yielded alike. -/
theorem agrees_pure (a : α) : Agrees R f g (pure a) (pure (g a)) := fun _ _ hs _ hn => .ok hn hs

/-- Functions that commute with the relabelling may be applied to the results. -/
theorem Agrees.map {k : α → β} {k' : γ → δ} {r : Rule α} {r' : Rule γ} (hr : Agrees R f g r r')
    (hk : ∀ a, k' (g a) = h (k a)) : Agrees R f h (k <$> r) (k' <$> r') := by
  refine .bind hr fun a => ?_
  show Agrees R f h (pure (k a)) (pure (k' (g a)))
  rw [hk]
  exact agrees_pure (k a)

/-- What is done to the states when a run is over. -/
theorem Agree.after {n : Nat} {result : EStateM.Result SyntaxError State α}
    {result' : EStateM.Result SyntaxError State γ} (k : State → State)
    (hk : ∀ {t t' : State}, R t t' → R (k t) (k t')) (hleft : ∀ t : State, (k t).left = t.left) :
    Agree R f g n result result' → Agree R f g n
      (match result with
        | .ok a t => .ok a (k t)
        | .error e t => .error e (k t))
      (match result' with
        | .ok a t => .ok a (k t)
        | .error e t => .error e (k t)) := by
  intro hrun
  cases hrun with
  | ok hn ht => exact Agree.ok (Nat.le_trans (Nat.le_of_eq (hleft _)) hn) (hk ht)
  | error hn hc ht => exact Agree.error (Nat.le_trans (Nat.le_of_eq (hleft _)) hn) hc (hk ht)

section

variable (hR : Simulation f R)

include hR

/-- The tokens that can be taken in the two runs are as many. -/
theorem Simulation.left_eq {s s' : State} (hs : R s s') : s'.left = s.left := by
  induction hn : s.left using Nat.strongRecOn generalizing s s' with
  | ind n ih =>
    have hkind : s'.current.kind = s.current.kind := by
      rw [hR.current_eq hs, hR.relabelling.kind_eq]
    by_cases hend : s.current.kind = .eof
    · rw [← hn, State.left_of_eof hend, State.left_of_eof (hkind.trans hend)]
    · have hstep := State.left_advanced hend
      have hstep' := State.left_advanced (hkind ▸ hend)
      have := ih s.advanced.left (by omega) (hR.advanced hs) rfl
      omega

/-- A relabelling does not change kinds, so every test of the current token comes out alike. -/
theorem Simulation.kind_eq {s s' : State} (hs : R s s') : s'.current.kind = s.current.kind := by
  rw [hR.current_eq hs, hR.relabelling.kind_eq]

/-- The current token of the second run is the one of the first run, relabelled. -/
theorem agrees_current : Agrees R f f current current := by
  intro s s' hs n hn
  have hok : Agree R f f n (.ok s.current s) (.ok (f s.current) s') := .ok hn hs
  rwa [← hR.current_eq hs] at hok

/-- The same error is recorded in both runs, at tokens that are images of one another. -/
theorem agrees_note (token : Token) {cause : SyntaxError.Cause} (hc : cause.IsGrammatical) :
    Agrees R f id (note token cause) (note (f token) cause) :=
  fun _ _ hs _ hn => .ok hn (hR.record token hs hc)

/-- Both runs fail at their current tokens, with the same cause. -/
theorem agrees_failHere {cause : SyntaxError.Cause} (hc : cause.IsGrammatical) :
    Agrees R f g (failHere cause) (failHere cause) := by
  intro s s' hs n hn
  rw [failHere_apply, failHere_apply, hR.current_eq hs]
  exact .error hn hc hs

/-- Both runs take a token. -/
theorem agrees_advance : Agrees R f f advance advance := by
  intro s s' hs n hn
  have hok : Agree R f f n (.ok s.current s.advanced) (.ok (f s.current) s'.advanced) :=
    .ok (Nat.le_trans (State.left_advanced_le s) hn) (hR.advanced hs)
  rwa [← hR.current_eq hs] at hok

/-- Both runs see a token of `kind`, or neither does. -/
theorem agrees_sees (kind : Token.Kind) : Agrees R f id (sees kind) (sees kind) := by
  intro s s' hs n hn
  show Agree R f id n (.ok (s.current.kind == kind) s) (.ok (s'.current.kind == kind) s')
  rw [hR.kind_eq hs]
  exact .ok hn hs

/-- Both runs take a token of `kind`, or neither does. -/
theorem agrees_accept (kind : Token.Kind) : Agrees R f id (accept kind) (accept kind) := by
  refine .bind (agrees_sees hR kind) fun seen => ?_
  cases seen with
  | true => exact .bind (agrees_advance hR) fun _ => agrees_pure true
  | false => exact agrees_pure false

/-- Both runs take a token of `kind`, or both fail with the cause `missing`. -/
theorem agrees_expect (kind : Token.Kind) {missing : SyntaxError.Cause}
    (hm : missing.IsGrammatical) : Agrees R f f (expect kind missing) (expect kind missing) := by
  refine .bind (agrees_sees hR kind) fun seen => ?_
  cases seen with
  | true => exact agrees_advance hR
  | false => exact agrees_failHere hR hm

/-- The nesting is the same in both runs, so the check of its bound comes out alike. -/
theorem agrees_nested {r : Rule α} {r' : Rule γ} (hr : Agrees R f g r r') :
    Agrees R f g (nested r) (nested r') := by
  intro s s' hs n hn
  have hnesting := hR.nesting_eq hs
  unfold nested
  by_cases hroom : s.nesting < maxNesting
  · rw [if_pos hroom, if_pos (hnesting ▸ hroom)]
    exact Agree.after (fun t => { t with nesting := t.nesting - 1 }) (hR.withLevels id (· - 1))
      (fun _ => rfl) (hr (hR.withLevels id (· + 1) hs) hn)
  · rw [if_neg hroom, if_neg (hnesting ▸ hroom)]
    have hfail : Agrees R f g (failHere .tooMuchNesting) (failHere .tooMuchNesting) :=
      agrees_failHere hR trivial
    exact hfail hs hn

/-- Entering a function body and leaving it keep the relation. -/
theorem agrees_inFunction {r : Rule α} {r' : Rule γ} (hr : Agrees R f g r r') :
    Agrees R f g (inFunction r) (inFunction r') := by
  intro s s' hs n hn
  exact Agree.after (fun t => { t with functionDepth := t.functionDepth - 1 })
    (hR.withLevels (· - 1) id) (fun _ => rfl) (hr (hR.withLevels (· + 1) id hs) hn)

/-! ### Lists -/

/-- A list of items. Each turn but the last one takes an item and a comma, so the bounds do not
    take effect. -/
theorem agree_separatedFrom {item : Rule α} {g : α → α} (hi : Agrees R f g item item)
    (ha : Advances item) {tooMany : SyntaxError.Cause} (ht : tooMany.IsGrammatical)
    (token token' : Token) {bound bound' : List Token} (count : Nat) {s s' : State} (hs : R s s')
    (hb : s.left ≤ bound.length + 1) (hb' : s.left ≤ bound'.length + 1) :
    Agree R f (List.map g) s.left (separatedFrom item tooMany (token :: bound) count s)
      (separatedFrom item tooMany (token' :: bound') count s') := by
  -- The bounds of the two runs are unrelated, so the induction is on the tokens left.
  induction hm : s.left using Nat.strongRecOn generalizing token token' bound bound' count s s' with
  | ind m ih =>
    subst hm
    -- An item is read in the same way after one too many has been objected to.
    have hitem {t t' : State} (htt : R t t') (hleft : t.left = s.left) :
        Agree R f (List.map g) s.left
          ((do
            let first ← item
            if ← accept Symbol.comma then
              return first :: (← separatedFrom item tooMany bound (count + 1))
            else
              return [first] : Rule (List α)) t)
          ((do
            let first ← item
            if ← accept Symbol.comma then
              return first :: (← separatedFrom item tooMany bound' (count + 1))
            else
              return [first] : Rule (List α)) t') := by
      refine (hi htt (Nat.le_of_eq hleft)).bind fun {first u u'} hfirst hu hun => ?_
      have hlt := ha hfirst
      rw [accept_bind, accept_bind, hR.kind_eq hu]
      by_cases hcomma : u.current.kind = Symbol.comma
      · have hseen : (u.current.kind == Symbol.comma) = true := beq_iff_eq.2 hcomma
        rw [if_pos hseen, if_pos hseen]
        have hstep := State.left_advanced (s := u) (by simp [hcomma])
        obtain ⟨next, bound, rfl⟩ := List.exists_cons_of_length_pos (l := bound) (by omega)
        obtain ⟨next', bound', rfl⟩ := List.exists_cons_of_length_pos (l := bound') (by omega)
        rw [List.length_cons] at hb hb'
        have hbound : u.advanced.left ≤ bound.length + 1 := by omega
        have hbound' : u.advanced.left ≤ bound'.length + 1 := by omega
        have hrest := ih u.advanced.left (by omega) next next' (count + 1) (hR.advanced hu) hbound
          hbound' rfl
        have hle : u.advanced.left ≤ s.left := by omega
        exact (hrest.mono hle).bind fun _ hv hvn => .ok hvn hv
      · have hseen : ¬(u.current.kind == Symbol.comma) = true := fun h => hcomma (beq_iff_eq.1 h)
        rw [if_neg hseen, if_neg hseen]
        exact .ok hun hu
    rw [separatedFrom, separatedFrom]
    by_cases hmany : maxArguments ≤ count
    · rw [if_pos hmany, if_pos hmany]
      rw [current_bind, current_bind, note_bind, note_bind, hR.current_eq hs]
      exact hitem (hR.record s.current hs ht) (State.left_record s _)
    · rw [if_neg hmany, if_neg hmany]
      exact hitem hs rfl

/-- `agree_separatedFrom` from the first item, with the tokens ahead as bounds. -/
theorem agrees_separated {item : Rule α} {g : α → α} (hi : Agrees R f g item item)
    (ha : Advances item) {tooMany : SyntaxError.Cause} (ht : tooMany.IsGrammatical) :
    Agrees R f (List.map g) (separated item tooMany) (separated item tooMany) := by
  refine .bind (agrees_sees hR _) fun empty => ?_
  cases empty with
  | true => exact agrees_pure []
  | false =>
    intro s s' hs n hn
    have hb := s.left_le_length_remaining
    have hb' := s'.left_le_length_remaining
    rw [hR.left_eq hs] at hb'
    exact (agree_separatedFrom hR hi ha ht s.current s'.current 0 hs hb hb').mono hn

/-! ### Expressions -/

omit hR in
/-- A chain ends in front of a token that is not one of its operators, whatever its bound. -/
theorem chainFrom_of_not {isOperator : Token.Kind → Bool} {join : Expr → Token → Expr → Expr}
    {operand : Rule Expr} {bound : List Token} {left : Expr} {s : State}
    (h : isOperator s.current.kind = false) :
    chainFrom isOperator join operand bound left s = .ok left s := by
  cases bound with
  | nil => rfl
  | cons =>
    rw [chainFrom, current_bind, h]
    rfl

/-- The rest of a chain. Each turn takes an operator, so the bounds do not take effect. -/
theorem agree_chainFrom {isOperator : Token.Kind → Bool} {join : Expr → Token → Expr → Expr}
    (hend : isOperator .eof = false)
    (hjoin : ∀ l op r, (join l op r).relabel f = join (l.relabel f) (f op) (r.relabel f))
    {operand : Rule Expr} (ho : Agrees R f (Expr.relabel f) operand operand)
    {bound bound' : List Token} (left : Expr) {s s' : State} (hs : R s s')
    (hb : s.left ≤ bound.length) (hb' : s.left ≤ bound'.length) :
    Agree R f (Expr.relabel f) s.left (chainFrom isOperator join operand bound left s)
      (chainFrom isOperator join operand bound' (left.relabel f) s') := by
  -- As with lists, the induction is on the tokens left, which both runs have in common.
  induction hm : s.left using Nat.strongRecOn generalizing bound bound' left s s' with
  | ind m ih =>
    subst hm
    by_cases hop : isOperator s.current.kind = true
    · -- An operator is not the end, so both bounds have an entry for this turn.
      have hne : s.current.kind ≠ .eof := by
        intro heof
        rw [heof, hend] at hop
        exact absurd hop (by simp)
      have hstep := State.left_advanced hne
      obtain ⟨_, bound, rfl⟩ := List.exists_cons_of_length_pos (l := bound) (by omega)
      obtain ⟨_, bound', rfl⟩ := List.exists_cons_of_length_pos (l := bound') (by omega)
      rw [List.length_cons] at hb hb'
      rw [chainFrom, chainFrom, current_bind, current_bind, hR.kind_eq hs, if_pos hop, if_pos hop,
        advance_bind, advance_bind, hR.current_eq hs]
      refine Agree.mono ?_ (Nat.le_of_lt (Nat.lt_of_succ_le (Nat.le_of_eq hstep)))
      refine (ho (hR.advanced hs) (Nat.le_refl _)).bind fun {right t t'} _ ht htn => ?_
      have hbound : t.left ≤ bound.length := by omega
      have hbound' : t.left ≤ bound'.length := by omega
      have hrest := ih t.left (by omega) (join left s.current right) ht hbound hbound' rfl
      rw [hjoin] at hrest
      exact hrest.mono htn
    · rw [Bool.not_eq_true] at hop
      rw [chainFrom_of_not hop, chainFrom_of_not (hR.kind_eq hs ▸ hop)]
      exact .ok (Nat.le_refl _) hs

/-- `agree_chainFrom` after the first operand. -/
theorem agrees_chain {isOperator : Token.Kind → Bool} {join : Expr → Token → Expr → Expr}
    (hend : isOperator .eof = false)
    (hjoin : ∀ l op r, (join l op r).relabel f = join (l.relabel f) (f op) (r.relabel f))
    {operand : Rule Expr} (ho : Agrees R f (Expr.relabel f) operand operand) :
    Agrees R f (Expr.relabel f) (chain isOperator join operand)
      (chain isOperator join operand) := by
  refine .bind ho fun first s s' hs n hn => ?_
  have hb := s.left_le_length_remaining
  have hb' := s'.left_le_length_remaining
  rw [hR.left_eq hs] at hb'
  exact (agree_chainFrom hR hend hjoin ho first hs hb hb').mono hn

/-- The levels from `or` down to `*` are six chains, one within the other. -/
theorem agrees_disjunction {operand : Rule Expr}
    (ho : Agrees R f (Expr.relabel f) operand operand) :
    Agrees R f (Expr.relabel f) (disjunction operand) (disjunction operand) := by
  have hbinary (l : Expr) (op : Token) (r : Expr) :
      (Expr.binary l op r).relabel f = .binary (l.relabel f) (f op) (r.relabel f) := rfl
  have hlogical (l : Expr) (op : Token) (r : Expr) :
      (Expr.logical l op r).relabel f = .logical (l.relabel f) (f op) (r.relabel f) := rfl
  exact agrees_chain hR rfl hlogical <| agrees_chain hR rfl hlogical <|
    agrees_chain hR rfl hbinary <| agrees_chain hR rfl hbinary <| agrees_chain hR rfl hbinary <|
    agrees_chain hR rfl hbinary ho

/-- An assignment agrees, and so does the objection to an invalid target, which still reads what is
    assigned. -/
theorem agrees_assignment {expression operand : Rule Expr}
    (he : Agrees R f (Expr.relabel f) expression expression)
    (ho : Agrees R f (Expr.relabel f) operand operand) :
    Agrees R f (Expr.relabel f) (assignment expression operand)
      (assignment expression operand) := by
  refine .bind (agrees_disjunction hR ho) fun target => .bind (agrees_sees hR _) fun assigns => ?_
  cases assigns with
  | false => exact agrees_pure target
  | true =>
    -- Whatever else the target is, the rule objects at the `=` and gives the target back.
    have hobject : Agrees R f (Expr.relabel f)
        (do
          note (← current) .invalidAssignmentTarget
          let _ ← advance
          let _ ← expression
          return target)
        (do
          note (← current) .invalidAssignmentTarget
          let _ ← advance
          let _ ← expression
          return target.relabel f) :=
      .bind (agrees_current hR) fun token => .bind (agrees_note hR token trivial) fun _ =>
        .bind (agrees_advance hR) fun _ => .bind he fun _ => agrees_pure target
    cases target with
    | name n =>
      exact .bind (agrees_advance hR) fun _ => .bind he fun value =>
        agrees_pure (Expr.assign n value)
    | constant => exact hobject
    | group => exact hobject
    | unary => exact hobject
    | binary => exact hobject
    | logical => exact hobject
    | assign => exact hobject
    | call => exact hobject

/-- Literals agree since the relabelling keeps kinds and literals. -/
theorem agrees_primary {expression : Rule Expr}
    (he : Agrees R f (Expr.relabel f) expression expression) :
    Agrees R f (Expr.relabel f) (primary expression) (primary expression) := by
  have hconstant (c : Constant) :
      Agrees R f (Expr.relabel f) (primary.constant c) (primary.constant c) :=
    .bind (agrees_advance hR) fun _ => agrees_pure (Expr.constant c)
  -- The cases are those of the rule: constants, numbers, strings, names, groups and anything else.
  refine .bind (agrees_current hR) fun token => ?_
  rw [hR.relabelling.kind_eq, hR.relabelling.literal_eq]
  split
  · exact hconstant _
  · exact hconstant _
  · exact hconstant _
  · split
    · exact hconstant _
    · exact agrees_failHere hR trivial
  · split
    · exact hconstant _
    · exact agrees_failHere hR trivial
  · exact .bind (agrees_advance hR) fun name => agrees_pure (Expr.name name)
  · exact .bind (agrees_advance hR) fun _ => .bind he fun inner =>
      .bind (agrees_expect hR _ trivial) fun _ => agrees_pure (Expr.group inner)
  · exact agrees_failHere hR trivial

omit hR in
/-- There are no more calls in front of a token that is no parenthesis, whatever the bound. -/
theorem callsFrom_of_not {expression : Rule Expr} {bound : List Token} {callee : Expr} {s : State}
    (h : s.current.kind ≠ Symbol.leftParen) :
    callsFrom expression bound callee s = .ok callee s := by
  cases bound with
  | nil => rfl
  | cons =>
    rw [callsFrom, accept_bind, if_neg fun hk => h (beq_iff_eq.1 hk)]
    rfl

/-- The rest of the calls. Each of them takes a parenthesis, so the bounds do not take effect. -/
theorem agree_callsFrom {expression : Rule Expr}
    (he : Agrees R f (Expr.relabel f) expression expression) (ha : Advances expression)
    {bound bound' : List Token} (callee : Expr) {s s' : State} (hs : R s s')
    (hb : s.left ≤ bound.length) (hb' : s.left ≤ bound'.length) :
    Agree R f (Expr.relabel f) s.left (callsFrom expression bound callee s)
      (callsFrom expression bound' (callee.relabel f) s') := by
  induction hm : s.left using Nat.strongRecOn generalizing bound bound' callee s s' with
  | ind m ih =>
    subst hm
    have hkind := hR.kind_eq hs
    by_cases hparen : s.current.kind = Symbol.leftParen
    · have hstep := State.left_advanced (s := s) (by simp [hparen])
      obtain ⟨_, bound, rfl⟩ := List.exists_cons_of_length_pos (l := bound) (by omega)
      obtain ⟨_, bound', rfl⟩ := List.exists_cons_of_length_pos (l := bound') (by omega)
      rw [List.length_cons] at hb hb'
      rw [callsFrom, callsFrom, accept_bind, accept_bind, hkind, if_pos (beq_iff_eq.2 hparen),
        if_pos (beq_iff_eq.2 hparen)]
      refine Agree.mono ?_ (Nat.le_of_lt (Nat.lt_of_succ_le (Nat.le_of_eq hstep)))
      -- The arguments and the closing parenthesis take further tokens, so enough bound is left.
      have hlist : Agrees R f (List.map (Expr.relabel f)) (separated expression .tooManyArguments)
          (separated expression .tooManyArguments) := agrees_separated hR he ha trivial
      refine (hlist (hR.advanced hs) (Nat.le_refl _)).bind fun {arguments t t'} _ ht htn => ?_
      have hclose : Agrees R f f (expect Symbol.rightParen .missingCloseOfArguments)
          (expect Symbol.rightParen .missingCloseOfArguments) := agrees_expect hR _ trivial
      refine (hclose ht htn).bind fun {paren u u'} _ hu hun => ?_
      have hbound : u.left ≤ bound.length := by omega
      have hbound' : u.left ≤ bound'.length := by omega
      have hrest := ih u.left (by omega) (.call callee paren arguments) hu hbound hbound' rfl
      rw [Expr.relabel, Expr.relabelAll_eq_map] at hrest
      exact hrest.mono hun
    · rw [callsFrom_of_not hparen, callsFrom_of_not (hkind ▸ hparen)]
      exact .ok (Nat.le_refl _) hs

/-- `agree_callsFrom` after the callee. -/
theorem agrees_calls {expression : Rule Expr}
    (he : Agrees R f (Expr.relabel f) expression expression) (ha : Advances expression) :
    Agrees R f (Expr.relabel f) (calls expression) (calls expression) := by
  refine .bind (agrees_primary hR he) fun callee s s' hs n hn => ?_
  have hb := s.left_le_length_remaining
  have hb' := s'.left_le_length_remaining
  rw [hR.left_eq hs] at hb'
  exact (agree_callsFrom hR he ha callee hs hb hb').mono hn

/-- An operator in front is taken in both runs or in none. -/
theorem agrees_unaryOr {inner operand : Rule Expr} (hi : Agrees R f (Expr.relabel f) inner inner)
    (ho : Agrees R f (Expr.relabel f) operand operand) :
    Agrees R f (Expr.relabel f) (unaryOr inner operand) (unaryOr inner operand) := by
  refine .bind (agrees_current hR) fun token => ?_
  rw [hR.relabelling.kind_eq]
  split
  · exact .bind (agrees_advance hR) fun op => .bind hi fun e => agrees_pure (Expr.unary op e)
  · exact ho

/-- Both rules for expressions agree at every level of nesting. -/
theorem agrees_expression_unary (free : Nat) :
    Agrees R f (Expr.relabel f) (expression free) (expression free) ∧
      Agrees R f (Expr.relabel f) (unary free) (unary free) := by
  have hfail : Agrees R f (Expr.relabel f) (failHere .tooMuchNesting) (failHere .tooMuchNesting) :=
    agrees_failHere hR trivial
  -- The induction is on the nesting that is left, as in the definition of the two rules.
  induction free with
  | zero =>
    exact ⟨hfail, agrees_unaryOr hR hfail (agrees_calls hR hfail (advances_failHere _))⟩
  | succ free ih =>
    have he : Agrees R f (Expr.relabel f) (expression (free + 1)) (expression (free + 1)) :=
      agrees_nested hR (agrees_assignment hR ih.1 ih.2)
    exact ⟨he, agrees_unaryOr hR (agrees_nested hR ih.2)
      (agrees_calls hR he (advances_expression (free + 1)))⟩

/-- Two runs of the rule for expressions agree. -/
theorem agrees_expression (free : Nat) :
    Agrees R f (Expr.relabel f) (expression free) (expression free) :=
  (agrees_expression_unary hR free).1

/-! ### Declarations -/

/-- A variable without an initializer is read as one that is `nil` in both runs. -/
theorem agrees_variableDeclaration {expression : Rule Expr}
    (he : Agrees R f (Expr.relabel f) expression expression) :
    Agrees R f (Stmt.relabel f) (variableDeclaration expression)
      (variableDeclaration expression) := by
  refine .bind (agrees_expect hR _ trivial) fun name => ?_
  refine .bind (agrees_accept hR _) fun initialized => ?_
  -- The semicolon comes behind either value.
  have hend (value : Expr) : Agrees R f (Stmt.relabel f)
      (do
        let _ ← expect Symbol.semicolon .missingEndOfVariable
        return (.variable name value : Stmt Unit))
      (do
        let _ ← expect Symbol.semicolon .missingEndOfVariable
        return (.variable (f name) (value.relabel f) : Stmt Unit)) :=
    .bind (agrees_expect hR _ trivial) fun _ => agrees_pure (Stmt.variable name value)
  cases initialized with
  | true => exact .bind he hend
  | false => exact .bind (agrees_pure Expr.nil) hend

/-- A function declaration agrees where the block of its body does. -/
theorem agrees_functionDeclaration {block : Rule (List (Stmt Unit))}
    (hb : Agrees R f (List.map (Stmt.relabel f)) block block) :
    Agrees R f (Stmt.relabel f) (functionDeclaration block) (functionDeclaration block) := by
  have hparameter : Agrees R f f (expect .identifier .missingParameterName)
      (expect .identifier .missingParameterName) := agrees_expect hR _ trivial
  refine .bind (agrees_expect hR _ trivial) fun name =>
    .bind (agrees_expect hR _ trivial) fun _ =>
    .bind (agrees_separated hR hparameter (advances_expect (by simp)) trivial) fun parameters =>
    .bind (agrees_expect hR _ trivial) fun _ =>
    .bind (agrees_expect hR _ trivial) fun _ =>
    .bind (agrees_inFunction hR hb) fun body => ?_
  have hpure : Agrees R f (Stmt.relabel f) (pure (.function () name parameters body))
      (pure ((Stmt.function () name parameters body).relabel f)) := agrees_pure _
  rwa [Stmt.relabel, Stmt.relabelAll_eq_map] at hpure

/-- Two runs of something that always yields a state agree. -/
structure AgreeAlways (R : State → State → Prop) (g : α → γ) (n : Nat) (result : α × State)
    (result' : γ × State) : Prop where
  left_le : result.2.left ≤ n
  fst_eq : result'.1 = g result.1
  snd : R result.2 result'.2

omit hR in
/-- Recovery stops where its test says so, whatever its bound. -/
theorem synchronizedFrom_of_stop {bound : List Token} {passed : Token} {s : State}
    (h : (s.atEnd || passed.kind == .symbol .semicolon || s.current.kind.startsStatement) = true) :
    synchronizedFrom bound passed s = s := by
  cases bound with
  | nil => rfl
  | cons => rw [synchronizedFrom, if_pos h]

/-- Recovery discards tokens alike in both runs. Its test looks at kinds only. -/
theorem Simulation.synchronizedFrom {bound bound' : List Token} {passed passed' : Token}
    (hp : passed'.kind = passed.kind) {s s' : State} (hs : R s s')
    (hb : s.left ≤ bound.length) (hb' : s.left ≤ bound'.length) :
    R (synchronizedFrom bound passed s) (synchronizedFrom bound' passed' s') := by
  induction hm : s.left using Nat.strongRecOn generalizing bound bound' passed passed' s s' with
  | ind m ih =>
    subst hm
    have hkind := hR.kind_eq hs
    -- The two tests are equal, and where they fail, a token is left for this turn.
    have hstops : (s'.atEnd || passed'.kind == .symbol .semicolon ||
        s'.current.kind.startsStatement) = (s.atEnd || passed.kind == .symbol .semicolon ||
        s.current.kind.startsStatement) := by
      rw [State.atEnd, State.atEnd, hkind, hp]
    by_cases hstop : (s.atEnd || passed.kind == .symbol .semicolon ||
        s.current.kind.startsStatement) = true
    · rw [synchronizedFrom_of_stop hstop, synchronizedFrom_of_stop (hstops.trans hstop)]
      exact hs
    · have hne : s.current.kind ≠ .eof := by
        intro heof
        simp [State.atEnd_eq_true.2 heof] at hstop
      have hstep := State.left_advanced hne
      obtain ⟨_, bound, rfl⟩ := List.exists_cons_of_length_pos (l := bound) (by omega)
      obtain ⟨_, bound', rfl⟩ := List.exists_cons_of_length_pos (l := bound') (by omega)
      rw [List.length_cons] at hb hb'
      rw [Grammar.synchronizedFrom, Grammar.synchronizedFrom, if_neg hstop, if_neg (hstops ▸ hstop)]
      have hbound : s.advanced.left ≤ bound.length := by omega
      have hbound' : s.advanced.left ≤ bound'.length := by omega
      exact ih s.advanced.left (by omega) hkind (hR.advanced hs) hbound hbound' rfl

/-- Recovery as a whole keeps the relation. -/
theorem Simulation.synchronized {s s' : State} (hs : R s s') :
    R (synchronized s) (synchronized s') := by
  have hb := s.advanced.left_le_length_remaining
  have hb' := s'.advanced.left_le_length_remaining
  rw [hR.left_eq (hR.advanced hs)] at hb'
  exact hR.synchronizedFrom (hR.kind_eq hs) (hR.advanced hs) hb hb'

/-- A rule that fails is replaced by the record of its error and by recovery in both runs. -/
theorem agreeAlways_recovering {r r' : Rule α} {g : α → α} (hr : Agrees R f g r r')
    {s s' : State} (hs : R s s') {n : Nat} (hn : s.left ≤ n) :
    AgreeAlways R (Option.map g) n (recovering r s) (recovering r' s') := by
  have hrun := hr hs hn
  unfold recovering
  generalize r s = result at hrun
  generalize r' s' = result' at hrun
  cases hrun with
  | ok hn ht => exact ⟨hn, rfl, ht⟩
  | @error token cause t t' hn hc ht =>
    -- Recovery only moves forward, so the bound on the tokens left is kept.
    have hskip : (Grammar.synchronized (t.record ⟨token, cause⟩)).left ≤ t.left :=
      left_synchronized_le _
    exact ⟨Nat.le_trans hskip hn, rfl, hR.synchronized (hR.record token ht hc)⟩

/-- One declaration agrees where its parts do, and it recovers from its errors alike. -/
theorem agreeAlways_anyDeclaration {expression : Rule Expr} {statement : Rule (Stmt Unit)}
    {block : Rule (List (Stmt Unit))} (he : Agrees R f (Expr.relabel f) expression expression)
    (hst : Agrees R f (Stmt.relabel f) statement statement)
    (hb : Agrees R f (List.map (Stmt.relabel f)) block block) {s s' : State} (hs : R s s') {n : Nat}
    (hn : s.left ≤ n) :
    AgreeAlways R (Option.map (Stmt.relabel f)) n (declaration expression statement block s)
      (declaration expression statement block s') := by
  refine agreeAlways_recovering hR (.bind (agrees_current hR) fun token => ?_) hs hn
  rw [hR.relabelling.kind_eq]
  split
  · exact .bind (agrees_advance hR) fun _ => agrees_variableDeclaration hR he
  · exact .bind (agrees_advance hR) fun _ => agrees_functionDeclaration hR hb
  · exact hst

omit hR in
/-- A list of declarations stops where its test says so, whatever its bound. -/
theorem declarations_of_stop {d : State → Option (Stmt Unit) × State} {closes : Token.Kind → Bool}
    {bound : List Token} {s : State} (h : (s.atEnd || closes s.current.kind) = true) :
    declarations d closes bound s = ([], s) := by
  cases bound with
  | nil => rfl
  | cons => rw [declarations, if_pos h]

/-- A list of declarations. Each of them takes a token, so the bounds do not take effect. -/
theorem agreeAlways_declarations {d : State → Option (Stmt Unit) × State}
    (hd : ∀ {s s' : State}, R s s' → ∀ {n : Nat}, s.left ≤ n →
      AgreeAlways R (Option.map (Stmt.relabel f)) n (d s) (d s'))
    (ha : ∀ {s : State}, s.current.kind ≠ .eof → (d s).2.left < s.left)
    (closes : Token.Kind → Bool) {bound bound' : List Token} {s s' : State} (hs : R s s')
    (hb : s.left ≤ bound.length) (hb' : s.left ≤ bound'.length) :
    AgreeAlways R (List.map (Stmt.relabel f)) s.left (declarations d closes bound s)
      (declarations d closes bound' s') := by
  induction hm : s.left using Nat.strongRecOn generalizing bound bound' s s' with
  | ind m ih =>
    subst hm
    have hstops : (s'.atEnd || closes s'.current.kind) = (s.atEnd || closes s.current.kind) := by
      rw [State.atEnd, State.atEnd, hR.kind_eq hs]
    by_cases hstop : (s.atEnd || closes s.current.kind) = true
    · rw [declarations_of_stop hstop, declarations_of_stop (hstops.trans hstop)]
      exact ⟨Nat.le_refl _, rfl, hs⟩
    · have hne : s.current.kind ≠ .eof := by
        intro heof
        simp [State.atEnd_eq_true.2 heof] at hstop
      have hlt := ha hne
      obtain ⟨_, bound, rfl⟩ := List.exists_cons_of_length_pos (l := bound) (by omega)
      obtain ⟨_, bound', rfl⟩ := List.exists_cons_of_length_pos (l := bound') (by omega)
      rw [List.length_cons] at hb hb'
      -- The first declaration agrees and leaves fewer tokens, to which the induction applies.
      have hfirst := hd hs (Nat.le_refl _)
      have hbound : (d s).2.left ≤ bound.length := by omega
      have hbound' : (d s).2.left ≤ bound'.length := by omega
      have hrest := ih (d s).2.left hlt hfirst.snd hbound hbound' rfl
      rw [declarations, declarations, if_neg hstop, if_neg (hstops ▸ hstop)]
      refine ⟨Nat.le_trans hrest.left_le (Nat.le_of_lt hlt), ?_, hrest.snd⟩
      simp only [hfirst.fst_eq, hrest.fst_eq, List.map_append]
      cases (d s).1 <;> rfl

/-- The contents of a block are its declarations and the closing brace. -/
theorem agrees_blockContents {d : State → Option (Stmt Unit) × State}
    (hd : ∀ {s s' : State}, R s s' → ∀ {n : Nat}, s.left ≤ n →
      AgreeAlways R (Option.map (Stmt.relabel f)) n (d s) (d s'))
    (ha : ∀ {s : State}, s.current.kind ≠ .eof → (d s).2.left < s.left) :
    Agrees R f (List.map (Stmt.relabel f)) (blockContents d) (blockContents d) := by
  intro s s' hs n hn
  -- Behind the declarations both rules do the same.
  have hclose (body : List (Stmt Unit)) : Agrees R f (List.map (Stmt.relabel f))
      (do
        let _ ← expect Symbol.rightBrace .missingEndOfBlock
        return body)
      (do
        let _ ← expect Symbol.rightBrace .missingEndOfBlock
        return body.map (Stmt.relabel f)) :=
    .bind (agrees_expect hR _ trivial) fun _ => agrees_pure body
  have hb := s.left_le_length_remaining
  have hb' := s'.left_le_length_remaining
  rw [hR.left_eq hs] at hb'
  have hbody := agreeAlways_declarations hR hd ha (· == .symbol .rightBrace) hs hb hb'
  rw [blockContents, get_bind, get_bind]
  have hrest := hclose (declarations d (· == .symbol .rightBrace) s.remaining s).1 hbody.snd
    (Nat.le_trans hbody.left_le hn)
  rw [← hbody.fst_eq] at hrest
  exact hrest

/-! ### Statements -/

/-- A `print` statement keeps its keyword, which is relabelled. -/
theorem agrees_printStatement {expression : Rule Expr}
    (he : Agrees R f (Expr.relabel f) expression expression) (keyword : Token) :
    Agrees R f (Stmt.relabel f) (printStatement expression keyword)
      (printStatement expression (f keyword)) :=
  .bind he fun value => .bind (agrees_expect hR _ trivial) fun _ =>
    agrees_pure (Stmt.print keyword value)

/-- An expression statement agrees where expressions do. -/
theorem agrees_expressionStatement {expression : Rule Expr}
    (he : Agrees R f (Expr.relabel f) expression expression) :
    Agrees R f (Stmt.relabel f) (expressionStatement expression) (expressionStatement expression) :=
  .bind he fun value => .bind (agrees_expect hR _ trivial) fun _ =>
    agrees_pure (Stmt.expression value)

/-- The depth of functions is the same in both runs, so a `return` is objected to in both or in
    none. -/
theorem agrees_returnStatement {expression : Rule Expr}
    (he : Agrees R f (Expr.relabel f) expression expression) (keyword : Token) :
    Agrees R f (Stmt.relabel f) (returnStatement expression keyword)
      (returnStatement expression (f keyword)) := by
  -- After the value, both runs expect the semicolon.
  have hend (value : Expr) : Agrees R f (Stmt.relabel f)
      (do
        let _ ← expect Symbol.semicolon .missingEndOfReturn
        return (.return keyword value : Stmt Unit))
      (do
        let _ ← expect Symbol.semicolon .missingEndOfReturn
        return (.return (f keyword) (value.relabel f) : Stmt Unit)) :=
    .bind (agrees_expect hR _ trivial) fun _ => agrees_pure (Stmt.return keyword value)
  -- The value is left out in both runs or in none.
  have hrest : Agrees R f (Stmt.relabel f)
      (do
        let value ← if ← sees Symbol.semicolon then pure Expr.nil else expression
        let _ ← expect Symbol.semicolon .missingEndOfReturn
        return (.return keyword value : Stmt Unit))
      (do
        let value ← if ← sees Symbol.semicolon then pure Expr.nil else expression
        let _ ← expect Symbol.semicolon .missingEndOfReturn
        return (.return (f keyword) value : Stmt Unit)) := by
    refine .bind (agrees_sees hR _) fun empty => ?_
    cases empty with
    | true => exact .bind (agrees_pure Expr.nil) hend
    | false => exact .bind he hend
  -- What is left is the check of the depth, which comes before the value.
  intro s s' hs n hn
  rw [returnStatement, returnStatement, get_bind, get_bind, hR.functionDepth_eq hs]
  split
  · have hnote : Agrees R f id (note keyword .returnAtTopLevel)
        (note (f keyword) .returnAtTopLevel) := agrees_note hR keyword trivial
    exact (hnote.bind fun _ => hrest) hs hn
  · exact hrest hs hn

/-- An `if` statement has an `else` in both runs or in none. -/
theorem agrees_ifStatement {expression : Rule Expr} {statement : Rule (Stmt Unit)}
    (he : Agrees R f (Expr.relabel f) expression expression)
    (hst : Agrees R f (Stmt.relabel f) statement statement) :
    Agrees R f (Stmt.relabel f) (ifStatement expression statement)
      (ifStatement expression statement) := by
  refine .bind (agrees_expect hR _ trivial) fun _ => .bind he fun condition =>
    .bind (agrees_expect hR _ trivial) fun _ => .bind hst fun yes =>
    .bind (agrees_accept hR _) fun elses => ?_
  cases elses with
  | true => exact .bind hst fun no => agrees_pure (Stmt.ifElse condition yes no)
  | false => exact agrees_pure (Stmt.ifThen condition yes)

/-- A `while` statement agrees where its condition and its body do. -/
theorem agrees_whileStatement {expression : Rule Expr} {statement : Rule (Stmt Unit)}
    (he : Agrees R f (Expr.relabel f) expression expression)
    (hst : Agrees R f (Stmt.relabel f) statement statement) :
    Agrees R f (Stmt.relabel f) (whileStatement expression statement)
      (whileStatement expression statement) :=
  .bind (agrees_expect hR _ trivial) fun _ => .bind he fun condition =>
    .bind (agrees_expect hR _ trivial) fun _ => .bind hst fun body =>
    agrees_pure (Stmt.while condition body)

/-- The three kinds of initializers are told apart by the kind of a token. -/
theorem agrees_forInitializer {expression : Rule Expr}
    (he : Agrees R f (Expr.relabel f) expression expression) :
    Agrees R f (Option.map (Stmt.relabel f)) (forInitializer expression)
      (forInitializer expression) := by
  refine .bind (agrees_current hR) fun token => ?_
  rw [hR.relabelling.kind_eq]
  split
  · exact .bind (agrees_advance hR) fun _ => agrees_pure none
  · exact .bind (agrees_advance hR) fun _ => .bind (agrees_variableDeclaration hR he) fun s =>
      agrees_pure (some s)
  · exact .bind (agrees_expressionStatement hR he) fun s => agrees_pure (some s)

/-- A `for` statement agrees where its parts do. Relabelling commutes with the translation into a
    `while` loop. -/
theorem agrees_forStatement {expression : Rule Expr} {statement : Rule (Stmt Unit)}
    (he : Agrees R f (Expr.relabel f) expression expression)
    (hst : Agrees R f (Stmt.relabel f) statement statement) :
    Agrees R f (Stmt.relabel f) (forStatement expression statement)
      (forStatement expression statement) := by
  -- The clauses are read from the left. Each fact is about what follows a clause.
  have hbody (initializer : Option (Stmt Unit)) (condition : Expr) (step : Option Expr) :
      Agrees R f (Stmt.relabel f)
        (do
          let _ ← expect Symbol.rightParen .missingCloseOfFor
          return Stmt.forLoop initializer condition step (← statement))
        (do
          let _ ← expect Symbol.rightParen .missingCloseOfFor
          return Stmt.forLoop (initializer.map (Stmt.relabel f)) (condition.relabel f)
            (step.map (Expr.relabel f)) (← statement)) := by
    refine .bind (agrees_expect hR _ trivial) fun _ => .bind hst fun body => ?_
    rw [← Stmt.relabel_forLoop]
    exact agrees_pure _
  have hstep (initializer : Option (Stmt Unit)) (condition : Expr) : Agrees R f (Stmt.relabel f)
      (do
        let _ ← expect Symbol.semicolon .missingEndOfForCondition
        let step ← if ← sees Symbol.rightParen then pure none else some <$> expression
        let _ ← expect Symbol.rightParen .missingCloseOfFor
        return Stmt.forLoop initializer condition step (← statement))
      (do
        let _ ← expect Symbol.semicolon .missingEndOfForCondition
        let step ← if ← sees Symbol.rightParen then pure none else some <$> expression
        let _ ← expect Symbol.rightParen .missingCloseOfFor
        return Stmt.forLoop (initializer.map (Stmt.relabel f)) (condition.relabel f) step
          (← statement)) := by
    refine .bind (agrees_expect hR _ trivial) fun _ => .bind (agrees_sees hR _) fun noStep => ?_
    cases noStep with
    | true => exact .bind (agrees_pure none) (hbody initializer condition)
    | false => exact .bind (he.map fun _ => rfl) (hbody initializer condition)
  refine .bind (agrees_expect hR _ trivial) fun _ => .bind (agrees_forInitializer hR he)
    fun initializer => .bind (agrees_sees hR _) fun noCondition => ?_
  cases noCondition with
  | true => exact .bind (agrees_pure (Expr.constant (.bool true))) (hstep initializer)
  | false => exact .bind he (hstep initializer)

/-- One statement agrees where its parts do. -/
theorem agrees_anyStatement {expression : Rule Expr} {statement : Rule (Stmt Unit)}
    {block : Rule (List (Stmt Unit))} (he : Agrees R f (Expr.relabel f) expression expression)
    (hst : Agrees R f (Stmt.relabel f) statement statement)
    (hb : Agrees R f (List.map (Stmt.relabel f)) block block) :
    Agrees R f (Stmt.relabel f) (anyStatement expression statement block)
      (anyStatement expression statement block) := by
  refine .bind (agrees_current hR) fun token => ?_
  -- Both runs look at a token of the same kind, so they go on with the same rule.
  rw [hR.relabelling.kind_eq]
  split
  · exact .bind (agrees_advance hR) fun keyword => agrees_printStatement hR he keyword
  · refine .bind (agrees_advance hR) fun _ => .bind hb fun body => ?_
    rw [← Stmt.relabelAll_eq_map]
    exact agrees_pure (Stmt.block body)
  · exact .bind (agrees_advance hR) fun _ => agrees_ifStatement hR he hst
  · exact .bind (agrees_advance hR) fun _ => agrees_whileStatement hR he hst
  · exact .bind (agrees_advance hR) fun _ => agrees_forStatement hR he hst
  · exact .bind (agrees_advance hR) fun keyword => agrees_returnStatement hR he keyword
  · exact agrees_expressionStatement hR he

/-- Statements and blocks agree at every level of nesting. -/
theorem agrees_statement_block (free : Nat) :
    Agrees R f (Stmt.relabel f) (statement free) (statement free) ∧
      Agrees R f (List.map (Stmt.relabel f)) (block free) (block free) := by
  induction free with
  | zero => exact ⟨agrees_failHere hR trivial, agrees_failHere hR trivial⟩
  | succ free ih =>
    have he := agrees_expression hR free
    refine ⟨agrees_nested hR (agrees_anyStatement hR he ih.1 ih.2),
      agrees_nested hR (agrees_blockContents hR (fun hs _ hn => ?_) (left_declaration_lt free))⟩
    exact agreeAlways_anyDeclaration hR he ih.1 ih.2 hs hn

/-- Two runs of the rule for declarations agree. -/
theorem agreeAlways_declaration (free : Nat) {s s' : State} (hs : R s s') {n : Nat}
    (hn : s.left ≤ n) :
    AgreeAlways R (Option.map (Stmt.relabel f)) n
      (declaration (expression free) (statement free) (block free) s)
      (declaration (expression free) (statement free) (block free) s') := by
  obtain ⟨hst, hb⟩ := agrees_statement_block hR free
  exact agreeAlways_anyDeclaration hR (agrees_expression hR free) hst hb hs hn

/-! ### Whole texts -/

/-- **Two programs read side by side.** -/
theorem agree_parse {tokens tokens' : List Token}
    (hs : R (State.start tokens) (State.start tokens')) :
    (parse tokens').1 = (parse tokens).1.map (Stmt.relabel f) ∧
      ∃ t t', t.current.kind = .eof ∧ R t t' ∧ (parse tokens).2 = t.errors.toList ∧
        (parse tokens').2 = t'.errors.toList := by
  have hb := (State.start tokens).left_le_length_remaining
  have hb' := (State.start tokens').left_le_length_remaining
  rw [hR.left_eq hs] at hb'
  have hrun := agreeAlways_declarations hR (agreeAlways_declaration hR maxNesting)
    (left_declaration_lt maxNesting) (fun _ => false) hs hb hb'
  exact ⟨hrun.fst_eq, _, _, atEnd_declarations (left_declaration_lt maxNesting) hb, hrun.snd,
    rfl, rfl⟩

end

end Grammar

end Lox
