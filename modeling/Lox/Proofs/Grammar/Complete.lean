import Lox.Proofs.Grammar.Opening

namespace Lox.Grammar

/-!
# Phrases are read

A rule that stands in front of a phrase of its language takes the phrase, returns its tree and
records nothing. It must know that the phrase ends where it does: a token that could continue the
phrase must not follow it. And the levels that the phrase opens must be free.

* `binding` — how tightly a token is bound that continues an expression.
* `Follows p tokens` — the next token is known to the grammar and its kind satisfies `p`.
* `State.HasRoom free inside` — there are `free` levels left to open.
* `Accepts inside free p r L` — the rule `r` takes every phrase of `L` that a token of a kind with
  `p` follows.
* `accepts_expression`, `accepts_statement`, `accepts_block`, `declarations_at` — the rules of the
  grammar take the phrases of the grammar.
-/

variable {α β : Type} {inside : Bool} {free : Nat}

/-! ### What follows a phrase -/

/-- How tightly a token is bound to the expression in front of it that it continues. Tokens that
    continue no expression have the number 0. -/
def binding : Token.Kind → Nat
  | .symbol .equal => 1
  | .keyword .or_ => 2
  | .keyword .and_ => 3
  | .symbol .bangEqual | .symbol .equalEqual => 4
  | .symbol .greater | .symbol .greaterEqual | .symbol .less | .symbol .lessEqual => 5
  | .symbol .plus | .symbol .minus => 6
  | .symbol .star | .symbol .slash => 7
  | .symbol .leftParen => 8
  | _ => 0

/-- A token that continues an expression is known and is not the end. -/
theorem isKnown_of_binding {k : Token.Kind} (h : binding k ≠ 0) : k.IsKnown ∧ k ≠ .eof := by
  constructor
  · rintro cause rfl
    exact h rfl
  · rintro rfl
    exact h rfl

/-- The next of the tokens is known to the grammar, and its kind satisfies `p`. -/
def Follows (p : Token.Kind → Prop) (tokens : List Token) : Prop :=
  ∃ next ahead, tokens = next :: ahead ∧ next.kind.IsKnown ∧ p next.kind

/-- What follows is read off the kind of the first token. -/
theorem follows_cons {p : Token.Kind → Prop} {token : Token} {tokens : List Token}
    {kind : Token.Kind} (hk : token.kind = kind) (hknown : kind.IsKnown) (hp : p kind) :
    Follows p (token :: tokens) :=
  ⟨token, tokens, rfl, hk ▸ hknown, hk ▸ hp⟩

/-- A weaker condition on the next token may be asked for. -/
theorem Follows.mono {p q : Token.Kind → Prop} {tokens : List Token} (h : Follows p tokens)
    (hpq : ∀ k, p k → q k) : Follows q tokens := by
  obtain ⟨next, ahead, rfl, hknown, hp⟩ := h
  exact ⟨next, ahead, rfl, hknown, hpq _ hp⟩

/-- What matters is often just that some known token comes next. -/
theorem Follows.trivial {p : Token.Kind → Prop} {tokens : List Token} (h : Follows p tokens) :
    Follows (fun _ => True) tokens :=
  h.mono fun _ _ => True.intro

/-- What begins a phrase can follow another one. -/
theorem Begins.follows {p : Token.Kind → Bool} {tokens rest : List Token}
    (h : Begins p tokens rest) (hp : ∀ k, p k = true → startsDeclaration k = true) :
    Follows (fun k => p k = true) tokens := by
  obtain ⟨token, taken, rfl, hk, -⟩ := h
  exact ⟨token, taken, rfl, (isKnown_of_startsDeclaration (hp _ hk)).1, hk⟩

/-- Every expression begins a statement, and every statement a declaration. -/
theorem startsDeclaration_of_startsExpression {k : Token.Kind} (h : startsExpression k = true) :
    startsDeclaration k = true :=
  startsDeclaration_of_startsStatement (startsStatement_of_startsExpression h)

/-! ### Steps on a list of tokens -/

section

variable {s : State} {token : Token} {tokens : List Token} {kind : Token.Kind}

/-- Taking a token moves on to those behind it, as the next one is known. -/
theorem advance_at {f : Token → Rule β} {p : Token.Kind → Prop} (hk : token.kind ≠ .eof)
    (hnext : Follows p tokens) :
    (advance >>= f) (s.at (token :: tokens)) = f token (s.at tokens) := by
  obtain ⟨next, ahead, rfl, hknown, -⟩ := hnext
  rw [advance_bind, State.current_at, State.advanced_at hk hknown]

/-- The token that is expected is there, so it is taken. -/
theorem expect_at {missing : SyntaxError.Cause} {f : Token → Rule β} {p : Token.Kind → Prop}
    (hk : token.kind = kind) (hne : kind ≠ .eof) (hnext : Follows p tokens) :
    (expect kind missing >>= f) (s.at (token :: tokens)) = f token (s.at tokens) := by
  have hexpect : expect kind missing (s.at (token :: tokens)) = .ok token (s.at tokens) := by
    obtain ⟨next, ahead, rfl, hknown, -⟩ := hnext
    rw [← bind_pure (expect kind missing), expect_bind_eq_ok,
      State.advanced_at (hk ▸ hne) hknown]
    exact ⟨hk, rfl⟩
  exact bind_of_ok hexpect

/-- The token that is accepted is there, so it is taken. -/
theorem accept_at {f : Bool → Rule β} {p : Token.Kind → Prop} (hk : token.kind = kind)
    (hne : kind ≠ .eof) (hnext : Follows p tokens) :
    (accept kind >>= f) (s.at (token :: tokens)) = f true (s.at tokens) := by
  have haccept : accept kind (s.at (token :: tokens)) = .ok true (s.at tokens) := by
    obtain ⟨next, ahead, rfl, hknown, -⟩ := hnext
    rw [← bind_pure (accept kind), accept_bind_eq_ok, State.advanced_at (hk ▸ hne) hknown]
    exact .inl ⟨hk, rfl⟩
  exact bind_of_ok haccept

/-- Another token is there, so none is taken. -/
theorem accept_at_of_ne {f : Bool → Rule β} (hk : token.kind ≠ kind) :
    (accept kind >>= f) (s.at (token :: tokens)) = f false (s.at (token :: tokens)) := by
  have haccept : accept kind (s.at (token :: tokens)) = .ok false (s.at (token :: tokens)) := by
    rw [← bind_pure (accept kind), accept_bind_eq_ok]
    exact .inr ⟨hk, rfl⟩
  exact bind_of_ok haccept

/-- The first token is of the kind. -/
theorem sees_at {f : Bool → Rule β} (hk : token.kind = kind) :
    (sees kind >>= f) (s.at (token :: tokens)) = f true (s.at (token :: tokens)) := by
  rw [sees_bind, State.current_at, hk, beq_self_eq_true]

/-- The first token is of another kind. -/
theorem sees_at_of_ne {f : Bool → Rule β} (hk : token.kind ≠ kind) :
    (sees kind >>= f) (s.at (token :: tokens)) = f false (s.at (token :: tokens)) := by
  rw [sees_bind, State.current_at, beq_eq_false_iff_ne.2 hk]

end

/-! ### Rules that take all phrases -/

/-- There are `free` levels left to open, and inside of functions the state knows so. -/
structure State.HasRoom (free : Nat) (inside : Bool) (s : State) : Prop where
  nesting_le : s.nesting + free ≤ maxNesting
  functionDepth_ne : inside = true → s.functionDepth ≠ 0

/-- A rule takes the phrases of a language: where there is room, it takes every phrase that is
    followed by a token of a kind with `p`, and returns its tree. -/
def Accepts (inside : Bool) (free : Nat) (p : Token.Kind → Prop) (r : Rule α) (L : Language α) :
    Prop :=
  ∀ ⦃s : State⦄ ⦃tokens rest : List Token⦄ ⦃a : α⦄, s.HasRoom free inside → Follows p rest →
    L tokens a rest → r (s.at tokens) = .ok a (s.at rest)

/-- There are no phrases to be taken. -/
theorem accepts_none {p : Token.Kind → Prop} {r : Rule α} : Accepts inside free p r .none :=
  fun _ _ _ _ _ _ h => h.elim

/-- The rule takes its phrase, and what follows goes on behind it. -/
theorem Accepts.bind {p : Token.Kind → Prop} {r : Rule α} {L : Language α}
    (hr : Accepts inside free p r L) {f : α → Rule β} {s : State} {tokens rest : List Token} {a : α}
    (hs : s.HasRoom free inside) (hrest : Follows p rest) (h : L tokens a rest) :
    (r >>= f) (s.at tokens) = f a (s.at rest) :=
  bind_of_ok (hr hs hrest h)

/-- The level that the rule opens is one of those that are free. -/
theorem accepts_nested {p : Token.Kind → Prop} {r : Rule α} {L : Language α}
    (hr : Accepts inside free p r L) : Accepts inside (free + 1) p (nested r) L := by
  intro s tokens rest a hs hrest h
  -- Moving to tokens and opening a level do not get in each other's way.
  have hat (tokens : List Token) (n : Nat) :
      { s.at tokens with nesting := n } = State.at { s with nesting := n } tokens := by
    cases tokens <;> rfl
  have hroom : State.HasRoom free inside { s with nesting := s.nesting + 1 } :=
    ⟨by have := hs.nesting_le; dsimp only; omega, hs.functionDepth_ne⟩
  refine nested_eq_ok.2 ⟨?_, State.at { s with nesting := s.nesting + 1 } rest, ?_, ?_⟩
  · have := hs.nesting_le
    rw [State.nesting_at]
    omega
  · rw [State.nesting_at, hat]
    exact hr hroom hrest h
  · cases rest <;> rfl

/-- Inside the body the state knows that it is in a function. -/
theorem accepts_inFunction {p : Token.Kind → Prop} {r : Rule α} {L : Language α}
    (hr : Accepts true free p r L) : Accepts inside free p (inFunction r) L := by
  intro s tokens rest a hs hrest h
  have hat (tokens : List Token) (n : Nat) :
      { s.at tokens with functionDepth := n } = State.at { s with functionDepth := n } tokens := by
    cases tokens <;> rfl
  have hroom : State.HasRoom free true { s with functionDepth := s.functionDepth + 1 } :=
    ⟨hs.nesting_le, by simp⟩
  refine inFunction_eq_ok.2 ⟨State.at { s with functionDepth := s.functionDepth + 1 } rest, ?_, ?_⟩
  · rw [State.functionDepth_at, hat]
    exact hr hroom hrest h
  · cases rest <;> rfl

/-! ### Lists -/

/-- A list is taken up to its last item, behind which there is no comma. -/
theorem separatedFrom_at {item : Rule α} {Item : Language α} {p : Token.Kind → Prop}
    {q : Token.Kind → Bool} (hi : Accepts inside free p item Item) (hq : Opens q Item)
    (hknown : ∀ k, q k = true → startsDeclaration k = true) (hcomma : p Symbol.comma)
    {tooMany : SyntaxError.Cause} {s : State} (hs : s.HasRoom free inside)
    {tokens rest : List Token} {as : List α} (h : Separated Item tokens as rest)
    (hrest : Follows (fun k => p k ∧ k ≠ Symbol.comma) rest) {bound : List Token} {count : Nat}
    (hb : tokens.length ≤ bound.length) (hcount : count + as.length ≤ maxArguments) :
    separatedFrom item tooMany bound count (s.at tokens) = .ok as (s.at rest) := by
  -- The induction is on the phrase, and the bound and the count go along.
  induction h generalizing bound count with
  | @last tokens rest a h =>
    have hlen := hq.length_lt h
    obtain ⟨next, ahead, rfl, hnext, hp, hne⟩ := hrest
    cases bound with
    | nil =>
      rw [List.length_nil] at hb
      omega
    | cons _ bound =>
      rw [List.length_singleton] at hcount
      refine separatedFrom_cons_eq_ok.2 ⟨a, s.at (next :: ahead), ?_, .inr ⟨hne, rfl, rfl⟩⟩
      rw [if_neg (by omega)]
      exact hi hs ⟨next, ahead, rfl, hnext, hp⟩ h
  | @cons tokens between rest comma a as h hk hrestItems ih =>
    have hlen := hq.length_lt h
    cases bound with
    | nil =>
      rw [List.length_nil] at hb
      omega
    | cons _ bound =>
      rw [List.length_cons] at hb hcount hlen
      refine separatedFrom_cons_eq_ok.2 ⟨a, s.at (comma :: between), ?_, .inl ⟨hk, as, ?_, rfl⟩⟩
      · -- The list has not grown too long, so no error is recorded in front of the item.
        rw [if_neg (by omega)]
        exact hi hs (follows_cons hk (by simp) hcomma) h
      · obtain ⟨next, ahead, rfl, hnext, -⟩ := (Separated.opens hq hrestItems).follows hknown
        rw [State.advanced_at (by rw [hk]; decide) hnext]
        exact ih hrest (by omega) (by omega)

/-- A list stands in front of a closing parenthesis, which tells whether it is empty. -/
theorem accepts_separated {item : Rule α} {Item : Language α} {p : Token.Kind → Prop}
    {q : Token.Kind → Bool} (hi : Accepts inside free p item Item) (hq : Opens q Item)
    (hknown : ∀ k, q k = true → startsDeclaration k = true) (hcomma : p Symbol.comma)
    (hparen : p Symbol.rightParen) {tooMany : SyntaxError.Cause} :
    Accepts inside free (· = Symbol.rightParen) (separated item tooMany) (Listed Item) := by
  intro s tokens rest as hs hrest h
  cases h with
  | none =>
    obtain ⟨next, ahead, rfl, -, hnext⟩ := hrest
    rw [separated, sees_at hnext]
    rfl
  | some h hcount =>
    obtain ⟨token, taken, rfl, hk, -⟩ := Separated.opens hq h
    -- No item begins with the parenthesis that closes the list.
    have hne : token.kind ≠ Symbol.rightParen := by
      intro hclose
      rw [hclose] at hk
      exact absurd (hknown _ hk) (by decide)
    rw [separated, sees_at_of_ne hne, if_neg Bool.false_ne_true, get_bind]
    refine separatedFrom_at hi hq hknown hcomma hs h (hrest.mono ?_) (Nat.le_refl _) (by omega)
    rintro k rfl
    exact ⟨hparen, by decide⟩

/-! ### Expressions -/

section

variable {expression operand inner : Rule Expr} {Expression Operand Inner : Language Expr}

/-- Reading a chain comes to where the chain has been read and the loop goes on behind it. The
    tokens left are no more than the turns left, since every turn takes a token. -/
theorem chain_at {isOperator : Token.Kind → Bool} {join : Expr → Token → Expr → Expr} {n : Nat}
    (hop : ∀ k, isOperator k = true → binding k = n + 1)
    (ho : Accepts inside free (binding · < n + 2) operand Operand)
    (hq : Opens startsExpression Operand) {s : State} (hs : s.HasRoom free inside)
    {tokens rest : List Token} {e : Expr} (h : Chain isOperator join Operand tokens e rest)
    (hrest : Follows (binding · < n + 2) rest) :
    ∃ bound, rest.length ≤ bound.length ∧
      chain isOperator join operand (s.at tokens) =
        chainFrom isOperator join operand bound e (s.at rest) := by
  -- The induction is on the chain, whose last operator is the outermost one.
  induction h with
  | operand h =>
    refine ⟨_, ?_, by rw [chain, ho.bind hs hrest h, get_bind]⟩
    obtain ⟨next, ahead, rfl, -⟩ := hrest
    exact Nat.le_refl _
  | @operator tokens between rest op left right _ hk hright ih =>
    have hbinding := hop _ hk
    obtain ⟨hknown, hne⟩ := isKnown_of_binding (show binding op.kind ≠ 0 by omega)
    obtain ⟨bound, hlen, hrun⟩ := ih ⟨op, between, rfl, hknown, by omega⟩
    rw [List.length_cons] at hlen
    cases bound with
    | nil => simp at hlen
    | cons _ bound =>
      rw [List.length_cons] at hlen
      have hbetween := (hq hright).follows fun _ => startsDeclaration_of_startsExpression
      refine ⟨bound, ?_, ?_⟩
      · have := hq.length_lt hright
        omega
      · rw [hrun, chainFrom, current_bind, State.current_at, if_pos hk, advance_at hne hbetween,
          ho.bind hs hrest hright]

/-- The token behind a chain is bound less tightly, so it is none of its operators. -/
theorem accepts_chain {isOperator : Token.Kind → Bool} {join : Expr → Token → Expr → Expr} {n : Nat}
    (hop : ∀ k, isOperator k = true → binding k = n + 1)
    (ho : Accepts inside free (binding · < n + 2) operand Operand)
    (hq : Opens startsExpression Operand) :
    Accepts inside free (binding · < n + 1) (chain isOperator join operand)
      (Chain isOperator join Operand) := by
  intro s tokens rest e hs hrest h
  obtain ⟨bound, -, hrun⟩ :=
    chain_at hop ho hq hs h (hrest.mono fun k hk => Nat.lt_succ_of_lt hk)
  obtain ⟨next, ahead, rfl, -, hnext⟩ := hrest
  -- All operators of the chain bind more tightly than that.
  have hend : ¬isOperator next.kind = true := by
    intro hk
    have := hop _ hk
    omega
  rw [hrun]
  cases bound with
  | nil => rfl
  | cons _ bound =>
    rw [chainFrom, current_bind, State.current_at, if_neg hend]
    rfl

/-- From the inside out, each level leaves the tokens that are bound less tightly. -/
theorem accepts_disjunction (ho : Accepts inside free (binding · < 8) operand Operand)
    (hq : Opens startsExpression Operand) :
    Accepts inside free (binding · < 2) (disjunction operand) (Disjunction Operand) := by
  -- Each level has the binding of its operators, and it opens as its operands do.
  have h₁ : Accepts inside free (binding · < 7) (product operand) (Product Operand) :=
    accepts_chain (by unfold isFactorOperator; grind [binding]) ho hq
  have q₁ : Opens startsExpression (Product Operand) := opens_chain hq
  have h₂ : Accepts inside free (binding · < 6) (sum operand) (Sum Operand) :=
    accepts_chain (by unfold isTermOperator; grind [binding]) h₁ q₁
  have q₂ : Opens startsExpression (Sum Operand) := opens_chain q₁
  have h₃ : Accepts inside free (binding · < 5) (comparison operand) (Comparison Operand) :=
    accepts_chain (by unfold isComparison; grind [binding]) h₂ q₂
  have q₃ : Opens startsExpression (Comparison Operand) := opens_chain q₂
  have h₄ : Accepts inside free (binding · < 4) (equality operand) (Equality Operand) :=
    accepts_chain (by unfold isEquality; grind [binding]) h₃ q₃
  have q₄ : Opens startsExpression (Equality Operand) := opens_chain q₃
  have h₅ : Accepts inside free (binding · < 3) (conjunction operand) (Conjunction Operand) :=
    accepts_chain (by simp [binding]) h₄ q₄
  exact accepts_chain (by simp [binding]) h₅ (opens_chain q₄)

/-- In front of the `=` stands a name, which is read as a disjunction of its own. -/
theorem accepts_assignment (he : Accepts inside free (binding · < 1) expression Expression)
    (hqe : Opens startsExpression Expression)
    (ho : Accepts inside free (binding · < 8) operand Operand)
    (hq : Opens startsExpression Operand) (hname : ∀ {token : Token} {rest : List Token},
      token.kind = .identifier → Operand (token :: rest) (.name token) rest) :
    Accepts inside free (binding · < 1) (assignment expression operand)
      (Assignment Expression Operand) := by
  intro s tokens rest e hs hrest h
  have hd := accepts_disjunction ho hq
  cases h with
  | @assign name equal tokens rest value hk hequal h =>
    have htarget : Disjunction Operand (name :: equal :: tokens) (.name name) (equal :: tokens) :=
      .operand <| .operand <| .operand <| .operand <| .operand <| .operand (hname hk)
    have hbehind : Follows (binding · < 2) (equal :: tokens) :=
      follows_cons hequal (by simp) (by decide)
    have htokens := (hqe h).follows fun _ => startsDeclaration_of_startsExpression
    rw [assignment, hd.bind hs hbehind htarget, sees_at hequal, if_pos rfl]
    dsimp only
    rw [advance_at (by rw [hequal]; decide) htokens, he.bind hs hrest h]
    rfl
  | disjunction h =>
    rw [assignment, hd.bind hs (hrest.mono fun k hk => Nat.lt_succ_of_lt hk) h]
    obtain ⟨next, ahead, rfl, -, hnext⟩ := hrest
    -- A disjunction is no assignment, so what follows it is no `=`.
    have hne : next.kind ≠ Symbol.equal := by
      intro hk
      rw [hk] at hnext
      exact absurd hnext (by decide)
    rw [sees_at_of_ne hne]
    rfl

/-- A primary expression ends with its last token, whatever follows. -/
theorem accepts_primary (he : Accepts inside free (binding · < 1) expression Expression)
    (hqe : Opens startsExpression Expression) :
    Accepts inside free (fun _ => True) (primary expression) (Primary Expression) := by
  intro s tokens rest e hs hrest h
  -- Constants are single tokens.
  have hconstant {token : Token} {rest : List Token} (c : Constant) (hk : token.kind ≠ .eof)
      (hrest : Follows (fun _ => True) rest) :
      primary.constant c (s.at (token :: rest)) = .ok (.constant c) (s.at rest) := by
    rw [primary.constant, advance_at hk hrest]
    rfl
  cases h with
  | falsehood rest hk =>
    rw [primary, current_bind, State.current_at, hk]
    exact hconstant _ (by rw [hk]; decide) hrest
  | truth rest hk =>
    rw [primary, current_bind, State.current_at, hk]
    exact hconstant _ (by rw [hk]; decide) hrest
  | nil rest hk =>
    rw [primary, current_bind, State.current_at, hk]
    exact hconstant _ (by rw [hk]; decide) hrest
  | literal rest hk hvalue =>
    rcases hk with hk | hk
    · rw [primary, current_bind, State.current_at, hk, hvalue]
      exact hconstant _ (by rw [hk]; decide) hrest
    · rw [primary, current_bind, State.current_at, hk, hvalue]
      exact hconstant _ (by rw [hk]; decide) hrest
  | name rest hk =>
    rw [primary, current_bind, State.current_at, hk]
    dsimp only
    rw [advance_at (by rw [hk]; decide) hrest]
    rfl
  | @group opening closing tokens rest inner hopen h hclose =>
    have htokens := (hqe h).follows fun _ => startsDeclaration_of_startsExpression
    have hbehind : Follows (binding · < 1) (closing :: rest) :=
      follows_cons hclose (by simp) (by decide)
    rw [primary, current_bind, State.current_at, hopen]
    dsimp only
    rw [advance_at (by rw [hopen]; decide) htokens, he.bind hs hbehind h,
      expect_at hclose (by decide) hrest]
    rfl

/-- Reading a call comes to where it has been read and the loop goes on behind it, as for
    chains. -/
theorem calls_at (he : Accepts inside free (binding · < 1) expression Expression)
    (hqe : Opens startsExpression Expression) {s : State} (hs : s.HasRoom free inside)
    {tokens rest : List Token} {e : Expr} (h : Calls Expression tokens e rest)
    (hrest : Follows (fun _ => True) rest) :
    ∃ bound, rest.length ≤ bound.length ∧
      calls expression (s.at tokens) = callsFrom expression bound e (s.at rest) := by
  induction h with
  | primary h =>
    refine ⟨_, ?_, by rw [calls, (accepts_primary he hqe).bind hs hrest h, get_bind]⟩
    obtain ⟨next, ahead, rfl, -⟩ := hrest
    exact Nat.le_refl _
  | @call tokens between rest opening closing callee arguments _ hopen hlist hclose ih =>
    obtain ⟨bound, hlen, hrun⟩ := ih (follows_cons hopen (by simp) True.intro)
    rw [List.length_cons] at hlen
    have hsuffix := (hlist.suffix hqe).length_le
    rw [List.length_cons] at hsuffix
    cases bound with
    | nil => simp at hlen
    | cons _ bound =>
      rw [List.length_cons] at hlen
      -- Neither a comma nor a parenthesis continues an argument.
      have ha : Accepts inside free (· = Symbol.rightParen)
          (separated expression .tooManyArguments) (Listed Expression) :=
        accepts_separated he hqe (fun _ => startsDeclaration_of_startsExpression)
          (show binding Symbol.comma < 1 by decide) (show binding Symbol.rightParen < 1 by decide)
      have hparen : Follows (· = Symbol.rightParen) (closing :: rest) :=
        follows_cons hclose (by simp) rfl
      have hbetween : Follows (fun _ => True) between := by
        cases hlist with
        | none => exact hparen.trivial
        | some h _ =>
          exact ((Separated.opens hqe h).follows fun _ =>
            startsDeclaration_of_startsExpression).trivial
      refine ⟨bound, by omega, ?_⟩
      rw [hrun, callsFrom, accept_at hopen (by decide) hbetween, if_pos rfl,
        ha.bind hs hparen hlist, expect_at hclose (by decide) hrest]

/-- What follows the calls is no parenthesis, or there would be one more. -/
theorem accepts_calls (he : Accepts inside free (binding · < 1) expression Expression)
    (hqe : Opens startsExpression Expression) :
    Accepts inside free (binding · < 8) (calls expression) (Calls Expression) := by
  intro s tokens rest e hs hrest h
  obtain ⟨bound, -, hrun⟩ := calls_at he hqe hs h hrest.trivial
  obtain ⟨next, ahead, rfl, -, hnext⟩ := hrest
  have hne : next.kind ≠ Symbol.leftParen := by
    intro hk
    rw [hk] at hnext
    exact absurd hnext (by decide)
  rw [hrun]
  cases bound with
  | nil => rfl
  | cons _ bound =>
    rw [callsFrom, accept_at_of_ne hne]
    rfl

/-- An operator in front applies to all of what it can, up to the calls. -/
theorem accepts_unaryOr (hi : Accepts inside free (binding · < 8) inner Inner)
    (hqi : Opens startsExpression Inner)
    (he : Accepts inside free (binding · < 1) expression Expression)
    (hqe : Opens startsExpression Expression) :
    Accepts inside free (binding · < 8) (unaryOr inner (calls expression))
      (UnaryOr Inner (Calls Expression)) := by
  intro s tokens rest e hs hrest h
  cases h with
  | @operator op tokens rest e hk h =>
    have hne : op.kind ≠ .eof := by
      intro heof
      rw [heof] at hk
      exact absurd hk (by decide)
    have htokens := (hqi h).follows fun _ => startsDeclaration_of_startsExpression
    rw [unaryOr, current_bind, State.current_at, if_pos hk, advance_at hne htokens,
      hi.bind hs hrest h]
    rfl
  | operand h =>
    -- A call does not begin with an operator.
    obtain ⟨token, taken, rfl, hk, -⟩ := opens_calls hqe h
    rw [unaryOr, current_bind, State.current_at, isUnaryOperator_of_startsPrimary hk,
      if_neg Bool.false_ne_true]
    exact accepts_calls he hqe hs hrest h

/-- Both rules for expressions take their phrases at every level of nesting. -/
theorem accepts_expression_unary (free : Nat) :
    Accepts inside free (binding · < 1) (Grammar.expression free) (Grammar.Expression free) ∧
      Accepts inside free (binding · < 8) (unary free) (Unary free) := by
  -- The induction is on the levels left, as in the definition of rules and languages.
  induction free with
  | zero =>
    exact ⟨accepts_none, accepts_unaryOr accepts_none opens_none accepts_none opens_none⟩
  | succ free ih =>
    have hqe := opens_expression free
    have hqu := (opens_expression_unary free).2
    -- At every level a name on its own is an operand, which assignments need.
    have hname {token : Token} {rest : List Token} (hk : token.kind = .identifier) :
        Unary free (token :: rest) (.name token) rest := by
      cases free with
      | zero => exact .operand (.primary (.name rest hk))
      | succ free => exact .operand (.primary (.name rest hk))
    have he : Accepts inside (free + 1) (binding · < 1) (Grammar.expression (free + 1))
        (Grammar.Expression (free + 1)) :=
      accepts_nested (accepts_assignment ih.1 hqe ih.2 hqu hname)
    exact ⟨he, accepts_unaryOr (accepts_nested ih.2) hqu he (opens_expression (free + 1))⟩

/-- The rule for expressions takes the expressions that nothing continues. -/
theorem accepts_expression (free : Nat) :
    Accepts inside free (binding · < 1) (Grammar.expression free) (Grammar.Expression free) :=
  (accepts_expression_unary free).1

end

/-! ### Declarations -/

section

variable {expression : Rule Expr} {statement : Rule (Stmt Unit)}
  {block : Rule (List (Stmt Unit))} {Expression : Language Expr}
  {Statement : Language (Stmt Unit)} {Body : Language (List (Stmt Unit))}

/-- A semicolon ends an expression. -/
theorem follows_semicolon {token : Token} {tokens : List Token}
    (hk : token.kind = Symbol.semicolon) : Follows (binding · < 1) (token :: tokens) :=
  follows_cons hk (by simp) (by decide)

/-- A closing parenthesis ends an expression. -/
theorem follows_rightParen {token : Token} {tokens : List Token}
    (hk : token.kind = Symbol.rightParen) : Follows (binding · < 1) (token :: tokens) :=
  follows_cons hk (by simp) (by decide)

/-- What begins an expression can follow any token. -/
theorem follows_expression (hqe : Opens startsExpression Expression) {tokens rest : List Token}
    {e : Expr} (h : Expression tokens e rest) :
    Follows (fun k => startsExpression k = true) tokens :=
  (hqe h).follows fun _ => startsDeclaration_of_startsExpression

/-- A variable declaration ends with its semicolon, whatever follows. -/
theorem accepts_variableDeclaration (he : Accepts inside free (binding · < 1) expression Expression)
    (hqe : Opens startsExpression Expression) :
    Accepts inside free (fun _ => True) (variableDeclaration expression)
      (VariableDeclaration Expression) := by
  intro s tokens rest a hs hrest h
  cases h with
  | @initialized name equal semicolon tokens rest value hname hequal h hend =>
    have hbehind : Follows (fun _ => True) (equal :: tokens) :=
      follows_cons hequal (by simp) True.intro
    rw [variableDeclaration, expect_at hname (by decide) hbehind,
      accept_at hequal (by decide) (follows_expression hqe h)]
    dsimp only
    rw [if_pos rfl, he.bind hs (follows_semicolon hend) h, expect_at hend (by decide) hrest]
    rfl
  | @bare name semicolon rest hname hend =>
    have hne : semicolon.kind ≠ Symbol.equal := by
      rw [hend]
      decide
    rw [variableDeclaration, expect_at hname (by decide) (follows_semicolon hend),
      accept_at_of_ne hne]
    dsimp only
    rw [if_neg Bool.false_ne_true, pure_bind, expect_at hend (by decide) hrest]
    rfl

/-- The name of a parameter is a single token. -/
theorem accepts_name {missing : SyntaxError.Cause} :
    Accepts inside free (fun _ => True) (expect .identifier missing) Name := by
  intro s tokens rest a hs hrest h
  cases h with
  | name rest hk =>
    rw [← bind_pure (expect .identifier missing), expect_at hk (by decide) hrest]
    rfl

/-- A function declaration ends where its body does. -/
theorem accepts_functionDeclaration (hb : Accepts true free (fun _ => True) block Body)
    (hqb : ∀ {tokens body rest}, Body tokens body rest → Follows (fun _ => True) tokens) :
    Accepts inside free (fun _ => True) (functionDeclaration block)
      (FunctionDeclaration Body) := by
  intro s tokens rest a hs hrest h
  have hparameters : Accepts inside free (· = Symbol.rightParen)
      (separated (expect .identifier .missingParameterName) .tooManyParameters) (Listed Name) :=
    accepts_separated accepts_name opens_name (by simp; decide) True.intro True.intro
  have hbody : Accepts inside free (fun _ => True) (inFunction block) Body :=
    accepts_inFunction hb
  cases h with
  | @function name opening closing brace tokens bodies rest parameters body hname hopen hlist hclose
      hbrace h =>
    -- Each of the tokens between name and body is followed by a known one.
    have hparen : Follows (fun _ => True) (opening :: tokens) :=
      follows_cons hopen (by simp) True.intro
    have hcloses : Follows (· = Symbol.rightParen) (closing :: brace :: bodies) :=
      follows_cons hclose (by simp) rfl
    have hopens : Follows (fun _ => True) (brace :: bodies) :=
      follows_cons hbrace (by simp) True.intro
    have htokens : Follows (fun _ => True) tokens := by
      cases hlist with
      | none => exact hcloses.trivial
      | some h _ => exact ((Separated.opens opens_name h).follows (by simp; decide)).trivial
    rw [functionDeclaration, expect_at hname (by decide) hparen,
      expect_at hopen (by decide) htokens, hparameters.bind hs hcloses hlist,
      expect_at hclose (by decide) hopens,
      expect_at hbrace (by decide) (hqb h), hbody.bind hs hrest h]
    rfl

/-- A declaration is taken as a whole, so there is nothing to recover from. -/
theorem declaration_at (he : Accepts inside free (binding · < 1) expression Expression)
    (hqe : Opens startsExpression Expression)
    (hst : Accepts inside free (fun _ => True) statement Statement)
    (hqs : Opens startsStatement Statement) (hb : Accepts true free (fun _ => True) block Body)
    (hqb : ∀ {tokens body rest}, Body tokens body rest → Follows (fun _ => True) tokens)
    {s : State} (hs : s.HasRoom free inside)
    {tokens rest : List Token} {a : Stmt Unit} (hrest : Follows (fun _ => True) rest)
    (h : AnyDeclaration Expression Statement Body tokens a rest) :
    declaration expression statement block (s.at tokens) = (some a, s.at rest) := by
  -- A rule that succeeds is not recovered from.
  have hrecovering {r : Rule (Stmt Unit)} (hr : r (s.at tokens) = .ok a (s.at rest)) :
      recovering r (s.at tokens) = (some a, s.at rest) := by
    rw [recovering, hr]
  refine hrecovering ?_
  cases h with
  | @«variable» keyword tokens rest _ hk h =>
    have htokens := (opens_variableDeclaration hqe h).follows (by simp; decide)
    rw [current_bind, State.current_at, hk]
    dsimp only
    rw [advance_at (by rw [hk]; decide) htokens]
    exact accepts_variableDeclaration he hqe hs hrest h
  | @function keyword tokens rest _ hk h =>
    have htokens : Follows (fun _ => True) tokens := by
      cases h with
      | function hname => exact follows_cons hname (by simp) True.intro
    rw [current_bind, State.current_at, hk]
    dsimp only
    rw [advance_at (by rw [hk]; decide) htokens]
    exact accepts_functionDeclaration hb hqb hs hrest h
  | statement h =>
    obtain ⟨token, taken, rfl, hk, -⟩ := hqs h
    rw [current_bind, State.current_at]
    generalize token.kind = kind at hk
    split
    · -- A statement begins with neither `var` nor `fun`.
      exact absurd hk (by decide)
    · exact absurd hk (by decide)
    · exact hst hs hrest h

/-- Declarations up to a token that closes them or ends the text. The tokens bound the number of
    turns. -/
theorem declarationsFrom_at {d : State → Option (Stmt Unit) × State}
    {Declaration : Language (Stmt Unit)} {s : State}
    (hd : ∀ {tokens rest a}, Follows (fun _ => True) rest → Declaration tokens a rest →
      d (s.at tokens) = (some a, s.at rest))
    (hq : Opens startsDeclaration Declaration) {closes : Token.Kind → Bool}
    (hcloses : ∀ k, startsDeclaration k = true → closes k = false) {tokens rest : List Token}
    {body : List (Stmt Unit)} (h : Repeated Declaration tokens body rest)
    (hrest : Follows (fun k => k = .eof ∨ closes k = true) rest) {bound : List Token}
    (hb : tokens.length ≤ bound.length) :
    declarations d closes bound (s.at tokens) = (body, s.at rest) := by
  induction h generalizing bound with
  | nil tokens =>
    obtain ⟨next, ahead, rfl, -, hnext⟩ := hrest
    cases bound with
    | nil => rfl
    | cons _ bound =>
      have hend : ((s.at (next :: ahead)).atEnd || closes (s.at (next :: ahead)).current.kind) =
          true := by
        rwa [Bool.or_eq_true, State.atEnd_eq_true, State.current_at]
      rw [declarations, if_pos hend]
  | @cons tokens between rest a as h hmore ih =>
    -- A declaration takes a token at least, so the bound suffices for those behind it.
    have hlen := hq.length_lt h
    have hbetween : Follows (fun _ => True) between := by
      cases hmore with
      | nil => exact hrest.trivial
      | cons h _ => exact ((hq h).follows fun _ => id).trivial
    obtain ⟨token, taken, rfl, hk, -⟩ := hq h
    cases bound with
    | nil =>
      rw [List.length_nil] at hb
      omega
    | cons _ bound =>
      -- What begins a declaration neither ends the text nor closes the list.
      have hgo : ¬((s.at (token :: taken)).atEnd || closes (s.at (token :: taken)).current.kind) =
          true := by
        rw [Bool.or_eq_true, State.atEnd_eq_true, State.current_at, hcloses _ hk]
        rintro (heof | hclose)
        · exact (isKnown_of_startsDeclaration hk).2.1 heof
        · exact Bool.false_ne_true hclose
      simp only [List.length_cons] at hb hlen
      rw [declarations, if_neg hgo, hd hbetween h]
      simp only [ih hrest (by omega : between.length ≤ bound.length), Option.toList_some,
        List.singleton_append]

/-- What closes a block begins no declaration. -/
theorem accepts_blockContents {d : State → Option (Stmt Unit) × State}
    {Declaration : Language (Stmt Unit)}
    (hd : ∀ {s : State} {tokens rest a}, s.HasRoom free inside → Follows (fun _ => True) rest →
      Declaration tokens a rest → d (s.at tokens) = (some a, s.at rest))
    (hq : Opens startsDeclaration Declaration) :
    Accepts inside free (fun _ => True) (blockContents d) (BlockContents Declaration) := by
  intro s tokens rest body hs hrest h
  cases h with
  | @close _ _ closing _ h hclose =>
    have hbehind : Follows (fun k => k = .eof ∨ (k == .symbol .rightBrace) = true)
        (closing :: rest) :=
      follows_cons hclose (by simp) (.inr rfl)
    -- The loop goes on while there are declarations, and stops at the brace.
    have hcloses (k : Token.Kind) (hk : startsDeclaration k = true) :
        (k == .symbol .rightBrace) = false :=
      beq_eq_false_iff_ne.2 (isKnown_of_startsDeclaration hk).2.2
    have htokens : Follows (fun _ => True) tokens := by
      cases h with
      | nil => exact hbehind.trivial
      | cons h _ => exact ((hq h).follows fun _ => id).trivial
    have hremaining : (s.at tokens).remaining = tokens := by
      obtain ⟨next, ahead, rfl, -⟩ := htokens
      rfl
    rw [blockContents, get_bind, hremaining,
      declarationsFrom_at (hd hs) hq hcloses h hbehind (Nat.le_refl _)]
    dsimp only
    rw [set_bind, expect_at hclose (by decide) hrest]
    rfl

/-! ### Statements -/

/-- An expression statement ends with its semicolon. -/
theorem accepts_expressionStatement
    (he : Accepts inside free (binding · < 1) expression Expression) :
    Accepts inside free (fun _ => True) (expressionStatement expression)
      (ExpressionStatement Expression) := by
  intro s tokens rest a hs hrest h
  cases h with
  | expression h hend =>
    rw [expressionStatement, he.bind hs (follows_semicolon hend) h,
      expect_at hend (by decide) hrest]
    rfl

/-- Which of the three initializers there is, its first token tells. -/
theorem accepts_forInitializer (he : Accepts inside free (binding · < 1) expression Expression)
    (hqe : Opens startsExpression Expression) :
    Accepts inside free (fun _ => True) (forInitializer expression) (Initializer Expression) := by
  intro s tokens rest a hs hrest h
  cases h with
  | none rest hk =>
    rw [forInitializer, current_bind, State.current_at, hk]
    dsimp only
    rw [advance_at (by rw [hk]; decide) hrest]
    rfl
  | «variable» hk h =>
    have htokens := (opens_variableDeclaration hqe h).follows (by simp; decide)
    rw [forInitializer, current_bind, State.current_at, hk]
    dsimp only
    rw [advance_at (by rw [hk]; decide) htokens,
      (accepts_variableDeclaration he hqe).bind hs hrest h]
    rfl
  | expression h =>
    obtain ⟨token, taken, rfl, hk, -⟩ := opens_expressionStatement hqe h
    rw [forInitializer, current_bind, State.current_at]
    generalize token.kind = kind at hk
    split
    · -- An expression begins neither with a semicolon nor with `var`.
      exact absurd hk (by decide)
    · exact absurd hk (by decide)
    · rw [(accepts_expressionStatement he).bind hs hrest h]
      rfl

/-- An expression that may be missing in front of a token of a given kind, and what follows it. -/
theorem optional_at (he : Accepts inside free (binding · < 1) expression Expression)
    (hqe : Opens startsExpression Expression) {closing : Token.Kind}
    (hclose : startsExpression closing = false) (hknown : closing.IsKnown)
    (hbinding : binding closing < 1) {rule : Rule α} {missing : α} {given : Expr → α}
    (hrule : rule = given <$> expression) {f : α → Rule β} {s : State}
    (hs : s.HasRoom free inside) {token : Token} {tokens rest : List Token} {value : Option Expr}
    (hk : token.kind = closing) (h : Maybe Expression tokens value (token :: rest)) :
    (sees closing >>= fun none => if none then pure missing >>= f else rule >>= f) (s.at tokens) =
      f (value.elim missing given) (s.at (token :: rest)) := by
  cases h with
  | missing => rw [sees_at hk, if_pos rfl, pure_bind, Option.elim_none]
  | given h =>
    obtain ⟨first, taken, rfl, hfirst, -⟩ := hqe h
    -- What closes the clause begins no expression, so the expression is there.
    have hne : first.kind ≠ closing := by
      rintro rfl
      rw [hclose] at hfirst
      exact absurd hfirst (by decide)
    rw [sees_at_of_ne hne, if_neg Bool.false_ne_true, hrule, map_eq_pure_bind, bind_assoc,
      he.bind hs (follows_cons hk hknown hbinding) h, pure_bind, Option.elim_some]

/-- What may be missing is a phrase or what follows it, and can follow any token. -/
theorem Maybe.follows (hqe : Opens startsExpression Expression) {tokens rest : List Token}
    {value : Option Expr} (h : Maybe Expression tokens value rest)
    (hrest : Follows (fun _ => True) rest) : Follows (fun _ => True) tokens := by
  cases h with
  | missing => exact hrest
  | given h => exact (follows_expression hqe h).trivial

/-- What begins an initializer can follow any token. -/
theorem Initializer.follows (hqe : Opens startsExpression Expression) {tokens rest : List Token}
    {initializer : Option (Stmt Unit)} (h : Initializer Expression tokens initializer rest) :
    Follows (fun _ => True) tokens := by
  cases h with
  | none _ hk => exact (follows_semicolon hk).trivial
  | «variable» hk _ => exact follows_cons hk (by simp) True.intro
  | expression h =>
    exact ((opens_expressionStatement hqe h).follows fun _ =>
      startsDeclaration_of_startsExpression).trivial

/-- A condition in parentheses, which `if` and `while` share, and what follows it. -/
theorem condition_at (he : Accepts inside free (binding · < 1) expression Expression)
    (hqe : Opens startsExpression Expression) {missingOpen missingClose : SyntaxError.Cause}
    {f : Expr → Rule β} {s : State} (hs : s.HasRoom free inside) {opening closing : Token}
    {tokens between : List Token} {condition : Expr} (hopen : opening.kind = Symbol.leftParen)
    (h : Expression tokens condition (closing :: between))
    (hclose : closing.kind = Symbol.rightParen) (hbetween : Follows (fun _ => True) between) :
    (do
      let _ ← expect Symbol.leftParen missingOpen
      let condition ← expression
      let _ ← expect Symbol.rightParen missingClose
      f condition) (s.at (opening :: tokens)) = f condition (s.at between) := by
  rw [expect_at hopen (by decide) (follows_expression hqe h),
    he.bind hs (follows_rightParen hclose) h, expect_at hclose (by decide) hbetween]

/-- The clauses of a `for` and its body. Two of the clauses may be missing. -/
theorem forStatement_at (he : Accepts inside free (binding · < 1) expression Expression)
    (hqe : Opens startsExpression Expression)
    (hst : Accepts inside free (fun _ => True) statement Statement)
    (hqs : Opens startsStatement Statement) {s : State} (hs : s.HasRoom free inside)
    {opening semicolon closing : Token} {tokens conditions steps bodies rest : List Token}
    {initializer : Option (Stmt Unit)} {condition step : Option Expr} {body : Stmt Unit}
    (hopen : opening.kind = Symbol.leftParen)
    (hi : Initializer Expression tokens initializer conditions)
    (hc : Maybe Expression conditions condition (semicolon :: steps))
    (hsemicolon : semicolon.kind = Symbol.semicolon)
    (hstep : Maybe Expression steps step (closing :: bodies))
    (hclose : closing.kind = Symbol.rightParen) (hbody : Statement bodies body rest)
    (hrest : Follows (fun _ => True) rest) :
    forStatement expression statement (s.at (opening :: tokens)) =
      .ok (.forLoop initializer (condition.getD (.constant (.bool true))) step body)
        (s.at rest) := by
  have hbodies : Follows (fun _ => True) bodies :=
    ((hqs hbody).follows fun _ => startsDeclaration_of_startsStatement).trivial
  have hsteps : Follows (fun _ => True) steps :=
    hstep.follows hqe (follows_rightParen hclose).trivial
  have hconditions : Follows (fun _ => True) conditions :=
    hc.follows hqe (follows_semicolon hsemicolon).trivial
  rw [forStatement, expect_at hopen (by decide) (hi.follows hqe),
    (accepts_forInitializer he hqe).bind hs hconditions hi]
  dsimp only
  rw [optional_at he hqe (by decide) (by simp) (by decide) (id_map expression).symm hs hsemicolon
    hc, expect_at hsemicolon (by decide) hsteps]
  rw [optional_at he hqe (by decide) (by simp) (by decide) rfl hs hclose hstep,
    expect_at hclose (by decide) hbodies, hst.bind hs hrest hbody]
  -- The rule puts in what stands for a clause that is missing, and so does the grammar.
  cases condition <;> cases step <;> rfl

/-- What follows a `return`, inside of a function: there the statement is not objected to. -/
theorem returnStatement_at (he : Accepts true free (binding · < 1) expression Expression)
    (hqe : Opens startsExpression Expression) {s : State} (hs : s.HasRoom free true)
    {keyword semicolon : Token} {tokens rest : List Token} {value : Option Expr}
    (h : Maybe Expression tokens value (semicolon :: rest))
    (hend : semicolon.kind = Symbol.semicolon) (hrest : Follows (fun _ => True) rest) :
    returnStatement expression keyword (s.at tokens) =
      .ok (.return keyword (value.getD .nil)) (s.at rest) := by
  have hdepth : ¬(s.at tokens).functionDepth = 0 := by
    rw [State.functionDepth_at]
    exact hs.functionDepth_ne rfl
  rw [returnStatement, get_bind, if_neg hdepth]
  dsimp only
  rw [optional_at he hqe (by decide) (by simp) (by decide) (id_map expression).symm hs hend h,
    expect_at hend (by decide) hrest]
  cases value <;> rfl

/-- Which of the statements there is, its first token tells. -/
theorem accepts_anyStatement (he : Accepts inside free (binding · < 1) expression Expression)
    (hqe : Opens startsExpression Expression)
    (hst : Accepts inside free (fun _ => True) statement Statement)
    (hqs : Opens startsStatement Statement) (hb : Accepts inside free (fun _ => True) block Body)
    (hqb : ∀ {tokens body rest}, Body tokens body rest → Follows (fun _ => True) tokens) :
    Accepts inside free (fun _ => True) (anyStatement expression statement block)
      (AnyStatement inside Expression Statement Body) := by
  intro s tokens rest a hs hrest h
  have hstart {tokens rest : List Token} {a : Stmt Unit} (h : Statement tokens a rest) :
      Follows (fun _ => True) tokens :=
    ((hqs h).follows fun _ => startsDeclaration_of_startsStatement).trivial
  -- Behind the keyword of an `if`, `while` or `for` stands a parenthesis.
  have hparen {opening : Token} (tokens : List Token) (hopen : opening.kind = Symbol.leftParen) :
      Follows (fun _ => True) (opening :: tokens) :=
    follows_cons hopen (by simp) True.intro
  cases h with
  | print hk h hend =>
    rw [anyStatement, current_bind, State.current_at, hk]
    dsimp only
    rw [advance_at (by rw [hk]; decide) (follows_expression hqe h), printStatement,
      he.bind hs (follows_semicolon hend) h, expect_at hend (by decide) hrest]
    rfl
  | block hk h =>
    rw [anyStatement, current_bind, State.current_at, hk]
    dsimp only
    rw [advance_at (by rw [hk]; decide) (hqb h), hb.bind hs hrest h]
    rfl
  | ifThen hk hopen hc hclose hyes helse =>
    rw [anyStatement, current_bind, State.current_at, hk]
    dsimp only
    rw [advance_at (by rw [hk]; decide) (hparen _ hopen), ifStatement,
      condition_at he hqe hs hopen hc hclose (hstart hyes), hst.bind hs hrest hyes]
    -- No `else` follows, or the statement would have taken it.
    obtain ⟨next, ahead, rfl, -⟩ := hrest
    rw [accept_at_of_ne (helse next rfl)]
    rfl
  | ifElse hk hopen hc hclose hyes helse hno =>
    rw [anyStatement, current_bind, State.current_at, hk]
    dsimp only
    rw [advance_at (by rw [hk]; decide) (hparen _ hopen), ifStatement,
      condition_at he hqe hs hopen hc hclose (hstart hyes),
      hst.bind hs (follows_cons helse (by simp) True.intro) hyes,
      accept_at helse (by decide) (hstart hno), if_pos rfl, hst.bind hs hrest hno]
    rfl
  | «while» hk hopen hc hclose hbody =>
    rw [anyStatement, current_bind, State.current_at, hk]
    dsimp only
    rw [advance_at (by rw [hk]; decide) (hparen _ hopen), whileStatement,
      condition_at he hqe hs hopen hc hclose (hstart hbody), hst.bind hs hrest hbody]
    rfl
  | «for» hk hopen hi hc hsemicolon hstep hclose hbody =>
    rw [anyStatement, current_bind, State.current_at, hk]
    dsimp only
    rw [advance_at (by rw [hk]; decide) (hparen _ hopen)]
    exact forStatement_at he hqe hst hqs hs hopen hi hc hsemicolon hstep hclose hbody hrest
  | «return» hinside hk h hend =>
    subst hinside
    rw [anyStatement, current_bind, State.current_at, hk]
    dsimp only
    rw [advance_at (by rw [hk]; decide) (h.follows hqe (follows_semicolon hend).trivial)]
    exact returnStatement_at he hqe hs h hend hrest
  | expression h =>
    obtain ⟨token, taken, rfl, hk, -⟩ := opens_expressionStatement hqe h
    rw [anyStatement, current_bind, State.current_at]
    generalize token.kind = kind at hk
    -- None of the six kinds with a rule of their own begins an expression.
    split
    iterate 6 exact absurd hk (by decide)
    exact accepts_expressionStatement he hs hrest h

/-- Behind an opening brace there is the next token: it begins a declaration or closes the
    block. -/
theorem Block.follows {free : Nat} {inside : Bool} {tokens rest : List Token}
    {body : List (Stmt Unit)} (h : Block free inside tokens body rest) :
    Follows (fun _ => True) tokens := by
  cases free with
  | zero => exact h.elim
  | succ free =>
    cases h with
    | close h hclose =>
      cases h with
      | nil => exact follows_cons hclose (by simp) True.intro
      | cons h _ => exact ((opens_declaration free inside h).follows fun _ => id).trivial

/-- Statements and blocks are taken at every level of nesting. -/
theorem accepts_statement_block (free : Nat) (inside : Bool) :
    Accepts inside free (fun _ => True) (Grammar.statement free) (Grammar.Statement free inside) ∧
      Accepts inside free (fun _ => True) (Grammar.block free) (Block free inside) := by
  -- The body of a function is read inside of one, so the induction is for both values of `inside`.
  induction free generalizing inside with
  | zero => exact ⟨accepts_none, accepts_none⟩
  | succ free ih =>
    have he : Accepts inside free (binding · < 1) (Grammar.expression free)
        (Grammar.Expression free) := accepts_expression free
    have hqe := opens_expression free
    have hqs := opens_statement free inside
    obtain ⟨hst, hb⟩ := ih inside
    refine ⟨accepts_nested (accepts_anyStatement he hqe hst hqs hb Block.follows), ?_⟩
    refine accepts_nested (accepts_blockContents (fun hs hrest h => ?_)
      (opens_declaration free inside))
    exact declaration_at he hqe hst hqs (ih true).2 Block.follows hs hrest h

/-- The rule for statements takes all statements. -/
theorem accepts_statement (free : Nat) :
    Accepts inside free (fun _ => True) (Grammar.statement free) (Grammar.Statement free inside) :=
  (accepts_statement_block free inside).1

/-- The rule for blocks takes all blocks. -/
theorem accepts_block (free : Nat) :
    Accepts inside free (fun _ => True) (Grammar.block free) (Block free inside) :=
  (accepts_statement_block free inside).2

/-- Reading declarations up to the end of the text takes all that are there. -/
theorem declarations_at {s : State} (hs : s.HasRoom free inside) {tokens ahead : List Token}
    {last : Token} {program : List (Stmt Unit)}
    (h : Repeated (Declaration free inside) tokens program (last :: ahead))
    (hlast : last.kind = .eof) :
    declarations
      (declaration (Grammar.expression free) (Grammar.statement free) (Grammar.block free))
      (fun _ => false) tokens (s.at tokens) = (program, s.at (last :: ahead)) := by
  refine declarationsFrom_at ?_ (opens_declaration free inside) (fun _ _ => rfl) h
    (follows_cons hlast (by simp) (.inl rfl)) (Nat.le_refl _)
  intro tokens rest a hrest h
  exact declaration_at (accepts_expression free) (opens_expression free) (accepts_statement free)
    (opens_statement free inside) (accepts_block free) Block.follows hs hrest h

end

end Lox.Grammar
