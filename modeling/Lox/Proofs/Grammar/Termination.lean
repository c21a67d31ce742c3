import Lox.Proofs.Grammar.Parallel
import Lox.Token.Cursor

namespace Lox.Grammar

/-!
# The parser ends

Rules open a level of nesting before they run themselves again, and levels are limited. What could
go on forever are the loops: operators of one level, argument lists behind each other, items of a
list, tokens skipped in recovery, declarations of a block or a program. Each of them is bounded here
by a list of tokens, but a bound is no reason to end. So loops are described a second time, turn by
turn and without a bound, and it is shown that they come to an end by themselves, with the result of
the bounded ones. For that, each turn has to take a token, and above all each declaration, however
malformed it is.

* `Loop` — a loop as a sequence of turns; `LoopEnds` — it ends after at most so many of them.
* `chainTurn`, `callsTurn`, `separatedTurn`, `synchronizingTurn`, `declarationsTurn` — the loops.
* `LoopsEnd` — all loops of the grammar.
* `grammarTokens`, `beyondEnd` — the tokens that are taken from a list, and those left in it.
* `State.Reads` — what holds between the states before and after every run.
* `parse_ends` — progress and termination.
-/

variable {α σ ρ : Type}

/-! ### Loops -/

/-- A loop that starts in a state goes on for a number of turns, each one leading to the state of
    the next one, and ends with a result. -/
inductive Loop (turn : σ → σ ⊕ ρ) : σ → (turns : Nat) → ρ → Prop
  | done {s : σ} {r : ρ} : turn s = .inr r → Loop turn s 0 r
  | next {s t : σ} {turns : Nat} {r : ρ} : turn s = .inl t → Loop turn t turns r →
      Loop turn s (turns + 1) r

/-- The loop ends with a result, after at most `limit` turns. -/
def LoopEnds (turn : σ → σ ⊕ ρ) (s : σ) (limit : Nat) (r : ρ) : Prop :=
  ∃ turns ≤ limit, Loop turn s turns r

namespace LoopEnds

variable {turn : σ → σ ⊕ ρ} {s t : σ} {r : ρ} {limit limit' : Nat}

/-- A loop that stops at once ends within any number of turns. -/
theorem done (h : turn s = .inr r) : LoopEnds turn s limit r := ⟨0, Nat.zero_le _, .done h⟩

/-- One turn more, and the rest within fewer turns. -/
theorem next (h : turn s = .inl t) (hrest : LoopEnds turn t limit r) (hlt : limit < limit') :
    LoopEnds turn s limit' r := by
  obtain ⟨turns, hle, hloop⟩ := hrest
  exact ⟨turns + 1, by omega, .next h hloop⟩

end LoopEnds

/-! ### Operators and calls -/

/-- What has been read is extended as long as the current token calls for it. -/
def extendingTurn (opens : Token.Kind → Bool) (extend : Expr → Token → Rule Expr) :
    Expr × State → (Expr × State) ⊕ EStateM.Result SyntaxError State Expr
  | (left, s) =>
    if opens s.current.kind then
      match extend left s.current s.advanced with
      | .ok e t => .inl (e, t)
      | .error e t => .inr (.error e t)
    else .inr (.ok left s)

/-- A bounded loop of such turns: the bound does not take effect, as each turn takes a token. -/
theorem extending_ends {opens : Token.Kind → Bool} {extend : Expr → Token → Rule Expr}
    {loop : List Token → Expr → Rule Expr} (heof : opens .eof = false)
    (hextend : ∀ left op, Respects Onward (extend left op))
    (hnil : ∀ left s, loop [] left s = .ok left s)
    (hcons : ∀ token bound left s, loop (token :: bound) left s =
      if opens s.current.kind then (extend left s.current >>= loop bound) s.advanced
      else .ok left s)
    {bound : List Token} (left : Expr) {s : State} (hb : s.left ≤ bound.length) :
    LoopEnds (extendingTurn opens extend) (left, s) s.left (loop bound left s) := by
  induction bound generalizing left s with
  | nil =>
    -- No token can be taken, so this is the end of the text.
    have hkind : s.current.kind = .eof := State.left_eq_zero_iff.1 (Nat.le_zero.1 hb)
    refine .done ?_
    simp [extendingTurn, hkind, heof, hnil]
  | cons token bound ih =>
    rw [hcons]
    cases hopens : opens s.current.kind with
    | false =>
      refine .done ?_
      simp [extendingTurn, hopens]
    -- An operator is there to be taken, so the bound is longer than this turn needs.
    | true =>
      have hne : s.current.kind ≠ .eof := by
        intro hkind
        rw [hkind, heof] at hopens
        cases hopens
      have hstep := State.left_advanced hne
      rw [List.length_cons] at hb
      rw [if_pos rfl, bind_eq]
      cases hrun : extend left s.current s.advanced with
      | error e t =>
        refine .done ?_
        simp [extendingTurn, hopens, hrun]
      | ok e t =>
        have hle : t.left ≤ s.advanced.left := (hextend left s.current).of_ok hrun
        refine .next (t := (e, t)) ?_ (ih e (by omega)) (by omega)
        simp [extendingTurn, hopens, hrun]

/-- One more operator of a level, with its operand. -/
def chainTurn (isOperator : Token.Kind → Bool) (join : Expr → Token → Expr → Expr)
    (operand : Rule Expr) : Expr × State → (Expr × State) ⊕ EStateM.Result SyntaxError State Expr :=
  extendingTurn isOperator fun left op => do return join left op (← operand)

/-- What follows the opening parenthesis of a call. -/
def callOf (expression : Rule Expr) (callee : Expr) : Rule Expr := do
  let arguments ← separated expression .tooManyArguments
  let paren ← expect Symbol.rightParen .missingCloseOfArguments
  return .call callee paren arguments

/-- One more list of arguments. -/
def callsTurn (expression : Rule Expr) :
    Expr × State → (Expr × State) ⊕ EStateM.Result SyntaxError State Expr :=
  extendingTurn (· == Symbol.leftParen) fun callee _ => callOf expression callee

/-- Operators of one level end after as many turns as there are tokens. -/
theorem chainFrom_ends {isOperator : Token.Kind → Bool} {join : Expr → Token → Expr → Expr}
    {operand : Rule Expr} (heof : isOperator .eof = false) (ho : Respects Onward operand)
    {bound : List Token} (left : Expr) {s : State} (hb : s.left ≤ bound.length) :
    LoopEnds (chainTurn isOperator join operand) (left, s) s.left
      (chainFrom isOperator join operand bound left s) := by
  have hR := stepClosed_onward
  refine extending_ends heof (fun left op => .bind hR ho fun right => respects_pure hR _)
    (fun _ _ => rfl) (fun token bound left s => ?_) left hb
  rw [chainFrom, current_bind]
  split
  · rw [advance_bind, bind_assoc]
    simp only [pure_bind]
  · rfl

/-- Calls behind each other end after as many turns as there are tokens. -/
theorem callsFrom_ends {expression : Rule Expr} (he : Respects Onward expression)
    {bound : List Token} (callee : Expr) {s : State} (hb : s.left ≤ bound.length) :
    LoopEnds (callsTurn expression) (callee, s) s.left (callsFrom expression bound callee s) := by
  have hR := stepClosed_onward
  have hcall (callee : Expr) : Respects Onward (callOf expression callee) :=
    .bind hR (respects_separated hR he trivial) fun arguments =>
      .bind hR (respects_expect hR _ trivial) fun paren => respects_pure hR _
  refine extending_ends rfl (fun callee _ => hcall callee) (fun _ _ => rfl)
    (fun token bound callee s => ?_) callee hb
  rw [callsFrom, accept_bind]
  split
  · simp only [if_true, callOf, bind_assoc, pure_bind]
  · rfl

/-- A level of operators that are joined from the left, with the rule for their operands. -/
structure Level where
  isOperator : Token.Kind → Bool
  join : Expr → Token → Expr → Expr
  operand : Rule Expr

/-- The levels of operators, from those that bind most, given the rule for what products are made
    of. -/
def levels (operand : Rule Expr) : List Level :=
  [⟨isFactorOperator, .binary, operand⟩, ⟨isTermOperator, .binary, product operand⟩,
    ⟨isComparison, .binary, sum operand⟩, ⟨isEquality, .binary, comparison operand⟩,
    ⟨(· == .keyword .and_), .logical, equality operand⟩,
    ⟨(· == .keyword .or_), .logical, conjunction operand⟩]

/-- The end of the text is no operator, and operands never go back. -/
theorem onward_of_mem_levels {operand : Rule Expr} (ho : Respects Onward operand) {level : Level}
    (h : level ∈ levels operand) :
    level.isOperator .eof = false ∧ Respects Onward level.operand := by
  have hR := stepClosed_onward
  have h₁ : Respects Onward (product operand) := respects_chain hR ho
  have h₂ : Respects Onward (sum operand) := respects_chain hR h₁
  have h₃ : Respects Onward (comparison operand) := respects_chain hR h₂
  have h₄ : Respects Onward (equality operand) := respects_chain hR h₃
  have h₅ : Respects Onward (conjunction operand) := respects_chain hR h₄
  simp only [levels, List.mem_cons, List.not_mem_nil, or_false] at h
  rcases h with rfl | rfl | rfl | rfl | rfl | rfl
  · exact ⟨rfl, ho⟩
  · exact ⟨rfl, h₁⟩
  · exact ⟨rfl, h₂⟩
  · exact ⟨rfl, h₃⟩
  · exact ⟨rfl, h₄⟩
  · exact ⟨rfl, h₅⟩

/-! ### Lists -/

/-- One more item of a list, which is objected to if it is one too many, and a comma behind it. -/
def separatedTurn (item : Rule α) (tooMany : SyntaxError.Cause) :
    List α × State → (List α × State) ⊕ EStateM.Result SyntaxError State (List α)
  | (before, s) =>
    match item (if maxArguments ≤ before.length then s.record ⟨s.current, tooMany⟩ else s) with
    | .error e t => .inr (.error e t)
    | .ok a t =>
      if t.current.kind == Symbol.comma then .inl (before ++ [a], t.advanced)
      else .inr (.ok (before ++ [a]) t)

/-- A turn of the bounded loop. -/
theorem separatedFrom_cons (item : Rule α) (tooMany : SyntaxError.Cause) (token : Token)
    (bound : List Token) (count : Nat) (s : State) :
    separatedFrom item tooMany (token :: bound) count s =
      match item (if maxArguments ≤ count then s.record ⟨s.current, tooMany⟩ else s) with
      | .error e t => .error e t
      | .ok a t =>
        if t.current.kind == Symbol.comma then
          (List.cons a <$> separatedFrom item tooMany bound (count + 1)) t.advanced
        else .ok [a] t := by
  -- Whether an item too many is objected to only matters for the state in which it is read.
  have hitem (s : State) : (do
      let first ← item
      if ← accept Symbol.comma then
        return first :: (← separatedFrom item tooMany bound (count + 1))
      else
        return [first]) s =
      match item s with
      | .error e t => .error e t
      | .ok a t =>
        if t.current.kind == Symbol.comma then
          (List.cons a <$> separatedFrom item tooMany bound (count + 1)) t.advanced
        else .ok [a] t := by
    rw [bind_eq]
    cases item s with
    | error e t => rfl
    | ok a t =>
      dsimp only
      rw [accept_bind]
      split <;> rfl
  rw [separatedFrom]
  split
  · exact hitem _
  · exact hitem s

/-- A function of a result does not change whether there is one. -/
theorem map_eq {β : Type} (f : α → β) (r : Rule α) (s : State) :
    (f <$> r) s = match r s with
      | .ok a t => .ok (f a) t
      | .error e t => .error e t := by
  show EStateM.map f r s = _
  unfold EStateM.map
  cases r s <;> rfl

/-- Items that are read behind others. The bound is one token longer than the turns need, as a list
    has one item more than commas. -/
theorem separatedFrom_ends {item : Rule α} (tooMany : SyntaxError.Cause)
    (hi : Advances item) (before : List α) (token : Token) {bound : List Token} {s : State}
    (hb : s.left ≤ bound.length + 1) :
    LoopEnds (separatedTurn item tooMany) (before, s) s.left
      (((before ++ ·) <$> separatedFrom item tooMany (token :: bound) before.length) s) := by
  -- An item may take many tokens, so the induction is on those that are left.
  induction hm : s.left using Nat.strongRecOn generalizing before token bound s with
  | ind m ih =>
    subst hm
    rw [map_eq, separatedFrom_cons]
    -- The objection to an item takes no token.
    have hnoted : (if maxArguments ≤ before.length then s.record ⟨s.current, tooMany⟩ else s).left =
        s.left := by
      split <;> rfl
    generalize hitem : item (if maxArguments ≤ before.length then s.record ⟨s.current, tooMany⟩
      else s) = result
    cases result with
    | error e t =>
      refine .done ?_
      simp only [separatedTurn, hitem]
    | ok a t =>
      have hlt := hi hitem
      rw [hnoted] at hlt
      dsimp only
      by_cases hcomma : t.current.kind = Symbol.comma
      · have hseen : (t.current.kind == Symbol.comma) = true := beq_iff_eq.2 hcomma
        have hstep := State.left_advanced (s := t) (by simp [hcomma])
        obtain ⟨next, bound, rfl⟩ := List.exists_cons_of_length_pos (l := bound) (by omega)
        rw [List.length_cons] at hb
        have hbound : t.advanced.left ≤ bound.length + 1 := by omega
        have hrest := ih t.advanced.left (by omega) (before ++ [a]) next hbound rfl
        have hturn : separatedTurn item tooMany (before, s) = .inl (before ++ [a], t.advanced) := by
          simp only [separatedTurn, hitem, if_pos hseen]
        rw [if_pos hseen, map_eq]
        rw [map_eq, List.length_append, List.length_singleton] at hrest
        -- The item stands between those before and those behind it.
        cases hmore : separatedFrom item tooMany (next :: bound) (before.length + 1) t.advanced with
        | ok rest u =>
          rw [hmore] at hrest
          refine .next hturn ?_ (by omega : t.advanced.left < s.left)
          simpa using hrest
        | error e u =>
          rw [hmore] at hrest
          exact .next hturn hrest (by omega)
      · have hseen : ¬(t.current.kind == Symbol.comma) = true := fun h => hcomma (beq_iff_eq.1 h)
        rw [if_neg hseen]
        refine .done ?_
        simp only [separatedTurn, hitem, if_neg hseen]

/-! ### Recovery and declarations -/

/-- One more token is skipped, unless the last one ends a statement or the current one begins
    one. -/
def synchronizingTurn : Token × State → (Token × State) ⊕ State
  | (passed, s) =>
    if s.atEnd || passed.kind == .symbol .semicolon || s.current.kind.startsStatement then .inr s
    else .inl (s.current, s.advanced)

/-- Recovery ends after as many turns as there are tokens. -/
theorem synchronizedFrom_ends {bound : List Token} (passed : Token) {s : State}
    (hb : s.left ≤ bound.length) :
    LoopEnds synchronizingTurn (passed, s) s.left (synchronizedFrom bound passed s) := by
  induction bound generalizing passed s with
  | nil =>
    have hkind : s.current.kind = .eof := State.left_eq_zero_iff.1 (Nat.le_zero.1 hb)
    refine .done ?_
    simp [synchronizingTurn, synchronizedFrom, State.atEnd_eq_true.2 hkind]
  | cons _ bound ih =>
    rw [synchronizedFrom]
    by_cases hstop : (s.atEnd || passed.kind == .symbol .semicolon ||
        s.current.kind.startsStatement) = true
    · rw [if_pos hstop]
      exact .done (if_pos hstop)
    · -- Where it goes on, the current token is not the end, and it is taken.
      have hne : s.current.kind ≠ .eof := fun hkind =>
        hstop (by simp [State.atEnd_eq_true.2 hkind])
      have hstep := State.left_advanced hne
      rw [List.length_cons] at hb
      rw [if_neg hstop]
      exact .next (if_neg hstop) (ih s.current (by omega)) (by omega)

/-- One more declaration, unless the text or the block ends. -/
def declarationsTurn (declaration : State → Option (Stmt Unit) × State)
    (closes : Token.Kind → Bool) :
    List (Stmt Unit) × State → (List (Stmt Unit) × State) ⊕ (List (Stmt Unit) × State)
  | (before, s) =>
    if s.atEnd || closes s.current.kind then .inr (before, s)
    else .inl (before ++ (declaration s).1.toList, (declaration s).2)

/-- Declarations end after as many turns as there are tokens, since each of them takes one. -/
theorem declarations_ends {d : State → Option (Stmt Unit) × State}
    (hd : ∀ {s : State}, s.current.kind ≠ .eof → (d s).2.left < s.left) (closes : Token.Kind → Bool)
    {bound : List Token} (before : List (Stmt Unit)) {s : State} (hb : s.left ≤ bound.length) :
    LoopEnds (declarationsTurn d closes) (before, s) s.left
      (before ++ (declarations d closes bound s).1, (declarations d closes bound s).2) := by
  induction bound generalizing before s with
  | nil =>
    have hkind : s.current.kind = .eof := State.left_eq_zero_iff.1 (Nat.le_zero.1 hb)
    refine .done ?_
    simp [declarationsTurn, declarations, State.atEnd_eq_true.2 hkind]
  | cons _ bound ih =>
    rw [declarations]
    by_cases hstop : (s.atEnd || closes s.current.kind) = true
    · rw [if_pos hstop, List.append_nil]
      exact .done (if_pos hstop)
    · -- A turn takes a token, and the bound has one less for the next turn.
      have hne : s.current.kind ≠ .eof := fun hkind =>
        hstop (by simp [State.atEnd_eq_true.2 hkind])
      have hlt := hd hne
      rw [List.length_cons] at hb
      have hbound : (d s).2.left ≤ bound.length := by omega
      have hrest := ih (before ++ (d s).1.toList) hbound
      rw [List.append_assoc] at hrest
      rw [if_neg hstop]
      exact .next (if_neg hstop) hrest hlt

/-- The loops of the grammar, begun in some state, end after at most as many turns as there are
    tokens to be taken, with the results of the bounded loops. -/
structure LoopsEnd (s : State) : Prop where
  operators (free : Nat) (left : Expr) : ∀ level ∈ levels (unary free),
    LoopEnds (chainTurn level.isOperator level.join level.operand) (left, s) s.left
      (chainFrom level.isOperator level.join level.operand s.remaining left s)
  calls (free : Nat) (callee : Expr) :
    LoopEnds (callsTurn (expression free)) (callee, s) s.left
      (callsFrom (expression free) s.remaining callee s)
  arguments (free : Nat) :
    LoopEnds (separatedTurn (expression free) .tooManyArguments) ([], s) s.left
      (separatedFrom (expression free) .tooManyArguments s.remaining 0 s)
  parameters :
    LoopEnds (separatedTurn (expect .identifier .missingParameterName) .tooManyParameters) ([], s)
      s.left
      (separatedFrom (expect .identifier .missingParameterName) .tooManyParameters s.remaining 0 s)
  synchronizing (passed : Token) :
    LoopEnds synchronizingTurn (passed, s) s.left (synchronizedFrom s.remaining passed s)
  declarations (free : Nat) (closes : Token.Kind → Bool) :
    LoopEnds
      (declarationsTurn (declaration (expression free) (statement free) (block free)) closes)
      ([], s) s.left
      (declarations (declaration (expression free) (statement free) (block free)) closes
        s.remaining s)

/-- All loops end, whatever the state. -/
theorem loopsEnd (s : State) : LoopsEnd s := by
  have hb := s.left_le_length_remaining
  -- A list from its first item on, with nothing in front of it.
  have hseparated {α : Type} {item : Rule α} (tooMany : SyntaxError.Cause) (hi : Advances item) :
      LoopEnds (separatedTurn item tooMany) ([], s) s.left
        (separatedFrom item tooMany s.remaining 0 s) := by
    have hends : LoopEnds _ ([], s) s.left
        ((([] ++ ·) <$> separatedFrom item tooMany s.remaining 0) s) :=
      separatedFrom_ends tooMany hi [] s.current hb
    have hid : ((([] : List α) ++ ·) : List α → List α) = id := rfl
    rwa [hid, id_map] at hends
  refine ⟨fun free left level hlevel => ?_, fun free callee => ?_, fun free => ?_, ?_, ?_, ?_⟩
  · obtain ⟨heof, ho⟩ :=
      onward_of_mem_levels (respects_expression_unary stepClosed_onward free).2 hlevel
    exact chainFrom_ends heof ho left hb
  · exact callsFrom_ends (respects_expression stepClosed_onward free) callee hb
  · exact hseparated _ (advances_expression free)
  · exact hseparated _ (advances_expect (by simp))
  · exact fun passed => synchronizedFrom_ends passed hb
  · exact fun free closes => declarations_ends (left_declaration_lt free) closes [] hb

/-! ### Tokens taken and tokens left -/

/-- The tokens that the grammar knows in front of the first end token. -/
def grammarTokens : List Token → List Token
  | [] => []
  | token :: tokens =>
    match token.kind with
    | .eof => []
    | .invalid _ => grammarTokens tokens
    | _ => token :: grammarTokens tokens

/-- The tokens behind the first end token. -/
def beyondEnd : List Token → List Token
  | [] => []
  | token :: tokens => if token.kind = .eof then tokens else beyondEnd tokens

/-- As many tokens are counted as there are. -/
theorem length_grammarTokens (tokens : List Token) :
    (grammarTokens tokens).length = knownBeforeEnd tokens := by
  induction tokens with
  | nil => rfl
  | cons token tokens ih =>
    cases hk : token.kind <;> simp [grammarTokens, knownBeforeEnd, hk, ih]

namespace State

/-- The tokens that can still be taken, in order. -/
def untaken (s : State) : List Token := if s.atEnd then [] else s.current :: grammarTokens s.ahead

/-- The tokens that will never be looked at. -/
def beyond (s : State) : List Token := if s.atEnd then s.ahead else beyondEnd s.ahead

/-- As many tokens are left as can be taken. -/
theorem length_untaken (s : State) : s.untaken.length = s.left := by
  rw [untaken, left]
  split
  · rfl
  · rw [List.length_cons, length_grammarTokens]

/-- In the state that looks at the next token, all tokens are still there to be taken, and those
    that were passed are gone. -/
theorem pull_spec (line : Nat) (errors : Array SyntaxError) (ahead : List Token)
    (functionDepth nesting : Nat) :
    let s : State :=
      { current := (pull line errors ahead).1
        ahead := (pull line errors ahead).2.1
        errors := (pull line errors ahead).2.2
        functionDepth, nesting }
    s.untaken = grammarTokens ahead ∧ s.beyond = beyondEnd ahead ∧ s.ahead <:+ ahead := by
  -- An unreadable token is skipped on all three sides, and any other one is where it stops.
  induction ahead generalizing errors with
  | nil => exact ⟨rfl, rfl, List.suffix_refl _⟩
  | cons token ahead ih =>
    cases hk : token.kind with
    | invalid cause =>
      rw [pull_of_invalid hk, grammarTokens, beyondEnd, hk]
      obtain ⟨huntaken, hbeyond, hahead⟩ := ih (errors.push ⟨token, .lexical cause⟩)
      exact ⟨huntaken, hbeyond, hahead.trans (List.suffix_cons token ahead)⟩
    | eof =>
      rw [pull_of_isKnown (by simp [hk])]
      refine ⟨?_, ?_, List.suffix_cons token ahead⟩
      · simp [untaken, atEnd, grammarTokens, hk]
      · simp [beyond, atEnd, beyondEnd, hk]
    | symbol | keyword | identifier | string | number =>
      rw [pull_of_isKnown (by simp [hk])]
      refine ⟨?_, ?_, List.suffix_cons token ahead⟩
      · simp [untaken, atEnd, grammarTokens, hk]
      · simp [beyond, atEnd, beyondEnd, hk]

/-- Taking a token takes it off the front of those that can be taken. -/
theorem untaken_of_ne_eof {s : State} (h : s.current.kind ≠ .eof) :
    s.untaken = s.current :: s.advanced.untaken := by
  have hadvanced := (pull_spec s.current.line s.errors s.ahead s.functionDepth s.nesting).1
  rw [untaken, if_neg fun hend => h (atEnd_eq_true.1 hend), advanced_of_ne_eof h, hadvanced]

/-- At the start all tokens can be taken, up to the first end token. -/
theorem start_spec (tokens : List Token) :
    (start tokens).untaken = grammarTokens tokens ∧ (start tokens).beyond = beyondEnd tokens :=
  have h := pull_spec 1 #[] tokens 0 0
  ⟨h.1, h.2.1⟩

/-- Whatever is done between two states, the tokens that can still be taken are the last ones of
    those that could be taken before. No token that was passed comes back, and none behind the end
    of the text is looked at. -/
structure Reads (s t : State) : Prop where
  untaken : t.untaken <:+ s.untaken
  ahead : t.ahead <:+ s.ahead
  beyond : t.beyond = s.beyond

/-- Taking a token takes it off the front. -/
theorem reads_advanced (s : State) : s.Reads s.advanced := by
  by_cases h : s.current.kind = .eof
  · rw [advanced_of_atEnd h]
    exact ⟨List.suffix_refl _, List.suffix_refl _, rfl⟩
  · obtain ⟨-, hbeyond, hahead⟩ :=
      pull_spec s.current.line s.errors s.ahead s.functionDepth s.nesting
    refine ⟨?_, ?_, ?_⟩
    · rw [untaken_of_ne_eof h]
      exact List.suffix_cons _ _
    · rwa [advanced_of_ne_eof h]
    · rw [advanced_of_ne_eof h, hbeyond, beyond, if_neg fun hend => h (atEnd_eq_true.1 hend)]

end State

/-- No step of a rule goes back. -/
theorem stepClosed_reads : StepClosed State.Reads where
  refl _ := ⟨List.suffix_refl _, List.suffix_refl _, rfl⟩
  trans h h' :=
    ⟨h'.untaken.trans h.untaken, h'.ahead.trans h.ahead, h'.beyond.trans h.beyond⟩
  advanced := State.reads_advanced
  record _ _ _ := ⟨List.suffix_refl _, List.suffix_refl _, rfl⟩
  nested _ h := ⟨h.untaken, h.ahead, h.beyond⟩

/-- Entering a function and leaving it do not go back either. -/
theorem functionClosed_reads : FunctionClosed State.Reads where
  returned s _ _ :=
    have h := s.reads_advanced
    ⟨h.untaken, h.ahead, h.beyond⟩
  inFunction h := ⟨h.untaken, h.ahead, h.beyond⟩

/-- A declaration takes some tokens off the front of those that can be taken. -/
theorem exists_passed_declaration (free : Nat) {s : State} (hs : s.current.kind ≠ .eof) :
    let t := (declaration (expression free) (statement free) (block free) s).2
    (∃ passed, passed ≠ [] ∧ s.untaken = passed ++ t.untaken) ∧ t.ahead <:+ s.ahead := by
  intro t
  have hreads : s.Reads t := rel_declaration_free stepClosed_reads functionClosed_reads free s
  have hlt : t.left < s.left := left_declaration_lt free hs
  obtain ⟨passed, hpassed⟩ := hreads.untaken
  refine ⟨⟨passed, fun hnil => ?_, hpassed.symm⟩, hreads.ahead⟩
  -- If none were passed, as many would be left as before.
  rw [hnil, List.nil_append] at hpassed
  rw [← State.length_untaken, ← State.length_untaken, hpassed] at hlt
  exact Nat.lt_irrefl _ hlt

/-- **The parser gets on, and it ends.** All loops of the grammar end by themselves, whatever the
    state. A declaration that does not begin at the end of the text passes at least one token that
    the grammar knows, even if it is malformed, and puts no token back. So the loop over the
    declarations of a program makes at most as many turns as there are such tokens in front of the
    first end token, and when it ends, just the tokens behind that one have not been looked at. -/
theorem parse_ends (tokens : List Token) :
    (∀ s : State, LoopsEnd s) ∧
      (∀ (free : Nat) (s : State), s.current.kind ≠ .eof →
        let t := (declaration (expression free) (statement free) (block free) s).2
        (∃ passed, passed ≠ [] ∧ s.untaken = passed ++ t.untaken) ∧ t.ahead <:+ s.ahead) ∧
      ∃ turns ≤ (grammarTokens tokens).length, ∃ t : State,
        Loop
          (declarationsTurn
            (declaration (expression maxNesting) (statement maxNesting) (block maxNesting))
            fun _ => false)
          ([], .start tokens) turns ((parse tokens).1, t) ∧
        (parse tokens).2 = t.errors.toList ∧ t.atEnd = true ∧ t.ahead = beyondEnd tokens := by
  refine ⟨loopsEnd, fun free s hs => exists_passed_declaration free hs, ?_⟩
  obtain ⟨huntaken, hbeyond⟩ := State.start_spec tokens
  obtain ⟨turns, hle, hloop⟩ :=
    (loopsEnd (State.start tokens)).declarations maxNesting fun _ => false
  rw [← State.length_untaken, huntaken] at hle
  -- The bound of the loop does not take effect, so it stops at the end of the text only.
  have hend := atEnd_declarations (left_declaration_lt maxNesting)
    (State.start tokens).left_le_length_remaining
  have hreads := rel_declarations stepClosed_reads functionClosed_reads maxNesting (fun _ => false)
    (State.start tokens).remaining (State.start tokens)
  refine ⟨turns, hle, _, hloop, rfl, State.atEnd_eq_true.2 hend, ?_⟩
  have hleft := hreads.beyond
  rwa [State.beyond, if_pos (State.atEnd_eq_true.2 hend), hbeyond] at hleft

/-- A parenthesis that closes nothing begins no statement, and is passed all the same. -/
theorem parse_ends_strayParenthesis :
    ∃ passed, passed ≠ [] ∧ (State.start (scan ") class @ ;")).untaken =
      passed ++ (declaration (expression maxNesting) (statement maxNesting) (block maxNesting)
        (State.start (scan ") class @ ;"))).2.untaken :=
  have hparenthesis : (State.start (scan ") class @ ;")).current.kind ≠ .eof := by decide +kernel
  ((parse_ends (scan ") class @ ;")).2.1 maxNesting _ hparenthesis).1

end Lox.Grammar
