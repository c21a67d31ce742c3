import Lox.Grammar

namespace Lox

namespace Grammar

/-!
# Steps of rules

What the small rules do to a state, as equations, and what a sequence of rules did, read back from
its result. Proofs about rules go through these lemmas and never look at how a rule is run.

* `bind_eq_ok`, `bind_of_ok` — a successful sequence, taken apart and put together.
* `sees_bind_eq_ok`, `accept_bind_eq_ok`, `expect_bind_eq_ok`, … — the same for the single steps.
* `Token.Kind.IsKnown` — the kinds of tokens that the grammar knows.
* `State.at` — a state moved to a given list of tokens.
* `State.advanced_at` — taking a token off such a list.
-/

variable {α β : Type}

/-! ### Sequences -/

/-- A sequence runs its second part where the first one has succeeded. -/
theorem bind_eq (r : Rule α) (f : α → Rule β) (s : State) :
    (r >>= f) s = match r s with
      | .ok a t => f a t
      | .error e t => .error e t := by
  show EStateM.bind r f s = _
  unfold EStateM.bind
  cases r s <;> rfl

/-- A sequence succeeds exactly if both parts do, one after the other. -/
theorem bind_eq_ok {r : Rule α} {f : α → Rule β} {s u : State} {b : β} :
    (r >>= f) s = .ok b u ↔ ∃ a t, r s = .ok a t ∧ f a t = .ok b u := by
  rw [bind_eq]
  cases r s with
  | ok a t => simp only [EStateM.Result.ok.injEq, exists_eq_left', exists_and_left, and_assoc]
  | error e t => simp

/-- A first part that succeeds hands on its result and its state. -/
theorem bind_of_ok {r : Rule α} {f : α → Rule β} {s t : State} {a : α} (h : r s = .ok a t) :
    (r >>= f) s = f a t := by
  rw [bind_eq, h]

/-- A first part that fails ends the sequence. -/
theorem bind_of_error {r : Rule α} {f : α → Rule β} {s t : State} {e : SyntaxError}
    (h : r s = .error e t) : (r >>= f) s = .error e t := by
  rw [bind_eq, h]

/-- Yielding a value succeeds with just that, in the same state. -/
theorem pure_eq_ok {a b : α} {s t : State} : (pure a : Rule α) s = .ok b t ↔ a = b ∧ s = t :=
  EStateM.Result.ok.injEq .. ▸ Iff.rfl

/-- A function of a result is a function of what the rule has yielded. -/
theorem map_eq_ok {r : Rule α} {f : α → β} {s t : State} {b : β} :
    (f <$> r) s = .ok b t ↔ ∃ a, r s = .ok a t ∧ f a = b := by
  show (r >>= fun a => pure (f a)) s = _ ↔ _
  simp only [bind_eq_ok, pure_eq_ok]
  constructor
  · rintro ⟨a, _, h, hb, rfl⟩
    exact ⟨a, h, hb⟩
  · rintro ⟨a, h, hb⟩
    exact ⟨a, t, h, hb, rfl⟩

/-! ### Single steps -/

@[simp] theorem get_bind (f : State → Rule β) (s : State) : ((get : Rule State) >>= f) s = f s s :=
  rfl

@[simp] theorem set_bind (t : State) (f : Unit → Rule β) (s : State) :
    ((set t : Rule Unit) >>= f) s = f () t := rfl

@[simp] theorem current_bind (f : Token → Rule β) (s : State) :
    (current >>= f) s = f s.current s := rfl

@[simp] theorem sees_bind (kind : Token.Kind) (f : Bool → Rule β) (s : State) :
    (sees kind >>= f) s = f (s.current.kind == kind) s := rfl

@[simp] theorem advance_bind (f : Token → Rule β) (s : State) :
    (advance >>= f) s = f s.current s.advanced := rfl

@[simp] theorem note_bind (token : Token) (cause : SyntaxError.Cause) (f : Unit → Rule β)
    (s : State) : (note token cause >>= f) s = f () (s.record ⟨token, cause⟩) := rfl

/-- Failing blames the current token and leaves the state as it is. -/
@[simp] theorem failHere_apply (cause : SyntaxError.Cause) (s : State) :
    (failHere cause : Rule α) s = .error ⟨s.current, cause⟩ s := rfl

/-- Whatever follows is told whether the current token is of the kind. -/
theorem sees_bind_eq_ok {kind : Token.Kind} {f : Bool → Rule β} {s u : State} {b : β} :
    (sees kind >>= f) s = .ok b u ↔
      s.current.kind = kind ∧ f true s = .ok b u ∨
        s.current.kind ≠ kind ∧ f false s = .ok b u := by
  rw [sees_bind]
  by_cases h : s.current.kind = kind
  · simp [h]
  · simp [h, beq_eq_false_iff_ne.2 h]

/-- A token of the kind is taken, and any other one is left. -/
theorem accept_bind (kind : Token.Kind) (f : Bool → Rule β) (s : State) :
    (accept kind >>= f) s =
      if s.current.kind == kind then f true s.advanced else f false s := by
  have haccept : accept kind s =
      if s.current.kind == kind then .ok true s.advanced else .ok false s := by
    rw [accept, sees_bind]
    split <;> rfl
  rw [bind_eq, haccept]
  by_cases h : s.current.kind = kind <;> simp [h]

/-- Either a token of the kind was taken, or none of that kind was there. -/
theorem accept_bind_eq_ok {kind : Token.Kind} {f : Bool → Rule β} {s u : State} {b : β} :
    (accept kind >>= f) s = .ok b u ↔
      s.current.kind = kind ∧ f true s.advanced = .ok b u ∨
        s.current.kind ≠ kind ∧ f false s = .ok b u := by
  rw [accept_bind]
  by_cases h : s.current.kind = kind <;> simp [h]

/-- Where a token of a kind is expected and all succeeds, it was there and was taken. -/
theorem expect_bind_eq_ok {kind : Token.Kind} {missing : SyntaxError.Cause} {f : Token → Rule β}
    {s u : State} {b : β} :
    (expect kind missing >>= f) s = .ok b u ↔
      s.current.kind = kind ∧ f s.current s.advanced = .ok b u := by
  have hexpect : expect kind missing s =
      if s.current.kind == kind then .ok s.current s.advanced
      else .error ⟨s.current, missing⟩ s := by
    rw [expect, sees_bind]
    split <;> rfl
  rw [bind_eq, hexpect]
  by_cases h : s.current.kind = kind <;> simp [h]

/-- A rule that runs one level deeper succeeds exactly if there is room for the level and the rule
    succeeds there. -/
theorem nested_eq_ok {rule : Rule α} {s t : State} {a : α} :
    nested rule s = .ok a t ↔
      s.nesting < maxNesting ∧
        ∃ u, rule { s with nesting := s.nesting + 1 } = .ok a u ∧
          t = { u with nesting := u.nesting - 1 } := by
  unfold nested
  by_cases h : s.nesting < maxNesting
  · rw [if_pos h]
    cases rule { s with nesting := s.nesting + 1 } with
    | ok b u =>
      simp only [EStateM.Result.ok.injEq]
      constructor
      · rintro ⟨rfl, rfl⟩
        exact ⟨h, u, ⟨rfl, rfl⟩, rfl⟩
      · rintro ⟨_, _, ⟨rfl, rfl⟩, rfl⟩
        exact ⟨rfl, rfl⟩
    | error e u => simp
  · rw [if_neg h]
    simp [h]

/-- A rule that runs in a function body succeeds exactly if the rule itself does. -/
theorem inFunction_eq_ok {rule : Rule α} {s t : State} {a : α} :
    inFunction rule s = .ok a t ↔
      ∃ u, rule { s with functionDepth := s.functionDepth + 1 } = .ok a u ∧
        t = { u with functionDepth := u.functionDepth - 1 } := by
  unfold inFunction
  cases rule { s with functionDepth := s.functionDepth + 1 } with
  | ok b u =>
    simp only [EStateM.Result.ok.injEq]
    constructor
    · rintro ⟨rfl, rfl⟩
      exact ⟨u, ⟨rfl, rfl⟩, rfl⟩
    · rintro ⟨_, ⟨rfl, rfl⟩, rfl⟩
      exact ⟨rfl, rfl⟩
  | error e u => simp

/-- One turn of a list: an item, with an error recorded in front of it if it is one too many, and
    a comma with the rest of the list, or the end. -/
theorem separatedFrom_cons_eq_ok {item : Rule α} {tooMany : SyntaxError.Cause} {token : Token}
    {bound : List Token} {count : Nat} {s t : State} {as : List α} :
    separatedFrom item tooMany (token :: bound) count s = .ok as t ↔
      ∃ first u,
        item (if maxArguments ≤ count then s.record ⟨s.current, tooMany⟩ else s) = .ok first u ∧
          (u.current.kind = Symbol.comma ∧
              (∃ rest, separatedFrom item tooMany bound (count + 1) u.advanced = .ok rest t ∧
                first :: rest = as) ∨
            u.current.kind ≠ Symbol.comma ∧ [first] = as ∧ u = t) := by
  -- Whether an error is recorded in front of it or not, the item and what follows are read alike.
  have hrest (s : State) : (do
      let first ← item
      if ← accept Symbol.comma then
        return first :: (← separatedFrom item tooMany bound (count + 1))
      else
        return [first]) s = .ok as t ↔ ∃ first u, item s = .ok first u ∧
          (u.current.kind = Symbol.comma ∧
              (∃ rest, separatedFrom item tooMany bound (count + 1) u.advanced = .ok rest t ∧
                first :: rest = as) ∨
            u.current.kind ≠ Symbol.comma ∧ [first] = as ∧ u = t) := by
    rw [bind_eq_ok]
    refine exists_congr fun first => exists_congr fun u => and_congr_right fun _ => ?_
    rw [accept_bind_eq_ok]
    exact or_congr (and_congr_right fun _ => map_eq_ok) (and_congr_right fun _ => pure_eq_ok)
  rw [separatedFrom]
  split
  · exact hrest _
  · exact hrest s

end Grammar

/-! ### Tokens and states -/

/-- The grammar knows a kind of token unless it marks a piece of text that is no token. -/
def Token.Kind.IsKnown (k : Token.Kind) : Prop := ∀ cause, k ≠ .invalid cause

@[simp] theorem Token.Kind.isKnown_eof : IsKnown .eof := by simp [IsKnown]

@[simp] theorem Token.Kind.isKnown_symbol (s : Symbol) : IsKnown (.symbol s) := by simp [IsKnown]

@[simp] theorem Token.Kind.isKnown_keyword (k : Keyword) : IsKnown (.keyword k) := by
  simp [IsKnown]

@[simp] theorem Token.Kind.isKnown_identifier : IsKnown .identifier := by simp [IsKnown]

@[simp] theorem Token.Kind.isKnown_string : IsKnown .string := by simp [IsKnown]

@[simp] theorem Token.Kind.isKnown_number : IsKnown .number := by simp [IsKnown]

namespace Grammar.State

/-- A token that the grammar knows is the next one. -/
theorem pull_of_isKnown {token : Token} (h : token.kind.IsKnown) (line : Nat)
    (errors : Array SyntaxError) (ahead : List Token) :
    pull line errors (token :: ahead) = (token, ahead, errors) := by
  rw [pull]
  split
  · next cause hc => exact absurd hc (h cause)
  · rfl

/-- An unreadable token is recorded and passed over. -/
theorem pull_of_invalid {token : Token} {cause : LexicalError} (h : token.kind = .invalid cause)
    (line : Nat) (errors : Array SyntaxError) (ahead : List Token) :
    pull line errors (token :: ahead) = pull line (errors.push ⟨token, .lexical cause⟩) ahead := by
  rw [pull, h]

/-- The end of the text is the end token. -/
theorem atEnd_eq_true {s : State} : s.atEnd = true ↔ s.current.kind = .eof := by
  simp [atEnd]

/-- The end token is never taken. -/
theorem advanced_of_atEnd {s : State} (h : s.current.kind = .eof) : s.advanced = s := by
  rw [advanced, if_pos (atEnd_eq_true.2 h)]

/-- Any other token makes way for the next one that the grammar knows. -/
theorem advanced_of_ne_eof {s : State} (h : s.current.kind ≠ .eof) :
    s.advanced =
      { s with
        current := (pull s.current.line s.errors s.ahead).1
        ahead := (pull s.current.line s.errors s.ahead).2.1
        errors := (pull s.current.line s.errors s.ahead).2.2 } := by
  rw [advanced, if_neg (fun he => h (atEnd_eq_true.1 he))]

/-- Taking a token neither enters a function nor leaves one. -/
@[simp] theorem functionDepth_advanced (s : State) :
    s.advanced.functionDepth = s.functionDepth := by
  unfold advanced
  split <;> rfl

/-- Taking a token does not change the level of nesting. -/
@[simp] theorem nesting_advanced (s : State) : s.advanced.nesting = s.nesting := by
  unfold advanced
  split <;> rfl

/-- The state moved to the first token of a list, with the others ahead. -/
def «at» (s : State) : List Token → State
  | [] => s
  | token :: ahead => { s with current := token, ahead := ahead }

@[simp] theorem current_at (s : State) (token : Token) (ahead : List Token) :
    (s.at (token :: ahead)).current = token := rfl

@[simp] theorem nesting_at (s : State) (tokens : List Token) :
    (s.at tokens).nesting = s.nesting := by
  cases tokens <;> rfl

@[simp] theorem functionDepth_at (s : State) (tokens : List Token) :
    (s.at tokens).functionDepth = s.functionDepth := by
  cases tokens <;> rfl

/-- Taking a token off a list moves the state to the rest of the list, if the grammar knows the
    token that comes next. -/
theorem advanced_at {s : State} {token next : Token} {ahead : List Token}
    (h : token.kind ≠ .eof) (hnext : next.kind.IsKnown) :
    (s.at (token :: next :: ahead)).advanced = s.at (next :: ahead) := by
  rw [advanced_of_ne_eof h]
  simp only [«at», pull_of_isKnown hnext]

end Grammar.State

end Lox
