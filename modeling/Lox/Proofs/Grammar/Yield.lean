import Lox.Proofs.Grammar.Step

namespace Lox.Grammar

/-!
# What rules yield

What a rule yields is put together from what the rules in it yield, so a property of all that is
read is carried through a rule step by step. Some properties depend on where the rule starts, for
instance on the level of nesting. So besides the property there is an invariant of the state: it
holds when the rule starts and holds again when the rule succeeds.

* `YieldsIn I P r` — where `I` holds, the rule `r` keeps it and yields what has the property `P`.
* `Yields`, `YieldsOn` — the cases in which the rule may start anywhere, or starts on a given level.
* `YieldsAt` — the case in which the token is known at which the rule starts.
* `LevelOnly` — invariants that are kept by all steps that stay on a level.
* `yields_separated`, `yields_chain`, `yields_blockContents` — the rules with loops.
-/

variable {α β : Type} {I J : State → Prop} {P P' : α → Prop} {Q : β → Prop} {n : Nat}

/-- A rule that succeeds and that started where the invariant holds has kept the invariant, and what
    it yields has a property. -/
def YieldsIn (I : State → Prop) (P : α → Prop) (r : Rule α) : Prop :=
  ∀ s t a, I s → r s = .ok a t → I t ∧ P a

/-- The invariant of rules that may start in any state. -/
def Anywhere (_ : State) : Prop := True

/-- The invariant of rules that start on a level of nesting and end on it. -/
def OnLevel (n : Nat) (s : State) : Prop := s.nesting = n

/-- Whatever a rule yields has a property. -/
def Yields (P : α → Prop) (r : Rule α) : Prop := YieldsIn Anywhere P r

/-- A rule that succeeds on a level ends on that level, and what it yields has a property. -/
def YieldsOn (n : Nat) (P : α → Prop) (r : Rule α) : Prop := YieldsIn (OnLevel n) P r

/-- The invariant does not look at anything in a state but the level of nesting. -/
class LevelOnly (I : State → Prop) : Prop where
  of_nesting_eq {s t : State} : t.nesting = s.nesting → I s → I t

instance : LevelOnly Anywhere where
  of_nesting_eq _ := id

instance : LevelOnly (OnLevel n) where
  of_nesting_eq h hs := h.trans hs

namespace LevelOnly

variable [LevelOnly I] {s : State}

/-- Taking a token does not change the level. -/
theorem advanced (hs : I s) : I s.advanced := of_nesting_eq s.nesting_advanced hs

/-- Recording an error does not change the level. -/
theorem record (hs : I s) (e : SyntaxError) : I (s.record e) :=
  of_nesting_eq (s := s) rfl hs

/-- Whether functions are around does not change the level. -/
theorem withFunctionDepth (hs : I s) (functionDepth : Nat) : I { s with functionDepth } :=
  of_nesting_eq (s := s) rfl hs

end LevelOnly

/-! ### Sequences and choices -/

namespace YieldsIn

theorem pure {a : α} (h : P a) : YieldsIn I P (Pure.pure a : Rule α) := by
  intro s t b hs hb
  obtain ⟨rfl, rfl⟩ := pure_eq_ok.1 hb
  exact ⟨hs, h⟩

/-- A rule that never succeeds yields nothing. -/
theorem failHere (cause : SyntaxError.Cause) : YieldsIn I P (failHere cause : Rule α) :=
  fun _ _ _ _ h => nomatch h

/-- What a sequence yields depends on what its first part yields. -/
theorem bind {r : Rule α} {f : α → Rule β} (h : YieldsIn I P r)
    (hf : ∀ a, P a → YieldsIn I Q (f a)) : YieldsIn I Q (r >>= f) := by
  intro s t b hs hb
  obtain ⟨a, u, hr, hrest⟩ := bind_eq_ok.1 hb
  obtain ⟨hu, ha⟩ := h s u a hs hr
  exact hf a ha u t b hu hrest

/-- What a rule yields has each property that follows from the one it has. -/
theorem mono {r : Rule α} (h : YieldsIn I P r) (hP : ∀ a, P a → P' a) : YieldsIn I P' r :=
  fun s t a hs ha => ⟨(h s t a hs ha).1, hP a (h s t a hs ha).2⟩

/-- What a rule yields may be shown to have two properties separately. -/
theorem and {r : Rule α} (h : YieldsIn I P r) (h' : YieldsIn I P' r) :
    YieldsIn I (fun a => P a ∧ P' a) r :=
  fun s t a hs ha => ⟨(h s t a hs ha).1, (h s t a hs ha).2, (h' s t a hs ha).2⟩

theorem ite {c : Prop} [Decidable c] {r u : Rule α} (h : YieldsIn I P r) (hu : YieldsIn I P u) :
    YieldsIn I P (if c then r else u) := by
  by_cases hc : c
  · rwa [if_pos hc]
  · rwa [if_neg hc]

/-- A function is applied to what a rule yields. -/
theorem map {r : Rule α} {f : α → β} (h : YieldsIn I P r) (hf : ∀ a, P a → Q (f a)) :
    YieldsIn I Q (f <$> r) := by
  intro s t b hs hb
  obtain ⟨a, hr, rfl⟩ := map_eq_ok.1 hb
  obtain ⟨ht, ha⟩ := h s t a hs hr
  exact ⟨ht, hf a ha⟩

/-- A part that may be missing is there. -/
theorem some {r : Rule α} (h : YieldsIn I P r) :
    YieldsIn I (fun o : Option α => ∀ a ∈ o, P a) (Option.some <$> r) :=
  h.map fun _ ha _ hb => Option.some.inj hb ▸ ha

/-- Where the state does not matter, nor does a first part of which nothing is known. -/
theorem after {r : Rule α} {f : α → Rule β} (hf : ∀ a, YieldsIn Anywhere Q (f a)) :
    YieldsIn Anywhere Q (r >>= f) :=
  .bind (P := fun _ => True) (fun _ _ _ _ _ => ⟨trivial, trivial⟩) fun a _ => hf a

/-- A choice in the middle of a rule does not matter if what follows it yields what it should. -/
theorem join {γ : Type} {c : Prop} [Decidable c] {r u : Rule γ} {f : γ → Rule β}
    (hf : ∀ x, YieldsIn Anywhere Q (f x)) :
    YieldsIn Anywhere Q (if c then r >>= f else u >>= f) :=
  .ite (.after hf) (.after hf)

end YieldsIn

/-! ### Single steps -/

namespace YieldsIn

theorem get {f : State → Rule β} (h : ∀ s, YieldsIn I Q (f s)) :
    YieldsIn I Q (MonadState.get >>= f) :=
  fun s => h s s

theorem current {f : Token → Rule β} (h : ∀ token, YieldsIn I Q (f token)) :
    YieldsIn I Q (Grammar.current >>= f) :=
  fun s => h s.current s

theorem sees {kind : Token.Kind} {f : Bool → Rule β} (h : ∀ seen, YieldsIn I Q (f seen)) :
    YieldsIn I Q (sees kind >>= f) :=
  fun s => h (s.current.kind == kind) s

variable [LevelOnly I]

/-- A rule that takes a token goes on behind it. -/
theorem advance {f : Token → Rule β} (h : ∀ token, YieldsIn I Q (f token)) :
    YieldsIn I Q (advance >>= f) :=
  fun s t b hs => h s.current s.advanced t b (LevelOnly.advanced hs)

/-- A rule that records an error goes on with it. -/
theorem note {token : Token} {cause : SyntaxError.Cause} {f : Unit → Rule β}
    (h : YieldsIn I Q (f ())) : YieldsIn I Q (note token cause >>= f) :=
  fun s t b hs => h (s.record ⟨token, cause⟩) t b (LevelOnly.record hs _)

/-- A rule that takes an optional token goes on behind it or without it. -/
theorem accept {kind : Token.Kind} {f : Bool → Rule β} (h : ∀ taken, YieldsIn I Q (f taken)) :
    YieldsIn I Q (accept kind >>= f) := by
  intro s t b hs hb
  rcases accept_bind_eq_ok.1 hb with ⟨-, hrest⟩ | ⟨-, hrest⟩
  · -- The token has been taken, which is a step on the same level.
    exact h true _ t b (LevelOnly.advanced hs) hrest
  · exact h false s t b hs hrest

/-- Behind a token that is expected, its kind is known. -/
theorem expect {kind : Token.Kind} {missing : SyntaxError.Cause} {f : Token → Rule β}
    (h : ∀ token, token.kind = kind → YieldsIn I Q (f token)) :
    YieldsIn I Q (expect kind missing >>= f) := by
  intro s t b hs hb
  obtain ⟨hk, hrest⟩ := expect_bind_eq_ok.1 hb
  exact h s.current hk _ t b (LevelOnly.advanced hs) hrest

/-- A rule that is nothing but a token of a given kind. -/
theorem expect_only (kind : Token.Kind) (missing : SyntaxError.Cause) :
    YieldsIn I (fun token => token.kind = kind) (Grammar.expect kind missing) := by
  rw [← bind_pure (Grammar.expect kind missing)]
  exact .expect fun _ hk => .pure hk

/-- The body of a function is on the level of the function. -/
theorem inFunction {r : Rule α} (h : YieldsIn I P r) : YieldsIn I P (inFunction r) := by
  intro s t a hs ha
  obtain ⟨u, hu, rfl⟩ := inFunction_eq_ok.1 ha
  obtain ⟨hlevel, hP⟩ := h _ u a (LevelOnly.withFunctionDepth hs _) hu
  exact ⟨LevelOnly.withFunctionDepth hlevel _, hP⟩

end YieldsIn

/-! ### Levels -/

/-- A rule that runs one level deeper is run only if there is room for the level. -/
theorem YieldsIn.nested {r : Rule α}
    (henter : ∀ s, I s → s.nesting < maxNesting →
      J { s with nesting := s.nesting + 1 } ∧ YieldsIn J P r)
    (hleave : ∀ t, J t → I { t with nesting := t.nesting - 1 }) : YieldsIn I P (nested r) := by
  intro s t a hs ha
  obtain ⟨hroom, u, hu, rfl⟩ := nested_eq_ok.1 ha
  obtain ⟨hdeeper, hr⟩ := henter s hs hroom
  obtain ⟨hlevel, hP⟩ := hr _ u a hdeeper hu
  exact ⟨hleave u hlevel, hP⟩

/-- What a rule yields does not depend on a level that is opened around it. -/
theorem Yields.nested {r : Rule α} (h : Yields P r) : Yields P (nested r) :=
  YieldsIn.nested (fun _ _ _ => ⟨trivial, h⟩) fun _ _ => trivial

/-- A rule that opens a level and closes it again ends on the level that it started on. -/
theorem YieldsOn.nested {r : Rule α} (h : n < maxNesting → YieldsOn (n + 1) P r) :
    YieldsOn n P (nested r) :=
  YieldsIn.nested (fun _ hs hroom => ⟨congrArg (· + 1) hs, h (hs ▸ hroom)⟩)
    fun _ ht => congrArg (· - 1) ht

/-! ### Rules that start at a token -/

/-- What a rule yields, and that it keeps the invariant, if it starts at the given token. -/
def YieldsAt (I : State → Prop) (token : Token) (P : α → Prop) (r : Rule α) : Prop :=
  ∀ s t a, s.current = token → I s → r s = .ok a t → I t ∧ P a

/-- What holds of a rule anywhere holds of it at a given token. -/
theorem YieldsIn.startingAt {r : Rule α} (h : YieldsIn I P r) (token : Token) :
    YieldsAt I token P r :=
  fun s t a _ => h s t a

/-- The token that is looked at is the one at which the rest starts. -/
theorem YieldsIn.currentAt {f : Token → Rule β} (h : ∀ token, YieldsAt I token Q (f token)) :
    YieldsIn I Q (Grammar.current >>= f) :=
  fun s t b hb => h s.current s t b rfl hb

/-- The token that is taken is the one at which the rule starts. -/
theorem YieldsAt.advance [LevelOnly I] {token : Token} {f : Token → Rule β}
    (h : YieldsIn I Q (f token)) : YieldsAt I token Q (advance >>= f) := by
  rintro s t b rfl hs hb
  exact h _ t b (LevelOnly.advanced hs) hb

/-! ### Loops -/

section

variable [LevelOnly I]

/-- The items that are still to come are what the rule for items yields. -/
theorem yields_separatedFrom {item : Rule α} (h : YieldsIn I P item) (tooMany : SyntaxError.Cause)
    (bound : List Token) (count : Nat) :
    YieldsIn I (fun as => ∀ a ∈ as, P a) (separatedFrom item tooMany bound count) := by
  induction bound generalizing count with
  | nil => exact .pure fun _ ha => absurd ha List.not_mem_nil
  | cons _ bound ih =>
    -- An item too many is objected to and read all the same.
    have hrest : YieldsIn I (fun as => ∀ a ∈ as, P a) (do
        let first ← item
        if ← Grammar.accept Symbol.comma then
          return first :: (← separatedFrom item tooMany bound (count + 1))
        else
          return [first]) :=
      .bind h fun first hfirst => .accept fun _ => .ite
        (.bind (ih (count + 1)) fun rest hrest => .pure (List.forall_mem_cons.2 ⟨hfirst, hrest⟩))
        (.pure (List.forall_mem_singleton.2 hfirst))
    rw [separatedFrom]
    exact .ite (.current fun _ => .note hrest) hrest

/-- The items of a list in parentheses are what the rule for items yields. -/
theorem yields_separated {item : Rule α} (h : YieldsIn I P item) (tooMany : SyntaxError.Cause) :
    YieldsIn I (fun as => ∀ a ∈ as, P a) (separated item tooMany) :=
  .sees fun _ => .ite (.pure fun _ ha => absurd ha List.not_mem_nil)
    (.get fun s => yields_separatedFrom h tooMany s.remaining 0)

/-- Operands that are joined by operators, from left to right. -/
theorem yields_chain {operand : Rule Expr} {isOperator : Token.Kind → Bool}
    {join : Expr → Token → Expr → Expr} {P : Expr → Prop}
    (hjoin : ∀ {l op r}, P l → isOperator op.kind = true → P r → P (join l op r))
    (ho : YieldsIn I P operand) : YieldsIn I P (chain isOperator join operand) := by
  have hfrom (bound : List Token) {left : Expr} (hleft : P left) :
      YieldsIn I P (chainFrom isOperator join operand bound left) := by
    induction bound generalizing left with
    | nil => exact .pure hleft
    | cons _ bound ih =>
      refine .currentAt fun token => ?_
      split
      -- The operator that is taken is the token that has been looked at.
      · next hop => exact .advance (.bind ho fun right hright => ih (hjoin hleft hop hright))
      · exact (YieldsIn.pure hleft).startingAt token
  exact .bind ho fun _ hfirst => .get fun s => hfrom s.remaining hfirst

end

/-! ### Declarations -/

/-- A declaration that is not malformed is what its rule yields. -/
theorem YieldsIn.forall_mem_recovering {rule : Rule α} (h : YieldsIn I P rule) {s : State}
    (hs : I s) : ∀ a ∈ (recovering rule s).1, P a := by
  intro a ha
  rw [recovering] at ha
  split at ha
  · next a' t hr =>
    obtain rfl : a' = a := Option.some.inj ha
    exact (h s t a' hs hr).2
  · exact absurd ha (Option.not_mem_none a)

section

variable {P : Stmt Unit → Prop} {declaration : State → Option (Stmt Unit) × State}

/-- What holds of each declaration that is read where an invariant holds, holds of all statements
    that are read from there on, and the invariant holds behind them. -/
theorem invariant_declarations (hI : ∀ s, I s → I (declaration s).2)
    (hd : ∀ s, I s → ∀ stmt ∈ (declaration s).1, P stmt) (closes : Token.Kind → Bool)
    (bound : List Token) {s : State} (hs : I s) :
    I (declarations declaration closes bound s).2 ∧
      ∀ stmt ∈ (declarations declaration closes bound s).1, P stmt := by
  induction bound generalizing s with
  | nil => exact ⟨hs, fun stmt hstmt => absurd hstmt List.not_mem_nil⟩
  | cons _ bound ih =>
    rw [declarations]
    split
    · exact ⟨hs, fun stmt hstmt => absurd hstmt List.not_mem_nil⟩
    · -- The others are read from where the first one has led, malformed or not.
      obtain ⟨hbehind, hrest⟩ := ih (hI s hs)
      refine ⟨hbehind, List.forall_mem_append.2 ⟨fun stmt hstmt => ?_, hrest⟩⟩
      exact hd s hs stmt (Option.mem_toList.1 hstmt)

/-- What holds of each declaration holds of all statements that are read. -/
theorem forall_mem_declarations (hd : ∀ s, ∀ stmt ∈ (declaration s).1, P stmt)
    (closes : Token.Kind → Bool) (bound : List Token) (s : State) :
    ∀ stmt ∈ (declarations declaration closes bound s).1, P stmt :=
  (invariant_declarations (I := Anywhere) (fun _ => id) (fun s _ => hd s) closes bound trivial).2

/-- What is in a block is what the declarations in it yield. -/
theorem yields_blockContents [LevelOnly I] (hI : ∀ s, I s → I (declaration s).2)
    (hd : ∀ s, I s → ∀ stmt ∈ (declaration s).1, P stmt) :
    YieldsIn I (fun body => ∀ s ∈ body, P s) (blockContents declaration) := by
  intro s t body hs h
  obtain ⟨hbehind, hbody⟩ :=
    invariant_declarations hI hd (· == .symbol .rightBrace) s.remaining hs
  rw [blockContents, get_bind] at h
  cases hrun : declarations declaration (· == .symbol .rightBrace) s.remaining s with
  | mk statements behind =>
    rw [hrun] at h hbehind hbody
    have hclosed : YieldsIn I (fun body => ∀ s ∈ body, P s) (do
        let _ ← expect Symbol.rightBrace .missingEndOfBlock
        return statements) :=
      .expect fun _ _ => .pure hbody
    exact hclosed behind t body hbehind h

end

end Lox.Grammar
