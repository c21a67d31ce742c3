import Lox.Proofs.Grammar.Invariant
import Lox.Proofs.Grammar.Opening

namespace Lox.Grammar

/-!
# What is read is a phrase

A rule that succeeds without recording an error has read a phrase of its language: the tokens it
has taken are the phrase, and its result is the tree. Each rule is shown to do so if the rules do
that it nests; only the last lemmas are by induction, on the levels left to open.

A rule may also succeed and leave errors behind. So the claim is about runs that end with no more
errors than they started with, and since errors never go away, this holds of each part of such a
run as well.

* `State.HasEnd` — an end token is among the tokens still to be read.
* `Later` — what holds between the states before and after every run.
* `Reads inside r L` — the rule `r` reads phrases of the language `L`.
* `reads_expression`, `reads_statement`, `reads_block`, `sound_declarations` — the rules of the
  grammar read phrases of the grammar.
-/

variable {α β : Type} {inside : Bool}

/-! ### Runs without errors -/

/-- An end token is among the tokens still to be read. -/
def State.HasEnd (s : State) : Prop := ∃ token ∈ s.remaining, token.kind = .eof

/-- What holds between the states before and after a run: errors are only added, no tokens come
    up, functions are left, and the end token is not passed. -/
structure Later (s t : State) : Prop where
  size_errors_le : s.errors.size ≤ t.errors.size
  length_remaining_le : t.remaining.length ≤ s.remaining.length
  functionDepth_eq : t.functionDepth = s.functionDepth
  hasEnd : s.HasEnd → t.HasEnd

/-- Looking for the next readable token adds the errors of those that it skips. -/
theorem State.size_errors_le_pull (line : Nat) (errors : Array SyntaxError)
    (ahead : List Token) : errors.size ≤ (pull line errors ahead).2.2.size := by
  -- The induction is on the tokens ahead, and each unreadable one adds an error.
  induction ahead generalizing errors with
  | nil => exact Nat.le_refl _
  | cons token ahead ih =>
    rw [pull]
    split
    · next cause _ =>
      have hpush : (errors.push ⟨token, .lexical cause⟩).size = errors.size + 1 :=
        Array.size_push _
      have := ih (errors.push ⟨token, .lexical cause⟩)
      omega
    · exact Nat.le_refl _

/-- No more tokens are ahead than before. -/
theorem State.length_pull_le (line : Nat) (errors : Array SyntaxError) (ahead : List Token) :
    (pull line errors ahead).2.1.length ≤ ahead.length := by
  induction ahead generalizing errors with
  | nil => exact Nat.le_refl _
  | cons token ahead ih =>
    rw [pull]
    split
    · exact Nat.le_succ_of_le (ih _)
    · exact Nat.le_succ _

/-- An end token is never skipped, as it is readable. -/
theorem State.exists_eof_pull (line : Nat) (errors : Array SyntaxError) {ahead : List Token}
    (h : ∃ token ∈ ahead, token.kind = .eof) :
    ∃ token ∈ (pull line errors ahead).1 :: (pull line errors ahead).2.1, token.kind = .eof := by
  induction ahead generalizing errors with
  | nil => simp at h
  | cons token ahead ih =>
    obtain ⟨last, hl, hk⟩ := h
    rw [pull]
    split
    · next cause hc =>
      rcases List.mem_cons.1 hl with rfl | hl
      · rw [hc] at hk
        exact absurd hk (by simp)
      · exact ih _ ⟨last, hl, hk⟩
    · exact ⟨last, hl, hk⟩

theorem Later.refl (s : State) : Later s s := ⟨Nat.le_refl _, Nat.le_refl _, rfl, id⟩

theorem Later.trans {s t u : State} (h : Later s t) (h' : Later t u) : Later s u where
  size_errors_le := Nat.le_trans h.size_errors_le h'.size_errors_le
  length_remaining_le := Nat.le_trans h'.length_remaining_le h.length_remaining_le
  functionDepth_eq := h'.functionDepth_eq.trans h.functionDepth_eq
  hasEnd := h'.hasEnd ∘ h.hasEnd

/-- Taking a token may record the unreadable ones behind it. -/
theorem later_advanced (s : State) : Later s s.advanced := by
  by_cases h : s.current.kind = .eof
  · rw [State.advanced_of_atEnd h]
    exact .refl s
  · rw [State.advanced_of_ne_eof h]
    refine ⟨State.size_errors_le_pull _ _ _, Nat.succ_le_succ (State.length_pull_le _ _ _), rfl, ?_⟩
    rintro ⟨last, hl, hk⟩
    rcases List.mem_cons.1 hl with rfl | hl
    · exact absurd hk h
    · exact State.exists_eof_pull _ _ ⟨last, hl, hk⟩

/-- Recording an error leaves the tokens alone. -/
theorem later_record (s : State) (e : SyntaxError) : Later s (s.record e) where
  size_errors_le := by simp [State.record]
  length_remaining_le := Nat.le_refl _
  functionDepth_eq := rfl
  hasEnd := id

/-- `Later` holds across every step, and so across every run of a rule. -/
theorem stepClosed_later : StepClosed Later where
  refl := Later.refl
  trans := Later.trans
  advanced := later_advanced
  record s _ _ := later_record s _
  nested _ h := ⟨h.size_errors_le, h.length_remaining_le, h.functionDepth_eq, h.hasEnd⟩

/-- Functions are left as they are entered, and a misplaced `return` only adds an error. -/
theorem functionClosed_later : FunctionClosed Later where
  returned s _ _ := (later_advanced s).trans (later_record s.advanced _)
  inFunction h :=
    ⟨h.size_errors_le, h.length_remaining_le, by simp [h.functionDepth_eq], h.hasEnd⟩

/-- A state from which phrases can be read: there is an end token, and `inside` tells whether the
    state is in the body of a function. -/
structure State.IsReady (inside : Bool) (s : State) : Prop where
  hasEnd : s.HasEnd
  inside_eq : (s.functionDepth != 0) = inside

/-- Phrases can be read from where a run has ended. -/
theorem Later.isReady {s t : State} (h : Later s t) (hs : s.IsReady inside) :
    t.IsReady inside where
  hasEnd := h.hasEnd hs.hasEnd
  inside_eq := by rw [h.functionDepth_eq, hs.inside_eq]

/-- Taking a token without meeting an unreadable one takes that token only. -/
theorem remaining_eq_cons_advanced {s : State} (hs : s.HasEnd) (hk : s.current.kind ≠ .eof)
    (he : s.advanced.errors.size ≤ s.errors.size) :
    s.remaining = s.current :: s.advanced.remaining := by
  obtain ⟨last, hl, hlast⟩ := hs
  rw [State.remaining, List.mem_cons] at hl
  rcases hl with rfl | hl
  · exact absurd hlast hk
  rw [State.advanced_of_ne_eof hk] at he ⊢
  -- The token behind the current one is looked for among those ahead.
  cases ha : s.ahead with
  | nil =>
    rw [ha] at hl
    simp at hl
  | cons next ahead =>
    by_cases hn : next.kind.IsKnown
    · simp only [State.remaining, ha, State.pull_of_isKnown hn]
    · -- An unreadable token would have been recorded.
      obtain ⟨cause, hc⟩ : ∃ cause, next.kind = .invalid cause := by
        simpa [Token.Kind.IsKnown] using hn
      simp only [ha, State.pull_of_invalid hc] at he
      have hpush : (s.errors.push ⟨next, .lexical cause⟩).size = s.errors.size + 1 :=
        Array.size_push _
      have := State.size_errors_le_pull s.current.line
        (s.errors.push ⟨next, .lexical cause⟩) ahead
      omega

/-- A rule reads phrases of a language: its runs keep what every run keeps, and one that succeeds
    without recording an error has taken a phrase and returns its tree. -/
structure Reads (inside : Bool) (r : Rule α) (L : Language α) : Prop where
  respects : Respects Later r
  sound {s t : State} {a : α} : s.IsReady inside → r s = .ok a t →
    t.errors.size ≤ s.errors.size → L s.remaining a t.remaining

/-- A successful run of such a rule is a run like any other. -/
theorem Reads.later {r : Rule α} {L : Language α} (hr : Reads inside r L) {s t : State} {a : α}
    (h : r s = .ok a t) : Later s t := hr.respects.of_ok h

/-- A single token of a given kind. -/
theorem take_eq {s : State} {kind : Token.Kind} (hs : s.IsReady inside)
    (hk : s.current.kind = kind) (hne : kind ≠ .eof)
    (he : s.advanced.errors.size ≤ s.errors.size) :
    s.remaining = s.current :: s.advanced.remaining ∧ s.advanced.IsReady inside :=
  ⟨remaining_eq_cons_advanced hs.hasEnd (hk ▸ hne) he, (later_advanced s).isReady hs⟩

/-! ### Lists -/

/-- A list of items that has been read with `count` items in front of it. The tokens bound the
    number of turns, so the list does not end because the bound is used up. -/
theorem sound_separatedFrom {item : Rule α} {Item : Language α} (hi : Reads inside item Item)
    {tooMany : SyntaxError.Cause} (ht : tooMany.IsLocal) {bound : List Token} {count : Nat}
    {s t : State} {as : List α} (hb : s.remaining.length ≤ bound.length)
    (hs : s.IsReady inside) (h : separatedFrom item tooMany bound count s = .ok as t)
    (he : t.errors.size ≤ s.errors.size) :
    Separated Item s.remaining as t.remaining ∧ count + as.length ≤ maxArguments := by
  -- The induction is on the bound, which always exceeds the tokens to be read.
  induction bound generalizing count s as with
  | nil => simp [State.remaining] at hb
  | cons _ bound ih =>
    obtain ⟨first, s₁, hfirst, h⟩ := separatedFrom_cons_eq_ok.1 h
    have l₁ := hi.later hfirst
    have l₁₃ : Later s₁ t := by
      rcases h with ⟨-, rest, hrest, rfl⟩ | ⟨-, rfl, rfl⟩
      · exact (later_advanced s₁).trans <|
          (respects_separatedFrom stepClosed_later hi.respects ht bound (count + 1)).of_ok hrest
      · exact .refl s₁
    have hcount : ¬ maxArguments ≤ count := by
      -- An item too many would have been recorded.
      intro hcount
      rw [if_pos hcount] at l₁
      have := l₁.size_errors_le
      have := l₁₃.size_errors_le
      simp only [State.record, Array.size_push] at *
      omega
    rw [if_neg hcount] at hfirst l₁
    -- No part of the run has added an error, since the run as a whole has not.
    have e₁ := l₁.size_errors_le
    have e₁₃ := l₁₃.size_errors_le
    have hitem := hi.sound hs hfirst (by omega)
    rcases h with ⟨hcomma, rest, hrest, rfl⟩ | ⟨-, rfl, rfl⟩
    · have e₂ := (later_advanced s₁).size_errors_le
      have e₃ := ((respects_separatedFrom stepClosed_later hi.respects ht bound
        (count + 1)).of_ok hrest).size_errors_le
      obtain ⟨htake, hs₂⟩ := take_eq (l₁.isReady hs) hcomma (by decide) (by omega)
      have hlen := l₁.length_remaining_le
      rw [htake, List.length_cons] at hlen
      rw [List.length_cons] at hb
      obtain ⟨hrest, hcount⟩ := ih (by omega) hs₂ hrest (by omega)
      rw [htake] at hitem
      exact ⟨.cons hitem hcomma hrest, by rw [List.length_cons]; omega⟩
    · exact ⟨.last hitem, by rw [List.length_singleton]; omega⟩

/-- A list may be empty, and then it stands in front of a parenthesis. -/
theorem reads_separated {item : Rule α} {Item : Language α} (hi : Reads inside item Item)
    {tooMany : SyntaxError.Cause} (ht : tooMany.IsLocal) :
    Reads inside (separated item tooMany) (Listed Item) where
  respects := respects_separated stepClosed_later hi.respects ht
  sound {s t as} hs h he := by
    rw [separated] at h
    rcases sees_bind_eq_ok.1 h with ⟨-, h⟩ | ⟨-, h⟩
    · obtain ⟨rfl, rfl⟩ := pure_eq_ok.1 h
      exact .none _
    · rw [if_neg Bool.false_ne_true, get_bind] at h
      obtain ⟨hitems, hlen⟩ := sound_separatedFrom hi ht (Nat.le_refl _) hs h he
      exact .some hitems (by omega)

/-! ### Expressions -/

section

variable {expression operand inner : Rule Expr} {Expression Operand Inner : Language Expr}

/-- A chain that has been read up to here is continued by what is read from here on. -/
theorem sound_chainFrom {isOperator : Token.Kind → Bool} {join : Expr → Token → Expr → Expr}
    (hop : isOperator .eof = false) (ho : Reads inside operand Operand) {bound tokens : List Token}
    {left e : Expr} {s t : State} (hs : s.IsReady inside)
    (hleft : Chain isOperator join Operand tokens left s.remaining)
    (h : chainFrom isOperator join operand bound left s = .ok e t)
    (he : t.errors.size ≤ s.errors.size) :
    Chain isOperator join Operand tokens e t.remaining := by
  induction bound generalizing left s with
  | nil =>
    obtain ⟨rfl, rfl⟩ := pure_eq_ok.1 h
    exact hleft
  | cons _ bound ih =>
    rw [chainFrom, current_bind] at h
    split at h
    · next hk =>
      rw [advance_bind] at h
      obtain ⟨right, s₂, hright, h⟩ := bind_eq_ok.1 h
      have e₁ := (later_advanced s).size_errors_le
      have e₂ := (ho.later hright).size_errors_le
      have e₃ := ((respects_chainFrom stepClosed_later ho.respects bound
        (join left s.current right)).of_ok h).size_errors_le
      -- The end token is no operator, so there is a token to be taken.
      have hne : s.current.kind ≠ .eof := by
        intro heof
        rw [heof, hop] at hk
        exact absurd hk (by decide)
      obtain ⟨htake, hs₁⟩ := take_eq hs rfl hne (by omega)
      rw [htake] at hleft
      have hchain := hleft.operator hk (ho.sound hs₁ hright (by omega))
      exact ih ((ho.later hright).isReady hs₁) hchain h (by omega)
    · obtain ⟨rfl, rfl⟩ := pure_eq_ok.1 h
      exact hleft

/-- The first operand is a chain, and `sound_chainFrom` continues it. -/
theorem reads_chain {isOperator : Token.Kind → Bool} {join : Expr → Token → Expr → Expr}
    (hop : isOperator .eof = false) (ho : Reads inside operand Operand) :
    Reads inside (chain isOperator join operand) (Chain isOperator join Operand) where
  respects := respects_chain stepClosed_later ho.respects
  sound {s t e} hs h he := by
    rw [chain] at h
    obtain ⟨first, s₁, hfirst, h⟩ := bind_eq_ok.1 h
    rw [get_bind] at h
    have e₁ := (ho.later hfirst).size_errors_le
    have e₂ := ((respects_chainFrom stepClosed_later ho.respects _ first).of_ok h).size_errors_le
    have hchain : Chain isOperator join Operand s.remaining first s₁.remaining :=
      .operand (ho.sound hs hfirst (by omega))
    exact sound_chainFrom hop ho ((ho.later hfirst).isReady hs) hchain h (by omega)

/-- The levels from `*` up to `or` are six chains, one around the other. -/
theorem reads_disjunction (ho : Reads inside operand Operand) :
    Reads inside (disjunction operand) (Disjunction Operand) := by
  -- From the operators that bind most tightly outwards.
  have h₁ : Reads inside (product operand) (Product Operand) := reads_chain rfl ho
  have h₂ : Reads inside (sum operand) (Sum Operand) := reads_chain rfl h₁
  have h₃ : Reads inside (comparison operand) (Comparison Operand) := reads_chain rfl h₂
  have h₄ : Reads inside (equality operand) (Equality Operand) := reads_chain rfl h₃
  have h₅ : Reads inside (conjunction operand) (Conjunction Operand) := reads_chain (by decide) h₄
  exact reads_chain (by decide) h₅

/-- An assignment has a name in front of the `=`, or else its target is objected to. -/
theorem reads_assignment (he : Reads inside expression Expression)
    (ho : Reads inside operand Operand) (hnames : NamesAreTokens Operand) :
    Reads inside (assignment expression operand) (Assignment Expression Operand) where
  respects := respects_assignment stepClosed_later he.respects ho.respects
  sound {s t e} hs h herr := by
    have hd := reads_disjunction ho
    rw [assignment] at h
    obtain ⟨target, s₁, htarget, h⟩ := bind_eq_ok.1 h
    have l₁ := hd.later htarget
    have e₁ := l₁.size_errors_le
    rcases sees_bind_eq_ok.1 h with ⟨hequal, h⟩ | ⟨-, h⟩
    · have e₂ := (later_advanced s₁).size_errors_le
      rw [if_pos rfl] at h
      split at h
      · next name =>
        rw [advance_bind] at h
        obtain ⟨value, s₂, hvalue, h⟩ := bind_eq_ok.1 h
        obtain ⟨rfl, rfl⟩ := pure_eq_ok.1 h
        have e₃ := (he.later hvalue).size_errors_le
        obtain ⟨htake, hs₁⟩ := take_eq (l₁.isReady hs) hequal (by decide) (by omega)
        -- A target that is a name was read from the token of that name alone.
        obtain ⟨hname, htokens⟩ := hnames.disjunction (hd.sound hs htarget (by omega))
        rw [htokens, htake]
        exact .assign hname hequal (he.sound hs₁ hvalue (by omega))
      · -- The target was objected to.
        rw [current_bind, note_bind, advance_bind] at h
        obtain ⟨_, s₂, hvalue, h⟩ := bind_eq_ok.1 h
        obtain ⟨rfl, rfl⟩ := pure_eq_ok.1 h
        have e₂ := (later_advanced
          (s₁.record ⟨s₁.current, .invalidAssignmentTarget⟩)).size_errors_le
        have e₃ := (he.later hvalue).size_errors_le
        simp only [State.record, Array.size_push] at e₂ e₃
        omega
    · obtain ⟨rfl, rfl⟩ := pure_eq_ok.1 h
      exact .disjunction (hd.sound hs htarget herr)

/-- A primary expression is a single token or an expression in parentheses. -/
theorem reads_primary (he : Reads inside expression Expression) :
    Reads inside (primary expression) (Primary Expression) where
  respects := respects_primary stepClosed_later he.respects
  sound {s t e} hs h herr := by
    -- The constants are single tokens.
    have hconstant {c : Constant} {kind : Token.Kind} (hk : s.current.kind = kind)
        (hne : kind ≠ .eof) (h : primary.constant c s = .ok e t) :
        s.remaining = s.current :: t.remaining ∧ e = .constant c := by
      obtain ⟨rfl, rfl⟩ := pure_eq_ok.1 h
      exact ⟨(take_eq hs hk hne herr).1, rfl⟩
    rw [primary, current_bind] at h
    generalize hk : s.current.kind = kind at h
    -- The cases are those of the rule: three constants, numbers, strings, names, groups and
    -- anything else, which fails.
    split at h
    · obtain ⟨htake, rfl⟩ := hconstant hk (by decide) h
      exact htake ▸ .falsehood _ hk
    · obtain ⟨htake, rfl⟩ := hconstant hk (by decide) h
      exact htake ▸ .truth _ hk
    · obtain ⟨htake, rfl⟩ := hconstant hk (by decide) h
      exact htake ▸ .nil _ hk
    · cases hvalue : s.current.literal with
      | some value =>
        rw [hvalue] at h
        obtain ⟨htake, rfl⟩ := hconstant hk (by decide) h
        exact htake ▸ .literal _ (.inl hk) hvalue
      | none =>
        rw [hvalue] at h
        exact absurd h (by simp)
    · cases hvalue : s.current.literal with
      | some value =>
        rw [hvalue] at h
        obtain ⟨htake, rfl⟩ := hconstant hk (by decide) h
        exact htake ▸ .literal _ (.inr hk) hvalue
      | none =>
        rw [hvalue] at h
        exact absurd h (by simp)
    · rw [advance_bind] at h
      obtain ⟨rfl, rfl⟩ := pure_eq_ok.1 h
      obtain ⟨htake, -⟩ := take_eq hs hk (by decide) herr
      exact htake ▸ .name _ hk
    · rw [advance_bind] at h
      obtain ⟨e', s₂, hinner, h⟩ := bind_eq_ok.1 h
      obtain ⟨hclose, h⟩ := expect_bind_eq_ok.1 h
      obtain ⟨rfl, rfl⟩ := pure_eq_ok.1 h
      have l₂ := he.later hinner
      have e₁ := (later_advanced s).size_errors_le
      have e₂ := l₂.size_errors_le
      have e₃ := (later_advanced s₂).size_errors_le
      obtain ⟨htake₁, hs₁⟩ := take_eq hs hk (by decide) (by omega)
      obtain ⟨htake₂, -⟩ := take_eq (l₂.isReady hs₁) hclose (by decide) (by omega)
      have hgroup := he.sound hs₁ hinner (by omega)
      rw [htake₂] at hgroup
      exact htake₁ ▸ .group hk hgroup hclose
    · exact absurd h (by simp)

/-- Calls that have been read up to here are continued by those that are read from here on. -/
theorem sound_callsFrom (he : Reads inside expression Expression) {bound tokens : List Token}
    {callee e : Expr} {s t : State} (hs : s.IsReady inside)
    (hcallee : Calls Expression tokens callee s.remaining)
    (h : callsFrom expression bound callee s = .ok e t)
    (herr : t.errors.size ≤ s.errors.size) : Calls Expression tokens e t.remaining := by
  induction bound generalizing callee s with
  | nil =>
    obtain ⟨rfl, rfl⟩ := pure_eq_ok.1 h
    exact hcallee
  | cons _ bound ih =>
    rw [callsFrom] at h
    rcases accept_bind_eq_ok.1 h with ⟨hopen, h⟩ | ⟨-, h⟩
    · rw [if_pos rfl] at h
      obtain ⟨arguments, s₂, harguments, h⟩ := bind_eq_ok.1 h
      obtain ⟨hclose, h⟩ := expect_bind_eq_ok.1 h
      have hlist : Reads inside (separated expression .tooManyArguments) (Listed Expression) :=
        reads_separated he trivial
      have l₂ := hlist.later harguments
      have e₁ := (later_advanced s).size_errors_le
      have e₂ := l₂.size_errors_le
      have e₃ := (later_advanced s₂).size_errors_le
      have e₄ := ((respects_callsFrom stepClosed_later he.respects bound
        (.call callee s₂.current arguments)).of_ok h).size_errors_le
      -- Neither parenthesis has an unreadable token behind it, so each is taken alone.
      obtain ⟨htake₁, hs₁⟩ := take_eq hs hopen (by decide) (by omega)
      obtain ⟨htake₂, hs₃⟩ := take_eq (l₂.isReady hs₁) hclose (by decide) (by omega)
      have hlisted := hlist.sound hs₁ harguments (by omega)
      rw [htake₁] at hcallee
      rw [htake₂] at hlisted
      exact ih hs₃ (.call hcallee hopen hlisted hclose) h (by omega)
    · obtain ⟨rfl, rfl⟩ := pure_eq_ok.1 h
      exact hcallee

/-- The callee is a primary expression, and `sound_callsFrom` continues it. -/
theorem reads_calls (he : Reads inside expression Expression) :
    Reads inside (calls expression) (Calls Expression) where
  respects := respects_calls stepClosed_later he.respects
  sound {s t e} hs h herr := by
    have hp := reads_primary he
    rw [calls] at h
    obtain ⟨callee, s₁, hcallee, h⟩ := bind_eq_ok.1 h
    rw [get_bind] at h
    have e₁ := (hp.later hcallee).size_errors_le
    have e₂ := ((respects_callsFrom stepClosed_later he.respects _ callee).of_ok h).size_errors_le
    exact sound_callsFrom he ((hp.later hcallee).isReady hs)
      (.primary (hp.sound hs hcallee (by omega))) h (by omega)

/-- An operator and what it is applied to, or else an operand. -/
theorem reads_unaryOr (hi : Reads inside inner Inner) (ho : Reads inside operand Operand) :
    Reads inside (unaryOr inner operand) (UnaryOr Inner Operand) where
  respects := respects_unaryOr stepClosed_later hi.respects ho.respects
  sound {s t e} hs h herr := by
    rw [unaryOr, current_bind] at h
    split at h
    · next hk =>
      rw [advance_bind] at h
      obtain ⟨e', s₂, hinner, h⟩ := bind_eq_ok.1 h
      obtain ⟨rfl, rfl⟩ := pure_eq_ok.1 h
      have e₁ := (later_advanced s).size_errors_le
      have e₂ := (hi.later hinner).size_errors_le
      -- The end of the text is no operator.
      have hne : s.current.kind ≠ .eof := by
        intro heof
        rw [heof] at hk
        exact absurd hk (by decide)
      obtain ⟨htake, hs₁⟩ := take_eq hs rfl hne (by omega)
      exact htake ▸ .operator hk (hi.sound hs₁ hinner (by omega))
    · exact .operand (ho.sound hs h herr)

/-- Going one level deeper leaves the tokens alone. -/
theorem reads_nested {α : Type} {rule : Rule α} {L : Language α} (h : Reads inside rule L) :
    Reads inside (nested rule) L where
  respects := respects_nested stepClosed_later h.respects
  sound {s t a} hs hr herr := by
    obtain ⟨-, u, hu, rfl⟩ := nested_eq_ok.1 hr
    have hs' : State.IsReady inside { s with nesting := s.nesting + 1 } :=
      ⟨hs.hasEnd, hs.inside_eq⟩
    have hread := h.sound hs' hu herr
    exact hread

/-- A rule that always fails reads no phrases. -/
theorem reads_failHere {α : Type} {cause : SyntaxError.Cause} (hc : cause.IsLocal) :
    Reads inside (failHere cause : Rule α) .none where
  respects := respects_failHere stepClosed_later hc
  sound _ h _ := absurd h (by simp)

/-- Both rules for expressions read phrases at every level of nesting. -/
theorem reads_expression_unary (free : Nat) :
    Reads inside (Grammar.expression free) (Grammar.Expression free) ∧
      Reads inside (unary free) (Unary free) := by
  have hfail : Reads inside (failHere .tooMuchNesting : Rule Expr) .none := reads_failHere trivial
  -- The induction is on the levels left, as in the definition of rules and languages.
  induction free with
  | zero => exact ⟨hfail, reads_unaryOr hfail (reads_calls hfail)⟩
  | succ free ih =>
    have he : Reads inside (Grammar.expression (free + 1)) (Grammar.Expression (free + 1)) :=
      reads_nested (reads_assignment ih.1 ih.2 (namesAreTokens_unary free))
    exact ⟨he, reads_unaryOr (reads_nested ih.2) (reads_calls he)⟩

/-- What the rule for expressions reads is an expression. -/
theorem reads_expression (free : Nat) :
    Reads inside (Grammar.expression free) (Grammar.Expression free) :=
  (reads_expression_unary free).1

end

/-! ### Declarations -/

section

variable {expression : Rule Expr} {statement : Rule (Stmt Unit)}
  {block body : Rule (List (Stmt Unit))} {Expression : Language Expr}
  {Statement : Language (Stmt Unit)} {Block Body : Language (List (Stmt Unit))}

/-- A variable is initialized, or it stands alone in front of the semicolon. -/
theorem reads_variableDeclaration (he : Reads inside expression Expression) :
    Reads inside (variableDeclaration expression) (VariableDeclaration Expression) where
  respects := respects_variableDeclaration stepClosed_later he.respects
  sound {s t a} hs h herr := by
    rw [variableDeclaration] at h
    obtain ⟨hname, h⟩ := expect_bind_eq_ok.1 h
    have e₁ := (later_advanced s).size_errors_le
    have e₂ := (later_advanced s.advanced).size_errors_le
    -- In both cases no error is recorded, so each token that is taken is the next one.
    rcases accept_bind_eq_ok.1 h with ⟨hequal, h⟩ | ⟨-, h⟩
    · obtain ⟨value, s₃, hvalue, h⟩ := bind_eq_ok.1 h
      obtain ⟨hend, h⟩ := expect_bind_eq_ok.1 h
      obtain ⟨rfl, rfl⟩ := pure_eq_ok.1 h
      have l₃ := he.later hvalue
      have e₃ := l₃.size_errors_le
      have e₄ := (later_advanced s₃).size_errors_le
      obtain ⟨htake₁, hs₁⟩ := take_eq hs hname (by decide) (by omega)
      obtain ⟨htake₂, hs₂⟩ := take_eq hs₁ hequal (by decide) (by omega)
      obtain ⟨htake₃, -⟩ := take_eq (l₃.isReady hs₂) hend (by decide) (by omega)
      have hinitializer := he.sound hs₂ hvalue (by omega)
      rw [htake₃] at hinitializer
      rw [htake₁, htake₂]
      exact .initialized hname hequal hinitializer hend
    · obtain ⟨value, s₂, hnil, h⟩ := bind_eq_ok.1 h
      obtain ⟨rfl, rfl⟩ := pure_eq_ok.1 hnil
      obtain ⟨hend, h⟩ := expect_bind_eq_ok.1 h
      obtain ⟨rfl, rfl⟩ := pure_eq_ok.1 h
      obtain ⟨htake₁, hs₁⟩ := take_eq hs hname (by decide) (by omega)
      obtain ⟨htake₂, -⟩ := take_eq hs₁ hend (by decide) (by omega)
      rw [htake₁, htake₂]
      exact .bare _ hname hend

/-- The name of a parameter is a single token. -/
theorem reads_expect_identifier {missing : SyntaxError.Cause} (hm : missing.IsLocal) :
    Reads inside (expect .identifier missing) Name where
  respects := respects_expect stepClosed_later _ hm
  sound {s t name} hs h herr := by
    rw [← bind_pure (expect .identifier missing)] at h
    obtain ⟨hk, h⟩ := expect_bind_eq_ok.1 h
    obtain ⟨rfl, rfl⟩ := pure_eq_ok.1 h
    obtain ⟨htake, -⟩ := take_eq hs hk (by decide) herr
    exact htake ▸ .name _ hk

/-- The body of a function is read as one that stands in a function, wherever the function
    stands. -/
theorem reads_inFunction {α : Type} {rule : Rule α} {L : Language α} (h : Reads true rule L) :
    Reads inside (inFunction rule) L where
  respects := respects_inFunction functionClosed_later h.respects
  sound {s t a} hs hr herr := by
    obtain ⟨u, hu, rfl⟩ := inFunction_eq_ok.1 hr
    have hs' : State.IsReady true { s with functionDepth := s.functionDepth + 1 } :=
      ⟨hs.hasEnd, by simp⟩
    have hread := h.sound hs' hu herr
    exact hread

/-- The tokens between name and body are taken one by one, and the parameters as a list. -/
theorem reads_functionDeclaration (hb : Reads true block Body) :
    Reads inside (functionDeclaration block) (FunctionDeclaration Body) where
  respects := respects_functionDeclaration stepClosed_later functionClosed_later hb.respects
  sound {s t a} hs h herr := by
    have hparameter : Reads inside (expect .identifier .missingParameterName) Name :=
      reads_expect_identifier trivial
    have hp : Reads inside (separated (expect .identifier .missingParameterName) .tooManyParameters)
        (Listed Name) := reads_separated hparameter trivial
    have hbody : Reads inside (inFunction block) Body := reads_inFunction hb
    rw [functionDeclaration] at h
    obtain ⟨hname, h⟩ := expect_bind_eq_ok.1 h
    obtain ⟨hopen, h⟩ := expect_bind_eq_ok.1 h
    obtain ⟨parameters, s₃, hparameters, h⟩ := bind_eq_ok.1 h
    obtain ⟨hclose, h⟩ := expect_bind_eq_ok.1 h
    obtain ⟨hbrace, h⟩ := expect_bind_eq_ok.1 h
    obtain ⟨body, s₆, hrun, h⟩ := bind_eq_ok.1 h
    obtain ⟨rfl, rfl⟩ := pure_eq_ok.1 h
    -- The parts of the run, none of which has added an error.
    have l₃ := hp.later hparameters
    have e₁ := (later_advanced s).size_errors_le
    have e₂ := (later_advanced s.advanced).size_errors_le
    have e₃ := l₃.size_errors_le
    have e₄ := (later_advanced s₃).size_errors_le
    have e₅ := (later_advanced s₃.advanced).size_errors_le
    have e₆ := (hbody.later hrun).size_errors_le
    obtain ⟨htake₁, hs₁⟩ := take_eq hs hname (by decide) (by omega)
    obtain ⟨htake₂, hs₂⟩ := take_eq hs₁ hopen (by decide) (by omega)
    obtain ⟨htake₄, hs₄⟩ := take_eq (l₃.isReady hs₂) hclose (by decide) (by omega)
    obtain ⟨htake₅, hs₅⟩ := take_eq hs₄ hbrace (by decide) (by omega)
    have hlist := hp.sound hs₂ hparameters (by omega)
    rw [htake₄, htake₅] at hlist
    rw [htake₁, htake₂]
    exact .function hname hopen hlist hclose hbrace (hbody.sound hs₅ hrun (by omega))

/-- A rule that recovers without recording an error has not failed. -/
theorem recovering_eq_some {α : Type} {r : Rule α} (hr : Respects Later r) {s t : State}
    {a : Option α} (h : recovering r s = (a, t)) (herr : t.errors.size ≤ s.errors.size) :
    ∃ b, a = some b ∧ r s = .ok b t := by
  unfold recovering at h
  -- A failure would have been recorded, and recovery takes no errors back.
  cases hrun : r s with
  | ok b u =>
    rw [hrun] at h
    obtain ⟨rfl, rfl⟩ := Prod.mk.inj h
    exact ⟨b, rfl, rfl⟩
  | error e u =>
    rw [hrun] at h
    obtain ⟨-, rfl⟩ := Prod.mk.inj h
    have e₁ := (hr.of_error hrun).1.size_errors_le
    have e₂ := (rel_synchronized stepClosed_later (u.record e)).size_errors_le
    have e₃ : (u.record e).errors.size = u.errors.size + 1 := Array.size_push _
    omega

/-- A rule that never fails reads phrases of a language: if it records no error, it yields the tree
    of the phrase that it has taken. -/
structure ReadsAlways (inside : Bool) (d : State → Option (Stmt Unit) × State)
    (L : Language (Stmt Unit)) : Prop where
  later (s : State) : Later s (d s).2
  sound {s t : State} {a : Option (Stmt Unit)} : s.IsReady inside → d s = (a, t) →
    t.errors.size ≤ s.errors.size → ∃ b, a = some b ∧ L s.remaining b t.remaining

/-- A declaration goes by the keyword in front of it, which is put back here. -/
theorem readsAlways_declaration (he : Reads inside expression Expression)
    (hs : Reads inside statement Statement) (hb : Reads true block Body) :
    ReadsAlways inside (declaration expression statement block)
      (AnyDeclaration Expression Statement Body) where
  later := rel_declaration stepClosed_later functionClosed_later he.respects hs.respects hb.respects
  sound {s t a} hready h herr := by
    have hv := reads_variableDeclaration he
    have hf : Reads inside (functionDeclaration block) (FunctionDeclaration Body) :=
      reads_functionDeclaration hb
    -- A declaration without errors was not recovered from.
    obtain ⟨b, rfl, hrun⟩ := recovering_eq_some
      (respects_anyDeclaration stepClosed_later functionClosed_later he.respects hs.respects
        hb.respects) h herr
    refine ⟨b, rfl, ?_⟩
    rw [current_bind] at hrun
    generalize hk : s.current.kind = kind at hrun
    split at hrun
    · rw [advance_bind] at hrun
      have e₁ := (later_advanced s).size_errors_le
      have e₂ := (hv.later hrun).size_errors_le
      obtain ⟨htake, hs₁⟩ := take_eq hready hk (by decide) (by omega)
      exact htake ▸ .variable hk (hv.sound hs₁ hrun (by omega))
    · rw [advance_bind] at hrun
      have e₁ := (later_advanced s).size_errors_le
      have e₂ := (hf.later hrun).size_errors_le
      obtain ⟨htake, hs₁⟩ := take_eq hready hk (by decide) (by omega)
      exact htake ▸ .function hk (hf.sound hs₁ hrun (by omega))
    · exact .statement (hs.sound hready hrun herr)

/-- Declarations read without an error. As each of them takes a token, the list does not end
    because the bound is used up. -/
theorem sound_declarationsFrom {d : State → Option (Stmt Unit) × State}
    {Declaration : Language (Stmt Unit)} {p : Token.Kind → Bool}
    (hd : ReadsAlways inside d Declaration) (hp : Opens p Declaration)
    {closes : Token.Kind → Bool} {bound : List Token} {s t : State} {body : List (Stmt Unit)}
    (hb : s.remaining.length ≤ bound.length) (hs : s.IsReady inside)
    (h : declarations d closes bound s = (body, t)) (herr : t.errors.size ≤ s.errors.size) :
    Repeated Declaration s.remaining body t.remaining ∧
      (t.current.kind = .eof ∨ closes t.current.kind = true) := by
  -- As for lists, the bound exceeds the tokens to be read.
  induction bound generalizing s body with
  | nil => simp [State.remaining] at hb
  | cons _ bound ih =>
    rw [declarations] at h
    split at h
    · next hend =>
      obtain ⟨rfl, rfl⟩ := Prod.mk.inj h
      refine ⟨.nil _, ?_⟩
      rwa [Bool.or_eq_true, State.atEnd_eq_true] at hend
    · cases hfirst : d s with
      | mk first s₁ =>
        cases hrest : declarations d closes bound s₁ with
        | mk rest s₂ =>
          simp only [hfirst, hrest] at h
          obtain ⟨rfl, rfl⟩ := Prod.mk.inj h
          have l₁ : Later s s₁ := by
            have := hd.later s
            rwa [hfirst] at this
          have l₂ : Later s₁ s₂ := by
            have := rel_declarations_of_rel stepClosed_later hd.later closes bound s₁
            rwa [hrest] at this
          have e₁ := l₁.size_errors_le
          have e₂ := l₂.size_errors_le
          obtain ⟨a, rfl, ha⟩ := hd.sound hs hfirst (by omega)
          have hlen := hp.length_lt ha
          rw [List.length_cons] at hb
          obtain ⟨hrepeated, hend⟩ := ih (by omega) (l₁.isReady hs) hrest (by omega)
          exact ⟨.cons ha hrepeated, hend⟩

/-- Declarations and the closing brace. -/
theorem reads_blockContents {d : State → Option (Stmt Unit) × State}
    {Declaration : Language (Stmt Unit)} {p : Token.Kind → Bool}
    (hd : ReadsAlways inside d Declaration) (hp : Opens p Declaration) :
    Reads inside (blockContents d) (BlockContents Declaration) where
  respects := respects_blockContents stepClosed_later hd.later
  sound {s t body} hs h herr := by
    rw [blockContents, get_bind] at h
    cases hrun : declarations d (· == .symbol .rightBrace) s.remaining s with
    | mk body' s₁ =>
      simp only [hrun, set_bind] at h
      -- Whatever the declarations were, the state behind them comes after the first one.
      have l₁ : Later s s₁ := by
        have := rel_declarations_of_rel stepClosed_later hd.later (· == .symbol .rightBrace)
          s.remaining s
        rwa [hrun] at this
      obtain ⟨hclose, h⟩ := expect_bind_eq_ok.1 h
      obtain ⟨rfl, rfl⟩ := pure_eq_ok.1 h
      have e₁ := l₁.size_errors_le
      have e₂ := (later_advanced s₁).size_errors_le
      obtain ⟨hbody, -⟩ := sound_declarationsFrom hd hp (Nat.le_refl _) hs hrun (by omega)
      obtain ⟨htake, -⟩ := take_eq (l₁.isReady hs) hclose (by decide) (by omega)
      rw [htake] at hbody
      exact .close hbody hclose

end

/-! ### Statements

The rule for a statement goes by the keyword in front of it and leaves the rest to a rule for what
follows the keyword. So what such a rule reads is a statement once the keyword is put back. -/

section

variable {expression : Rule Expr} {statement : Rule (Stmt Unit)}
  {block : Rule (List (Stmt Unit))} {Expression : Language Expr}
  {Statement : Language (Stmt Unit)} {Body : Language (List (Stmt Unit))}

/-- An expression and a semicolon. -/
theorem reads_expressionStatement (he : Reads inside expression Expression) :
    Reads inside (expressionStatement expression) (ExpressionStatement Expression) where
  respects := respects_expressionStatement stepClosed_later he.respects
  sound {s t a} hs h herr := by
    rw [expressionStatement] at h
    obtain ⟨value, s₁, hvalue, h⟩ := bind_eq_ok.1 h
    obtain ⟨hend, h⟩ := expect_bind_eq_ok.1 h
    obtain ⟨rfl, rfl⟩ := pure_eq_ok.1 h
    have l₁ := he.later hvalue
    have e₁ := l₁.size_errors_le
    have e₂ := (later_advanced s₁).size_errors_le
    have hread := he.sound hs hvalue (by omega)
    obtain ⟨htake, -⟩ := take_eq (l₁.isReady hs) hend (by decide) (by omega)
    rw [htake] at hread
    exact .expression hread hend

/-- A value and a semicolon, behind the keyword. -/
theorem reads_printStatement (he : Reads inside expression Expression) {keyword : Token}
    (hk : keyword.kind = Keyword.print_) :
    Reads inside (printStatement expression keyword)
      (fun tokens => AnyStatement inside Expression Statement Body (keyword :: tokens)) where
  respects := respects_printStatement stepClosed_later he.respects keyword
  sound {s t a} hs h herr := by
    rw [printStatement] at h
    obtain ⟨value, s₁, hvalue, h⟩ := bind_eq_ok.1 h
    obtain ⟨hend, h⟩ := expect_bind_eq_ok.1 h
    obtain ⟨rfl, rfl⟩ := pure_eq_ok.1 h
    have l₁ := he.later hvalue
    have e₁ := l₁.size_errors_le
    have e₂ := (later_advanced s₁).size_errors_le
    have hread := he.sound hs hvalue (by omega)
    obtain ⟨htake, -⟩ := take_eq (l₁.isReady hs) hend (by decide) (by omega)
    rw [htake] at hread
    exact .print hk hread hend

/-- A condition in parentheses, which `if` and `while` share, and what follows it. -/
theorem sound_condition (he : Reads inside expression Expression) {α : Type}
    {missingOpen missingClose : SyntaxError.Cause} {f : Expr → Rule α} {s t : State} {a : α}
    (hs : s.IsReady inside)
    (h : (do
      let _ ← expect Symbol.leftParen missingOpen
      let condition ← expression
      let _ ← expect Symbol.rightParen missingClose
      f condition) s = .ok a t) :
    ∃ condition u, f condition u = .ok a t ∧ Later s u ∧
      (u.errors.size ≤ s.errors.size → ∃ opening tokens closing,
        s.remaining = opening :: tokens ∧ opening.kind = Symbol.leftParen ∧
          Expression tokens condition (closing :: u.remaining) ∧
          closing.kind = Symbol.rightParen) := by
  obtain ⟨hopen, h⟩ := expect_bind_eq_ok.1 h
  obtain ⟨condition, s₂, hcondition, h⟩ := bind_eq_ok.1 h
  obtain ⟨hclose, h⟩ := expect_bind_eq_ok.1 h
  have l₁ := later_advanced s
  have l₂ := he.later hcondition
  have l₃ := later_advanced s₂
  -- What follows has to be without errors before the phrase can be told.
  refine ⟨condition, s₂.advanced, h, (l₁.trans l₂).trans l₃, fun herr => ?_⟩
  have e₁ := l₁.size_errors_le
  have e₂ := l₂.size_errors_le
  have e₃ := l₃.size_errors_le
  obtain ⟨htake₁, hs₁⟩ := take_eq hs hopen (by decide) (by omega)
  obtain ⟨htake₂, -⟩ := take_eq (l₂.isReady hs₁) hclose (by decide) (by omega)
  have hread := he.sound hs₁ hcondition (by omega)
  rw [htake₂] at hread
  exact ⟨_, _, _, htake₁, hopen, hread, hclose⟩

/-- Where no `else` was taken there is none, as the phrase demands. -/
theorem reads_ifStatement (he : Reads inside expression Expression)
    (hs : Reads inside statement Statement) {keyword : Token} (hk : keyword.kind = Keyword.if_) :
    Reads inside (ifStatement expression statement)
      (fun tokens => AnyStatement inside Expression Statement Body (keyword :: tokens)) where
  respects := respects_ifStatement stepClosed_later he.respects hs.respects
  sound {s t a} hready h herr := by
    rw [ifStatement] at h
    obtain ⟨condition, s₁, h, l₁, hcondition⟩ := sound_condition he hready h
    obtain ⟨yes, s₂, hyes, h⟩ := bind_eq_ok.1 h
    have l₂ := hs.later hyes
    have e₁ := l₁.size_errors_le
    have e₂ := l₂.size_errors_le
    rcases accept_bind_eq_ok.1 h with ⟨helse, h⟩ | ⟨helse, h⟩
    · rw [if_pos rfl] at h
      obtain ⟨no, s₃, hno, h⟩ := bind_eq_ok.1 h
      obtain ⟨rfl, rfl⟩ := pure_eq_ok.1 h
      have e₃ := (later_advanced s₂).size_errors_le
      have e₄ := (hs.later hno).size_errors_le
      obtain ⟨opening, tokens, closing, htokens, hopen, hc, hclose⟩ := hcondition (by omega)
      obtain ⟨htake, hs₃⟩ :=
        take_eq (l₂.isReady (l₁.isReady hready)) helse (by decide) (by omega)
      have hread := hs.sound (l₁.isReady hready) hyes (by omega)
      rw [htake] at hread
      rw [htokens]
      exact .ifElse hk hopen hc hclose hread helse (hs.sound hs₃ hno (by omega))
    · rw [if_neg Bool.false_ne_true] at h
      obtain ⟨rfl, rfl⟩ := pure_eq_ok.1 h
      -- The token behind the branch was looked at and is no `else`.
      have hnoElse : NoElse s₂.remaining := by
        intro token htoken
        obtain rfl := Option.some.inj htoken
        exact helse
      obtain ⟨opening, tokens, closing, htokens, hopen, hc, hclose⟩ := hcondition (by omega)
      rw [htokens]
      exact .ifThen hk hopen hc hclose (hs.sound (l₁.isReady hready) hyes (by omega)) hnoElse

/-- A condition in parentheses and a body, behind the keyword. -/
theorem reads_whileStatement (he : Reads inside expression Expression)
    (hs : Reads inside statement Statement) {keyword : Token}
    (hk : keyword.kind = Keyword.while_) :
    Reads inside (whileStatement expression statement)
      (fun tokens => AnyStatement inside Expression Statement Body (keyword :: tokens)) where
  respects := respects_whileStatement stepClosed_later he.respects hs.respects
  sound {s t a} hready h herr := by
    rw [whileStatement] at h
    obtain ⟨condition, s₁, h, l₁, hcondition⟩ := sound_condition he hready h
    obtain ⟨body, s₂, hbody, h⟩ := bind_eq_ok.1 h
    obtain ⟨rfl, rfl⟩ := pure_eq_ok.1 h
    have e₁ := l₁.size_errors_le
    have e₂ := (hs.later hbody).size_errors_le
    -- Neither the body nor its semicolon has added an error, so the condition can be told.
    obtain ⟨opening, tokens, closing, htokens, hopen, hc, hclose⟩ := hcondition (by omega)
    rw [htokens]
    exact .while hk hopen hc hclose (hs.sound (l₁.isReady hready) hbody (by omega))

/-- A semicolon alone, a variable declaration or an expression statement. -/
theorem reads_forInitializer (he : Reads inside expression Expression) :
    Reads inside (forInitializer expression) (Initializer Expression) where
  respects := respects_forInitializer stepClosed_later he.respects
  sound {s t a} hs h herr := by
    have hv := reads_variableDeclaration he
    rw [forInitializer, current_bind] at h
    generalize hk : s.current.kind = kind at h
    split at h
    · rw [advance_bind] at h
      obtain ⟨rfl, rfl⟩ := pure_eq_ok.1 h
      obtain ⟨htake, -⟩ := take_eq hs hk (by decide) herr
      exact htake ▸ .none _ hk
    · rw [advance_bind] at h
      obtain ⟨v, s₁, hrun, h⟩ := bind_eq_ok.1 h
      obtain ⟨rfl, rfl⟩ := pure_eq_ok.1 h
      have e₁ := (later_advanced s).size_errors_le
      have e₂ := (hv.later hrun).size_errors_le
      obtain ⟨htake, hs₁⟩ := take_eq hs hk (by decide) (by omega)
      exact htake ▸ .variable hk (hv.sound hs₁ hrun (by omega))
    · obtain ⟨v, s₁, hrun, h⟩ := bind_eq_ok.1 h
      obtain ⟨rfl, rfl⟩ := pure_eq_ok.1 h
      exact .expression ((reads_expressionStatement he).sound hs hrun herr)

/-- An expression that may be missing in front of a token of a given kind, and what follows it:
    the condition and the step of a `for`, and the value of a `return`. -/
theorem sound_optional (he : Reads inside expression Expression) {α β : Type}
    {closing : Token.Kind} {rule : Rule α} {missing : α} {given : Expr → α} {f : α → Rule β}
    (hrule : ∀ {s t : State} {a : α}, rule s = .ok a t → ∃ e, expression s = .ok e t ∧ given e = a)
    {s t : State} {b : β} (hs : s.IsReady inside)
    (h : (sees closing >>= fun none => if none then pure missing >>= f else rule >>= f) s
      = .ok b t) :
    ∃ value u, f (value.elim missing given) u = .ok b t ∧ Later s u ∧
      (u.errors.size ≤ s.errors.size → Maybe Expression s.remaining value u.remaining) := by
  rcases sees_bind_eq_ok.1 h with ⟨-, h⟩ | ⟨-, h⟩
  · rw [if_pos rfl] at h
    exact ⟨none, s, h, .refl s, fun _ => .missing _⟩
  · rw [if_neg Bool.false_ne_true] at h
    obtain ⟨a, u, hrun, h⟩ := bind_eq_ok.1 h
    obtain ⟨e, hread, rfl⟩ := hrule hrun
    exact ⟨some e, u, h, he.later hread, fun herr => .given (he.sound hs hread herr)⟩

/-- An expression that is taken as it is. -/
theorem exists_id_eq {s t : State} {a : Expr} (h : expression s = .ok a t) :
    ∃ e, expression s = .ok e t ∧ id e = a :=
  ⟨a, h, rfl⟩

/-- The clauses of a loop, in the order in which they are read. -/
theorem reads_forStatement (he : Reads inside expression Expression)
    (hs : Reads inside statement Statement) {keyword : Token} (hk : keyword.kind = Keyword.for_) :
    Reads inside (forStatement expression statement)
      (fun tokens => AnyStatement inside Expression Statement Body (keyword :: tokens)) where
  respects := respects_forStatement stepClosed_later he.respects hs.respects
  sound {s t a} hready h herr := by
    have hi := reads_forInitializer he
    rw [forStatement] at h
    obtain ⟨hopen, h⟩ := expect_bind_eq_ok.1 h
    obtain ⟨initializer, s₂, hinitializer, h⟩ := bind_eq_ok.1 h
    have l₁ := later_advanced s
    have l₂ := hi.later hinitializer
    have r₂ := l₂.isReady (l₁.isReady hready)
    obtain ⟨condition, s₃, h, l₃, hcondition⟩ := sound_optional he exists_id_eq r₂ h
    obtain ⟨hsemicolon, h⟩ := expect_bind_eq_ok.1 h
    have l₄ := later_advanced s₃
    have r₄ := l₄.isReady (l₃.isReady r₂)
    obtain ⟨step, s₅, h, l₅, hstep⟩ := sound_optional he map_eq_ok.1 r₄ h
    obtain ⟨hclose, h⟩ := expect_bind_eq_ok.1 h
    obtain ⟨body, s₇, hbody, h⟩ := bind_eq_ok.1 h
    obtain ⟨rfl, rfl⟩ := pure_eq_ok.1 h
    have l₆ := later_advanced s₅
    have r₆ := l₆.isReady (l₅.isReady r₄)
    -- None of the parts has added an error, so each is a phrase.
    have e₁ := l₁.size_errors_le
    have e₂ := l₂.size_errors_le
    have e₃ := l₃.size_errors_le
    have e₄ := l₄.size_errors_le
    have e₅ := l₅.size_errors_le
    have e₆ := l₆.size_errors_le
    have e₇ := (hs.later hbody).size_errors_le
    obtain ⟨htake₁, r₁⟩ := take_eq hready hopen (by decide) (by omega)
    obtain ⟨htake₄, -⟩ := take_eq (l₃.isReady r₂) hsemicolon (by decide) (by omega)
    obtain ⟨htake₆, -⟩ := take_eq (l₅.isReady r₄) hclose (by decide) (by omega)
    have hc := hcondition (by omega)
    have hst := hstep (by omega)
    rw [htake₄] at hc
    rw [htake₆] at hst
    -- A condition that is left out stands for `true`, and a step that is left out for none.
    have hgetD : condition.elim (.constant (.bool true)) id =
        condition.getD (.constant (.bool true)) := by
      cases condition <;> rfl
    have hsome : step.elim none some = step := by
      cases step <;> rfl
    rw [htake₁, hgetD, hsome]
    exact .for hk hopen (hi.sound r₁ hinitializer (by omega)) hc hsemicolon hst hclose
      (hs.sound r₆ hbody (by omega))

/-- What follows a `return`. Outside of functions, the statement is objected to. -/
theorem reads_returnStatement (he : Reads inside expression Expression) {keyword : Token}
    (hk : keyword.kind = Keyword.return_) :
    Reads inside (returnStatement expression keyword)
      (fun tokens => AnyStatement inside Expression Statement Body (keyword :: tokens)) where
  respects := by
    intro s
    have hrest := respects_returnValue stepClosed_later he.respects keyword
    rw [returnStatement, get_bind]
    split
    · exact .of_rel stepClosed_later (later_record s _) (hrest _)
    · exact hrest s
  sound {s t a} hs h herr := by
    have hrest := respects_returnValue stepClosed_later he.respects keyword
    rw [returnStatement, get_bind] at h
    -- Outside of functions an error is recorded, so the run is inside of one.
    split at h
    · rw [note_bind] at h
      have e₁ := (hrest.of_ok h).size_errors_le
      have e₂ : (s.record ⟨keyword, .returnAtTopLevel⟩).errors.size = s.errors.size + 1 :=
        Array.size_push _
      omega
    · next hdepth =>
      have hinside : inside = true := by
        rw [← hs.inside_eq]
        simpa using hdepth
      obtain ⟨value, s₁, h, l₁, hvalue⟩ := sound_optional he exists_id_eq hs h
      obtain ⟨hend, h⟩ := expect_bind_eq_ok.1 h
      obtain ⟨rfl, rfl⟩ := pure_eq_ok.1 h
      have e₁ := l₁.size_errors_le
      have e₂ := (later_advanced s₁).size_errors_le
      obtain ⟨htake, -⟩ := take_eq (l₁.isReady hs) hend (by decide) (by omega)
      have hread := hvalue (by omega)
      have hgetD : value.elim Expr.nil id = value.getD .nil := by
        cases value <;> rfl
      rw [htake] at hread
      rw [hgetD]
      exact .return hinside hk hread hend

/-- A statement goes by its first token. -/
theorem reads_anyStatement (he : Reads inside expression Expression)
    (hs : Reads inside statement Statement) (hb : Reads inside block Body) :
    Reads inside (anyStatement expression statement block)
      (AnyStatement inside Expression Statement Body) where
  respects := respects_anyStatement stepClosed_later functionClosed_later he.respects hs.respects
    hb.respects
  sound {s t a} hready h herr := by
    rw [anyStatement, current_bind] at h
    generalize hk : s.current.kind = kind at h
    -- A keyword, and a rule for what follows it.
    have hkeyword (rule : Rule (Stmt Unit)) (hne : kind ≠ .eof) (h : rule s.advanced = .ok a t)
        (hr : Reads inside rule
          (fun tokens => AnyStatement inside Expression Statement Body (s.current :: tokens))) :
        AnyStatement inside Expression Statement Body s.remaining a t.remaining := by
      have e₁ := (later_advanced s).size_errors_le
      have e₂ := (hr.later h).size_errors_le
      obtain ⟨htake, hs₁⟩ := take_eq hready hk hne (by omega)
      rw [htake]
      exact hr.sound hs₁ h (by omega)
    split at h
    · exact hkeyword _ (by decide) h (reads_printStatement he hk)
    · rw [advance_bind] at h
      obtain ⟨body, s₁, hbody, h⟩ := bind_eq_ok.1 h
      obtain ⟨rfl, rfl⟩ := pure_eq_ok.1 h
      have e₁ := (later_advanced s).size_errors_le
      have e₂ := (hb.later hbody).size_errors_le
      obtain ⟨htake, hs₁⟩ := take_eq hready hk (by decide) (by omega)
      exact htake ▸ .block hk (hb.sound hs₁ hbody (by omega))
    · exact hkeyword _ (by decide) h (reads_ifStatement he hs hk)
    · exact hkeyword _ (by decide) h (reads_whileStatement he hs hk)
    · exact hkeyword _ (by decide) h (reads_forStatement he hs hk)
    · exact hkeyword (returnStatement expression s.current) (by decide) h
        (reads_returnStatement he hk)
    · exact .expression ((reads_expressionStatement he).sound hready h herr)

/-- Statements and blocks are read as phrases at every level of nesting. -/
theorem reads_statement_block (free : Nat) (inside : Bool) :
    Reads inside (Grammar.statement free) (Grammar.Statement free inside) ∧
      Reads inside (Grammar.block free) (Block free inside) := by
  -- The body of a function is read inside of one, so the induction is for both values of `inside`.
  induction free generalizing inside with
  | zero => exact ⟨reads_failHere trivial, reads_failHere trivial⟩
  | succ free ih =>
    have he : Reads inside (Grammar.expression free) (Grammar.Expression free) :=
      reads_expression free
    have hd := readsAlways_declaration he (ih inside).1 (ih true).2
    exact ⟨reads_nested (reads_anyStatement he (ih inside).1 (ih inside).2),
      reads_nested (reads_blockContents hd (opens_declaration free inside))⟩

/-- What the rule for statements reads is a statement. -/
theorem reads_statement (free : Nat) :
    Reads inside (Grammar.statement free) (Grammar.Statement free inside) :=
  (reads_statement_block free inside).1

/-- What the rule for blocks reads is the rest of a block. -/
theorem reads_block (free : Nat) : Reads inside (Grammar.block free) (Block free inside) :=
  (reads_statement_block free inside).2

/-- Declarations read to the end of the text without an error are all the declarations. -/
theorem sound_declarations {free : Nat} {s t : State} {program : List (Stmt Unit)}
    (hs : s.IsReady inside)
    (h : declarations
      (declaration (Grammar.expression free) (Grammar.statement free) (Grammar.block free))
      (fun _ => false) s.remaining s = (program, t))
    (herr : t.errors.size ≤ s.errors.size) :
    Repeated (Declaration free inside) s.remaining program t.remaining ∧
      t.current.kind = .eof := by
  have he : Reads inside (Grammar.expression free) (Grammar.Expression free) :=
    reads_expression free
  have hd := readsAlways_declaration he (reads_statement free) (reads_block free)
  obtain ⟨hbody, hend⟩ := sound_declarationsFrom hd (opens_declaration free inside)
    (Nat.le_refl _) hs h herr
  exact ⟨hbody, hend.resolve_right Bool.false_ne_true⟩

end

end Lox.Grammar
