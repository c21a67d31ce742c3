import Lox.Proofs.Grammar.Relabelling
import Lox.Proofs.Token.Reading
import Lox.Session

namespace Lox

namespace Grammar

/-!
# The order of syntax errors

Errors are recorded in three ways: unreadable tokens while they are passed over, a fault of a rule
at the token in front of it, and a `return` outside of functions once it has been taken. The first
two leave the errors in the order of the text. The third does not: unreadable tokens right behind
the `return` have been recorded by then, and the error at the `return` comes after them.

The position of an error is found by parsing the tokens with their positions in place of their
lines, since lines have no influence on what is parsed.

* `numbered` — the tokens with their positions for lines.
* `Lags all rank token` — unreadable tokens right behind a token reach a higher rank than its own.
* `InOrder` — what holds of the errors during a whole run.
* `errorPositions`, `expressionErrorPositions` — where the errors are.
* `syntaxErrors_order` — when the errors of a text are in order, by position and by line.
-/

/-! ### Passing over unreadable tokens -/

/-- An error is recorded behind those that are there. -/
theorem State.toList_errors_record (s : State) (e : SyntaxError) :
    (s.record e).errors.toList = s.errors.toList ++ [e] := by
  simp [State.record]

/-- Going on to the next token known to the grammar records the unreadable ones in front of it, in
    their order. -/
theorem exists_run_pull (line : Nat) (errors : Array SyntaxError) {ahead : List Token}
    (hend : ∃ token ∈ ahead, token.kind = .eof) :
    ∃ run : List SyntaxError,
      (∀ e ∈ run, ¬e.token.kind.IsKnown ∧ e.cause ≠ .returnAtTopLevel) ∧
        ahead = run.map (·.token) ++
          (State.pull line errors ahead).1 :: (State.pull line errors ahead).2.1 ∧
        (State.pull line errors ahead).2.2.toList = errors.toList ++ run ∧
        (State.pull line errors ahead).1.kind.IsKnown := by
  induction ahead generalizing errors with
  | nil => simp at hend
  | cons token ahead ih =>
    by_cases hknown : token.kind.IsKnown
    · rw [State.pull_of_isKnown hknown]
      exact ⟨[], by simp, rfl, by simp, hknown⟩
    · obtain ⟨cause, hc⟩ : ∃ cause, token.kind = .invalid cause := by
        simpa [Token.Kind.IsKnown] using hknown
      -- An unreadable token is not the end, so the end is still ahead.
      have hend' : ∃ token ∈ ahead, token.kind = .eof := by
        obtain ⟨last, hl, hk⟩ := hend
        rcases List.mem_cons.1 hl with rfl | hl
        · rw [hc] at hk
          exact absurd hk (by simp)
        · exact ⟨last, hl, hk⟩
      obtain ⟨run, hrun, hahead, herrors, hnext⟩ := ih (errors.push ⟨token, .lexical cause⟩) hend'
      rw [State.pull_of_invalid hc]
      refine ⟨⟨token, .lexical cause⟩ :: run, ?_, ?_, ?_, hnext⟩
      · intro e he
        rcases List.mem_cons.1 he with rfl | he
        · exact ⟨hknown, by simp⟩
        · exact hrun e he
      · rw [List.map_cons, List.cons_append, ← hahead]
      · rw [herrors]
        simp

/-- Taking a token records the unreadable ones behind it. -/
theorem exists_run_advanced {s : State} (hs : s.HasEnd) (hne : s.current.kind ≠ .eof) :
    ∃ run : List SyntaxError,
      (∀ e ∈ run, ¬e.token.kind.IsKnown ∧ e.cause ≠ .returnAtTopLevel) ∧
        s.remaining = s.current :: (run.map (·.token) ++ s.advanced.remaining) ∧
        s.advanced.errors.toList = s.errors.toList ++ run ∧ s.advanced.current.kind.IsKnown := by
  have hahead : ∃ token ∈ s.ahead, token.kind = .eof := by
    obtain ⟨last, hl, hk⟩ := hs
    rcases List.mem_cons.1 hl with rfl | hl
    · exact absurd hk hne
    · exact ⟨last, hl, hk⟩
  obtain ⟨run, hrun, hahead, herrors, hnext⟩ := exists_run_pull s.current.line s.errors hahead
  rw [State.advanced_of_ne_eof hne]
  exact ⟨run, hrun, congrArg (s.current :: ·) hahead, herrors, hnext⟩

/-! ### Errors in order -/

/-- Each of the tokens has its position for a line. -/
def IsNumbered (all : List Token) : Prop :=
  ∀ (i : Nat) (token : Token), all[i]? = some token → token.line = i

/-- Right behind a token there are unreadable tokens, up to one of a higher rank. -/
def Lags (all : List Token) (rank : Token → Nat) (token : Token) : Prop :=
  ∃ j other, token.line < j ∧ all[j]? = some other ∧ rank token < rank other ∧
    ∀ k between, token.line < k → k ≤ j → all[k]? = some between → ¬between.kind.IsKnown

/-- The errors recorded so far are at tokens not behind the current one, and they are in the order
    of a rank unless an error at a `return` lags behind those that were met while it was taken. -/
structure InOrder (all : List Token) (rank : Token → Nat) (s : State) : Prop where
  hasEnd : s.HasEnd
  remaining_eq : s.remaining = all.drop s.current.line
  getElem_eq : ∀ e ∈ s.errors.toList, all[e.token.line]? = some e.token
  rank_le : ∀ e ∈ s.errors.toList, rank e.token ≤ rank s.current
  pairwise_iff : s.errors.toList.Pairwise (fun e e' => rank e.token ≤ rank e'.token) ↔
    ∀ e ∈ s.errors.toList, e.cause = .returnAtTopLevel → ¬Lags all rank e.token

variable {all : List Token} {rank : Token → Nat}

/-- The tokens behind a position. -/
theorem getElem?_of_drop_eq {front : List Token} {token : Token} {tokens : List Token} {n : Nat}
    (h : all.drop n = front ++ token :: tokens) : all[n + front.length]? = some token := by
  rw [← List.getElem?_drop, h, List.getElem?_append_right (Nat.le_refl _), Nat.sub_self]
  rfl

/-- A token lags exactly if one of the unreadable tokens right behind it has a higher rank. -/
theorem lags_iff {token next : Token} {run tokens : List Token}
    (hdrop : all.drop token.line = token :: (run ++ next :: tokens))
    (hrun : ∀ other ∈ run, ¬other.kind.IsKnown) (hnext : next.kind.IsKnown) :
    Lags all rank token ↔ ∃ other ∈ run, rank token < rank other := by
  have hbehind (m : Nat) : all[token.line + 1 + m]? = (run ++ next :: tokens)[m]? := by
    rw [← List.getElem?_drop, ← List.drop_drop, hdrop]
    rfl
  constructor
  · rintro ⟨j, other, hj, hother, hlt, hbetween⟩
    obtain ⟨m, rfl⟩ := Nat.exists_eq_add_of_lt hj
    have hm : m < run.length := by
      -- Otherwise the next token that the grammar knows would stand in between.
      refine Nat.lt_of_not_le fun hge => ?_
      have hknown := hbehind run.length
      rw [List.getElem?_append_right (Nat.le_refl _), Nat.sub_self] at hknown
      exact hbetween (token.line + 1 + run.length) next (by omega) (by omega) hknown hnext
    rw [show token.line + m + 1 = token.line + 1 + m by omega, hbehind,
      List.getElem?_append_left hm] at hother
    exact ⟨other, List.mem_of_getElem? hother, hlt⟩
  · -- The tokens up to the one of higher rank are unreadable, as the whole run is.
    rintro ⟨other, hmem, hlt⟩
    obtain ⟨m, hm, rfl⟩ := List.getElem_of_mem hmem
    refine ⟨token.line + 1 + m, run[m], by omega, ?_, hlt, ?_⟩
    · rw [hbehind, List.getElem?_append_left hm, List.getElem?_eq_getElem hm]
    · intro k between hlt hle hk
      obtain ⟨n, rfl⟩ := Nat.exists_eq_add_of_lt hlt
      rw [show token.line + n + 1 = token.line + 1 + n by omega, hbehind,
        List.getElem?_append_left (by omega)] at hk
      exact hrun between (List.mem_of_getElem? hk)

/-- The errors are in order still if those are added that were met on the way to the next
    token. -/
theorem InOrder.of_run (hnum : IsNumbered all)
    (hrank : all.Pairwise fun token other => rank token ≤ rank other) {front : List Token}
    {errors run : List SyntaxError} {t : State} (hend : t.HasEnd)
    (hall : all = front ++ (run.map (·.token) ++ t.remaining))
    (herrors : t.errors.toList = errors ++ run)
    (hrun : ∀ e ∈ run, e.cause ≠ .returnAtTopLevel)
    (hget : ∀ e ∈ errors, all[e.token.line]? = some e.token)
    (hle : ∀ e ∈ errors, ∀ token ∈ run.map (·.token) ++ t.remaining, rank e.token ≤ rank token)
    (hiff : errors.Pairwise (fun e e' => rank e.token ≤ rank e'.token) ↔
      ∀ e ∈ errors, e.cause = .returnAtTopLevel → ¬Lags all rank e.token) :
    InOrder all rank t := by
  have hsorted := hrank
  rw [hall, List.pairwise_append, List.pairwise_append, List.pairwise_map] at hsorted
  obtain ⟨-, ⟨hpairwise, -, hnext⟩, -⟩ := hsorted
  have hdrop : all.drop 0 = (front ++ run.map (·.token)) ++ t.current :: t.ahead := by
    rw [List.drop_zero, List.append_assoc]
    exact hall
  -- The current token of `t` stands where the front and the run end.
  have hline : t.current.line = (front ++ run.map (·.token)).length := by
    rw [hnum _ _ (getElem?_of_drop_eq hdrop), Nat.zero_add]
  refine ⟨hend, ?_, ?_, ?_, ?_⟩
  · have hzero : all.drop 0 = all := List.drop_zero
    rw [hline, ← hzero, hdrop, List.drop_left]
    rfl
  · intro e he
    rw [herrors, List.mem_append] at he
    rcases he with he | he
    · exact hget e he
    · obtain ⟨before, behind, rfl⟩ := List.append_of_mem he
      have hat : all.drop 0 = (front ++ before.map (·.token)) ++
          e.token :: (behind.map (·.token) ++ t.remaining) := by
        rw [List.drop_zero, hall]
        simp
      have hget := getElem?_of_drop_eq hat
      rwa [← hnum _ _ hget] at hget
  · intro e he
    rw [herrors, List.mem_append] at he
    rcases he with he | he
    · exact hle e he t.current (by simp [State.remaining])
    · exact hnext e.token (List.mem_map_of_mem he) t.current (by simp [State.remaining])
  · -- The run is in order and behind all other errors, so it decides nothing.
    rw [herrors, List.pairwise_append, hiff]
    constructor
    · rintro ⟨hall, -, -⟩ e he hcause
      rcases List.mem_append.1 he with he | he
      · exact hall e he hcause
      · exact absurd hcause (hrun e he)
    · intro hall
      refine ⟨fun e he => hall e (List.mem_append_left _ he), hpairwise, fun e he e' he' => ?_⟩
      exact hle e he e'.token (List.mem_append_left _ (List.mem_map_of_mem he'))

/-- The errors that taking a token records, and whether the token lags behind them. -/
theorem InOrder.exists_run {s : State} (hnum : IsNumbered all)
    (hrank : all.Pairwise fun token other => rank token ≤ rank other) (hs : InOrder all rank s)
    (hne : s.current.kind ≠ .eof) :
    ∃ run : List SyntaxError, s.advanced.errors.toList = s.errors.toList ++ run ∧
      InOrder all rank s.advanced ∧ all[s.current.line]? = some s.current ∧
      rank s.current ≤ rank s.advanced.current ∧
      (Lags all rank s.current ↔ ∃ e ∈ run, rank s.current < rank e.token) := by
  obtain ⟨run, hrun, hremaining, herrors, hknown⟩ := exists_run_advanced hs.hasEnd hne
  have hdrop : all.drop s.current.line =
      [] ++ s.current :: (run.map (·.token) ++ s.advanced.remaining) :=
    hs.remaining_eq ▸ hremaining
  -- What has been read, the unreadable tokens that are passed now, and what remains.
  have hall : all = (all.take s.current.line ++ [s.current]) ++
      (run.map (·.token) ++ s.advanced.remaining) := by
    rw [List.append_assoc, List.singleton_append]
    exact (List.take_append_drop s.current.line all).symm.trans (congrArg _ hdrop)
  -- All tokens behind the current one are of its rank or of a higher one.
  have hcurrent : ∀ token ∈ run.map (·.token) ++ s.advanced.remaining,
      rank s.current ≤ rank token := by
    have hsorted := hrank
    rw [hall, List.pairwise_append] at hsorted
    exact hsorted.2.2 s.current (by simp)
  have hunreadable : ∀ other ∈ run.map (·.token), ¬other.kind.IsKnown := by
    intro other hother
    obtain ⟨e, he, rfl⟩ := List.mem_map.1 hother
    exact (hrun e he).1
  refine ⟨run, herrors, ?_, getElem?_of_drop_eq hdrop, hcurrent _ (by simp [State.remaining]), ?_⟩
  · refine .of_run hnum hrank ((later_advanced s).hasEnd hs.hasEnd) hall herrors
      (fun e he => (hrun e he).2) hs.getElem_eq (fun e he token htoken => ?_) hs.pairwise_iff
    exact Nat.le_trans (hs.rank_le e he) (hcurrent token htoken)
  · rw [lags_iff hdrop hunreadable hknown]
    constructor
    · rintro ⟨other, hother, hlt⟩
      obtain ⟨e, he, rfl⟩ := List.mem_map.1 hother
      exact ⟨e, he, hlt⟩
    · rintro ⟨e, he, hlt⟩
      exact ⟨e.token, List.mem_map_of_mem he, hlt⟩

/-! ### The steps of rules -/

/-- One more error, at a token that has been reached. It is behind all others, unless it is one at
    a `return` that lags. -/
theorem InOrder.record_of_iff {s : State} (hs : InOrder all rank s) {e : SyntaxError}
    (hget : all[e.token.line]? = some e.token) (hle : rank e.token ≤ rank s.current)
    (hlast : (∀ e' ∈ s.errors.toList, rank e'.token ≤ rank e.token) ↔
      (e.cause = .returnAtTopLevel → ¬Lags all rank e.token)) :
    InOrder all rank (s.record e) := by
  have herrors := State.toList_errors_record s e
  refine ⟨hs.hasEnd, hs.remaining_eq, ?_, ?_, ?_⟩
  · intro e' he'
    rw [herrors, List.mem_append, List.mem_singleton] at he'
    rcases he' with he' | rfl
    · exact hs.getElem_eq e' he'
    · exact hget
  · intro e' he'
    rw [herrors, List.mem_append, List.mem_singleton] at he'
    rcases he' with he' | rfl
    · exact hs.rank_le e' he'
    · exact hle
  · -- The new error is the last one, so it has to be compared with those in front of it only.
    rw [herrors, List.pairwise_append, hs.pairwise_iff]
    constructor
    · rintro ⟨hall, -, hbehind⟩ e' he' hreturn
      rw [List.mem_append, List.mem_singleton] at he'
      rcases he' with he' | rfl
      · exact hall e' he' hreturn
      · exact hlast.1 (fun other hother => hbehind other hother e' (by simp)) hreturn
    · intro hall
      refine ⟨fun e' he' => hall e' (List.mem_append_left _ he'), List.pairwise_singleton _ _, ?_⟩
      intro e' he' last hmem
      obtain rfl := List.mem_singleton.1 hmem
      exact hlast.2 (hall last (by simp)) e' he'

/-- The fault of a rule is at the current token, which no error is behind. -/
theorem InOrder.record {s : State} (hs : InOrder all rank s) {cause : SyntaxError.Cause}
    (hcause : cause.IsLocal) : InOrder all rank (s.record ⟨s.current, cause⟩) := by
  have hdrop : all.drop s.current.line = [] ++ s.current :: s.ahead := hs.remaining_eq.symm
  refine hs.record_of_iff (getElem?_of_drop_eq hdrop) (Nat.le_refl _) ⟨fun _ => ?_, fun _ => ?_⟩
  · rintro rfl
    exact hcause.elim
  · exact hs.rank_le

/-- Levels and functions have no influence on the errors. -/
theorem InOrder.withLevels {s : State} (hs : InOrder all rank s) (functionDepth nesting : Nat) :
    InOrder all rank { s with functionDepth, nesting } :=
  ⟨hs.hasEnd, hs.remaining_eq, hs.getElem_eq, hs.rank_le, hs.pairwise_iff⟩

section

variable (hnum : IsNumbered all)
  (hrank : all.Pairwise fun token other => rank token ≤ rank other)

include hnum hrank

/-- Taking a token adds errors at the tokens behind it only. -/
theorem InOrder.advanced {s : State} (hs : InOrder all rank s) : InOrder all rank s.advanced := by
  by_cases hne : s.current.kind = .eof
  · rwa [State.advanced_of_atEnd hne]
  · obtain ⟨run, -, hadvanced, -⟩ := hs.exists_run hnum hrank hne
    exact hadvanced

/-- The one step that may upset the order: the error at a `return` comes behind those at the
    unreadable tokens that follow it. -/
theorem InOrder.returned {s : State} (hs : InOrder all rank s)
    (hk : s.current.kind = .keyword .return_) :
    InOrder all rank (s.advanced.record ⟨s.current, .returnAtTopLevel⟩) := by
  have hne : s.current.kind ≠ .eof := by
    rw [hk]
    decide
  obtain ⟨run, hrun, hadvanced, hcurrent, hle, hlags⟩ := hs.exists_run hnum hrank hne
  -- The new error is the last one, so it is in order if none of the others has a higher rank.
  refine hadvanced.record_of_iff hcurrent hle ⟨fun hlast _ => ?_, fun hnot e he => ?_⟩
  · rw [hlags]
    rintro ⟨e, he, hlt⟩
    have := hlast e (by rw [hrun]; exact List.mem_append_right _ he)
    dsimp only at this
    omega
  · rw [hrun, List.mem_append] at he
    rcases he with he | he
    · exact hs.rank_le e he
    · -- An error that was met while the `return` was taken.
      have hnot := hnot rfl
      rw [hlags] at hnot
      exact Nat.le_of_not_lt fun hlt => hnot ⟨e, he, hlt⟩

/-- The errors at the start are those of the unreadable tokens at the front. -/
theorem inOrder_start (hend : ∃ token ∈ all, token.kind = .eof) :
    InOrder all rank (State.start all) := by
  obtain ⟨run, hrun, hall, herrors, -⟩ := exists_run_pull 1 #[] hend
  have hfront : all = [] ++ (run.map (·.token) ++ (State.start all).remaining) := hall
  have hnone : (State.start all).errors.toList = [] ++ run := herrors
  refine .of_run hnum hrank (State.exists_eof_pull 1 #[] hend) hfront hnone
    (fun e he => (hrun e he).2) ?_ ?_ ?_
  · simp
  · simp
  · simp

/-- Every step of a rule keeps the errors in order, as far as it goes. -/
theorem stepClosed_inOrder : StepClosed fun s t => InOrder all rank s → InOrder all rank t where
  refl _ := id
  trans h h' := h' ∘ h
  advanced _ hs := hs.advanced hnum hrank
  record _ _ hcause hs := hs.record hcause
  nested _ h hs := (h (hs.withLevels _ _)).withLevels _ _

/-- A function body keeps the errors in order, and so does the error at a `return`. -/
theorem functionClosed_inOrder :
    FunctionClosed fun s t => InOrder all rank s → InOrder all rank t where
  returned _ hk _ hs := hs.returned hnum hrank hk
  inFunction h hs := (h (hs.withLevels _ _)).withLevels _ _

/-- A program's errors are in order exactly if no error at a `return` lags behind others. -/
theorem parse_pairwise_iff (hend : ∃ token ∈ all, token.kind = .eof) :
    (∀ e ∈ (parse all).2, all[e.token.line]? = some e.token) ∧
      ((parse all).2.Pairwise (fun e e' => rank e.token ≤ rank e'.token) ↔
        ∀ e ∈ (parse all).2, e.cause = .returnAtTopLevel → ¬Lags all rank e.token) := by
  have hrun := rel_declarations (stepClosed_inOrder hnum hrank) (functionClosed_inOrder hnum hrank)
    maxNesting (fun _ => false) (State.start all).remaining _ (inOrder_start hnum hrank hend)
  exact ⟨hrun.getElem_eq, hrun.pairwise_iff⟩

end

/-! ### Single expressions -/

/-- None of the errors is one at a `return`. -/
structure NoReturns (s : State) : Prop where
  hasEnd : s.HasEnd
  cause_ne : ∀ e ∈ s.errors.toList, e.cause ≠ .returnAtTopLevel

/-- The fault of a rule is no error at a `return`. -/
theorem NoReturns.record {s : State} (hs : NoReturns s) (token : Token)
    {cause : SyntaxError.Cause} (hcause : cause.IsLocal) : NoReturns (s.record ⟨token, cause⟩) := by
  refine ⟨hs.hasEnd, fun e he => ?_⟩
  rw [State.toList_errors_record, List.mem_append, List.mem_singleton] at he
  rcases he with he | rfl
  · exact hs.cause_ne e he
  · rintro rfl
    exact hcause

/-- Taking a token records errors of unreadable tokens, and none at a `return`. -/
theorem NoReturns.advanced {s : State} (hs : NoReturns s) : NoReturns s.advanced := by
  by_cases hne : s.current.kind = .eof
  · rwa [State.advanced_of_atEnd hne]
  · obtain ⟨run, hrun, -, herrors, -⟩ := exists_run_advanced hs.hasEnd hne
    refine ⟨(later_advanced s).hasEnd hs.hasEnd, fun e he => ?_⟩
    rw [herrors, List.mem_append] at he
    rcases he with he | he
    · exact hs.cause_ne e he
    · exact (hrun e he).2

/-- Expressions contain no statements, so no `return` is met while one is read. -/
theorem stepClosed_noReturns : StepClosed fun s t => NoReturns s → NoReturns t where
  refl _ := id
  trans h h' := h' ∘ h
  advanced _ hs := hs.advanced
  record _ _ hcause hs := hs.record _ hcause
  nested _ h hs := ⟨(h ⟨hs.hasEnd, hs.cause_ne⟩).hasEnd, (h ⟨hs.hasEnd, hs.cause_ne⟩).cause_ne⟩

/-- No rule has run yet. -/
theorem noReturns_start (hend : ∃ token ∈ all, token.kind = .eof) :
    NoReturns (State.start all) := by
  obtain ⟨run, hrun, -, herrors, -⟩ := exists_run_pull 1 #[] hend
  refine ⟨State.exists_eof_pull 1 #[] hend, fun e he => (hrun e ?_).2⟩
  have hnone : (State.start all).errors.toList = [] ++ run := herrors
  rwa [hnone, List.nil_append] at he

/-- The errors that are found in place of a single expression are in order. -/
theorem parseExpression_pairwise (hnum : IsNumbered all)
    (hrank : all.Pairwise fun token other => rank token ≤ rank other)
    (hend : ∃ token ∈ all, token.kind = .eof) {errors : List SyntaxError}
    (h : parseExpression all = .error errors) :
    (∀ e ∈ errors, all[e.token.line]? = some e.token) ∧
      errors.Pairwise (fun e e' => rank e.token ≤ rank e'.token) := by
  -- Without errors at a `return` nothing lags.
  have hfinal {t : State} (ht : InOrder all rank t) (hno : NoReturns t) :
      (∀ e ∈ t.errors.toList, all[e.token.line]? = some e.token) ∧
        t.errors.toList.Pairwise (fun e e' => rank e.token ≤ rank e'.token) :=
    ⟨ht.getElem_eq, ht.pairwise_iff.2 fun e he hreturn => absurd hreturn (hno.cause_ne e he)⟩
  have hstart := inOrder_start hnum hrank hend
  have hordered := respects_expression (stepClosed_inOrder hnum hrank) maxNesting
  have hnoReturns := respects_expression stepClosed_noReturns maxNesting
  rw [parseExpression] at h
  cases hrun : expression maxNesting (State.start all) with
  -- The expression itself is malformed, or there is something behind it.
  | error e t =>
    rw [hrun] at h
    obtain rfl := Except.error.inj h
    obtain ⟨ht, cause, hcause, rfl⟩ := hordered.of_error hrun
    obtain ⟨hno, -⟩ := hnoReturns.of_error hrun
    exact hfinal ((ht hstart).record hcause) ((hno (noReturns_start hend)).record _ hcause)
  | ok e t =>
    rw [hrun] at h
    have ht := hordered.of_ok hrun hstart
    have hno := hnoReturns.of_ok hrun (noReturns_start hend)
    dsimp only at h
    split at h
    · split at h
      · exact absurd h (by simp)
      · obtain rfl := Except.error.inj h
        exact hfinal ht hno
    · split at h
      · exact absurd h (by simp)
      · obtain rfl := Except.error.inj h
        exact hfinal (ht.record trivial) (hno.record _ trivial)

/-! ### The positions of errors -/

/-- The tokens with their positions in place of their lines. -/
def numbered (tokens : List Token) : List Token :=
  tokens.mapIdx fun i token => { token with line := i }

/-- The line of the token at a position. -/
def lineAt (tokens : List Token) (i : Nat) : Nat := (tokens[i]?.map Token.line).getD 0

/-- The positions of the errors of a program, with their causes. -/
def errorPositions (tokens : List Token) : List (Nat × SyntaxError.Cause) :=
  (parse (numbered tokens)).2.map fun e => (e.token.line, e.cause)

/-- The positions of the errors that are found in place of a single expression. -/
def expressionErrorPositions (tokens : List Token) : List (Nat × SyntaxError.Cause) :=
  match parseExpression (numbered tokens) with
  | .ok _ => []
  | .error errors => errors.map fun e => (e.token.line, e.cause)

/-- The error of a given cause at the token of a given position. -/
def errorAt? (tokens : List Token) (place : Nat × SyntaxError.Cause) : Option SyntaxError :=
  tokens[place.1]?.map (⟨·, place.2⟩)

section

variable {tokens : List Token}

/-- The token at a position has that position for a line. -/
theorem getElem?_numbered (i : Nat) :
    (numbered tokens)[i]? = tokens[i]?.map fun token => { token with line := i } := by
  rw [numbered, List.getElem?_mapIdx]

/-- The positions are lines as `IsNumbered` wants them. -/
theorem isNumbered_numbered : IsNumbered (numbered tokens) := by
  intro i token h
  rw [getElem?_numbered, Option.map_eq_some_iff] at h
  obtain ⟨token', -, rfl⟩ := h
  rfl

/-- Putting the lines back gives the tokens as they were. -/
theorem map_numbered (tokens : List Token) :
    (numbered tokens).map (fun token => { token with line := lineAt tokens token.line }) =
      tokens := by
  apply List.ext_getElem?
  intro i
  rw [List.getElem?_map, getElem?_numbered, Option.map_map]
  cases h : tokens[i]? with
  | none => rfl
  | some token => simp [lineAt, h]

/-- Putting the lines back keeps kinds and literals. -/
theorem isRelabelling_lineAt (tokens : List Token) :
    Token.IsRelabelling fun token => { token with line := lineAt tokens token.line } where
  kind_eq _ := rfl
  literal_eq _ := rfl

/-- Numbered tokens have an end among them if the tokens do. -/
theorem exists_eof_numbered (hend : ∃ token ∈ tokens, token.kind = .eof) :
    ∃ token ∈ numbered tokens, token.kind = .eof := by
  obtain ⟨last, hlast, hk⟩ := hend
  obtain ⟨i, hi, rfl⟩ := List.getElem_of_mem hlast
  refine ⟨{ tokens[i] with line := i }, List.mem_of_getElem? (i := i) ?_, hk⟩
  rw [getElem?_numbered, List.getElem?_eq_getElem hi]
  rfl

/-- Errors at numbered tokens, and the same errors at the tokens themselves. -/
theorem map_errorAt? {errors : List SyntaxError}
    (h : ∀ e ∈ errors, (numbered tokens)[e.token.line]? = some e.token) :
    (errors.map (SyntaxError.relabel
        fun token => { token with line := lineAt tokens token.line })).map some =
      (errors.map fun e => (e.token.line, e.cause)).map (errorAt? tokens) := by
  rw [List.map_map, List.map_map]
  refine List.map_congr_left fun e he => ?_
  have hat := h e he
  rw [getElem?_numbered, Option.map_eq_some_iff] at hat
  obtain ⟨token, htoken, heq⟩ := hat
  have hline : lineAt tokens e.token.line = token.line := by
    rw [lineAt, htoken]
    rfl
  simp only [Function.comp, SyntaxError.relabel, errorAt?, htoken, hline, Option.map_some]
  rw [← heq]

/-- The tokens are in the order of their positions. -/
theorem pairwise_line_numbered (tokens : List Token) :
    (numbered tokens).Pairwise fun token other => token.line ≤ other.line := by
  refine List.pairwise_iff_getElem.2 fun i j hi hj hlt => ?_
  rw [isNumbered_numbered i _ (List.getElem?_eq_getElem hi),
    isNumbered_numbered j _ (List.getElem?_eq_getElem hj)]
  exact Nat.le_of_lt hlt

/-- The tokens are in the order of their lines if they were before. -/
theorem pairwise_lineAt_numbered (hlines : tokens.Pairwise (·.line ≤ ·.line)) :
    (numbered tokens).Pairwise fun token other =>
      lineAt tokens token.line ≤ lineAt tokens other.line := by
  have hmap := hlines
  rw [← map_numbered tokens, List.pairwise_map] at hmap
  exact hmap

/-- What it takes for a token to lag behind others, in terms of positions. -/
theorem lags_numbered_iff {rank : Nat → Nat} {token : Token} :
    Lags (numbered tokens) (fun token => rank token.line) token ↔
      ∃ j, token.line < j ∧ j < tokens.length ∧ rank token.line < rank j ∧
        ∀ k between, token.line < k → k ≤ j → tokens[k]? = some between →
          ¬between.kind.IsKnown := by
  constructor
  · rintro ⟨j, other, hj, hother, hlt, hbetween⟩
    -- The line of a numbered token is its place, so ranks are those of places.
    have hline := isNumbered_numbered j other hother
    rw [getElem?_numbered, Option.map_eq_some_iff] at hother
    obtain ⟨_, hat, -⟩ := hother
    refine ⟨j, hj, (List.getElem?_eq_some_iff.1 hat).1, hline ▸ hlt, fun k between hk hle h => ?_⟩
    exact hbetween k { between with line := k } hk hle (by rw [getElem?_numbered, h]; rfl)
  · rintro ⟨j, hj, hlen, hlt, hbetween⟩
    refine ⟨j, { tokens[j] with line := j }, hj, ?_, hlt, fun k between hk hle h => ?_⟩
    · rw [getElem?_numbered, List.getElem?_eq_getElem hlen]
      rfl
    · rw [getElem?_numbered, Option.map_eq_some_iff] at h
      obtain ⟨token', hat, rfl⟩ := h
      exact hbetween k token' hk hle hat

/-! ### Texts -/

section

variable (hend : ∃ token ∈ tokens, token.kind = .eof)

include hend

/-- The errors of a program are those of its numbered tokens, with the lines put back. -/
theorem parse_eq_map_numbered :
    (parse tokens).2 = (parse (numbered tokens)).2.map
      (SyntaxError.relabel fun token => { token with line := lineAt tokens token.line }) := by
  have hmap := parse_map (isRelabelling_lineAt tokens) (exists_eof_numbered hend)
  rw [map_numbered] at hmap
  rw [hmap]

/-- The errors in place of a single expression are those of its numbered tokens, too. -/
theorem parseExpression_eq_map_numbered {errors : List SyntaxError}
    (h : parseExpression tokens = .error errors) :
    ∃ errors', parseExpression (numbered tokens) = .error errors' ∧
      errors = errors'.map
        (SyntaxError.relabel fun token => { token with line := lineAt tokens token.line }) := by
  have hmap :=
    parseExpression_map (isRelabelling_lineAt tokens) (exists_eof_numbered hend)
  rw [map_numbered, h] at hmap
  cases hrun : parseExpression (numbered tokens) with
  | ok e =>
    rw [hrun] at hmap
    exact absurd hmap (by simp)
  | error errors' =>
    rw [hrun] at hmap
    exact ⟨errors', rfl, Except.error.inj hmap⟩

/-- The errors of a program in the order of a rank of positions. -/
theorem errorPositions_pairwise_iff {rank : Nat → Nat}
    (hrank : (numbered tokens).Pairwise fun token other => rank token.line ≤ rank other.line) :
    ((errorPositions tokens).map fun place => rank place.1).Pairwise (· ≤ ·) ↔
      ∀ i, (i, .returnAtTopLevel) ∈ errorPositions tokens →
        ¬∃ j, i < j ∧ j < tokens.length ∧ rank i < rank j ∧
          ∀ k between, i < k → k ≤ j → tokens[k]? = some between → ¬between.kind.IsKnown := by
  obtain ⟨-, hiff⟩ := parse_pairwise_iff isNumbered_numbered hrank (exists_eof_numbered hend)
  rw [errorPositions, List.map_map, List.pairwise_map]
  refine hiff.trans ⟨fun h i hi => ?_, fun h e he hcause => ?_⟩
  · obtain ⟨e, he, hplace⟩ := List.mem_map.1 hi
    obtain ⟨rfl, hcause⟩ := Prod.mk.inj hplace
    rw [← lags_numbered_iff]
    exact h e he hcause
  · rw [lags_numbered_iff]
    exact h e.token.line (List.mem_map.2 ⟨e, he, by rw [hcause]⟩)

/-- The lines of the reports of a program, read off the positions of its errors. -/
theorem map_line_reports :
    (Failure.syntactic (parse tokens).2).reports.map Report.line =
      (errorPositions tokens).map fun place => lineAt tokens place.1 := by
  rw [Failure.reports, parse_eq_map_numbered hend, errorPositions, List.map_map, List.map_map,
    List.map_map]
  rfl

end

end

end Grammar

open Grammar

/-- **The order of syntax errors.** Each error of a program is at the token of its position. The
    errors are in the order of their positions exactly if no `return` that is objected to is
    directly followed by an unreadable token, and their reports are in the order of lines exactly if
    unreadable tokens right behind such a `return` are all on its line. The errors found in place of
    a single expression are always in order. -/
theorem syntaxErrors_order (source : String) :
    (parse (scan source)).2.map some =
        (errorPositions (scan source)).map (errorAt? (scan source)) ∧
      (((errorPositions (scan source)).map Prod.fst).Pairwise (· ≤ ·) ↔
        ∀ i, (i, .returnAtTopLevel) ∈ errorPositions (scan source) →
          ∀ next, (scan source)[i + 1]? = some next → next.kind.IsKnown) ∧
      (((Failure.syntactic (parse (scan source)).2).reports.map Report.line).Pairwise (· ≤ ·) ↔
        ∀ i, (i, .returnAtTopLevel) ∈ errorPositions (scan source) →
          ∀ j, i < j → j < (scan source).length →
            (∀ k between, i < k → k ≤ j → (scan source)[k]? = some between →
              ¬between.kind.IsKnown) →
            lineAt (scan source) j ≤ lineAt (scan source) i) ∧
      ∀ errors, parseExpression (scan source) = .error errors →
        errors.map some =
            (expressionErrorPositions (scan source)).map (errorAt? (scan source)) ∧
          ((expressionErrorPositions (scan source)).map Prod.fst).Pairwise (· ≤ ·) ∧
          ((Failure.syntactic errors).reports.map Report.line).Pairwise (· ≤ ·) := by
  have hend := exists_eof_scan source
  have hlines := pairwise_line_scan source
  generalize scan source = tokens at hend hlines
  have hposition := pairwise_line_numbered tokens
  have hline := pairwise_lineAt_numbered hlines
  refine ⟨?_, ?_, ?_, fun errors h => ?_⟩
  · obtain ⟨hget, -⟩ :=
      parse_pairwise_iff isNumbered_numbered hposition (exists_eof_numbered hend)
    rw [parse_eq_map_numbered hend]
    exact map_errorAt? hget
  · have hrank : (numbered tokens).Pairwise fun token other => id token.line ≤ id other.line :=
      hposition
    refine (errorPositions_pairwise_iff hend hrank).trans
      (forall_congr' fun i => forall_congr' fun _ => ⟨fun h next hnext => ?_, fun h => ?_⟩)
    -- Positions grow with every token, so the token right behind the `return` decides.
    · refine Classical.byContradiction fun hunknown => h ⟨i + 1, by omega, ?_, by simp, ?_⟩
      · exact (List.getElem?_eq_some_iff.1 hnext).1
      · intro k between hk hle hbetween
        obtain rfl : k = i + 1 := by omega
        rw [hnext] at hbetween
        exact Option.some.inj hbetween ▸ hunknown
    · rintro ⟨j, hj, hlen, -, hbetween⟩
      have hnext := List.getElem?_eq_getElem (by omega : i + 1 < tokens.length)
      exact hbetween (i + 1) _ (by omega) (by omega) hnext (h _ hnext)
  · rw [map_line_reports hend, errorPositions_pairwise_iff hend hline]
    refine forall_congr' fun i => forall_congr' fun _ =>
      ⟨fun h j hj hlen hbetween => ?_, fun h => ?_⟩
    · exact Nat.le_of_not_lt fun hlt => h ⟨j, hj, hlen, hlt, hbetween⟩
    · rintro ⟨j, hj, hlen, hlt, hbetween⟩
      have := h j hj hlen hbetween
      omega
  · obtain ⟨errors', hrun, rfl⟩ := parseExpression_eq_map_numbered hend h
    obtain ⟨hget, hpositions⟩ := parseExpression_pairwise isNumbered_numbered hposition
      (exists_eof_numbered hend) hrun
    obtain ⟨-, hreports⟩ := parseExpression_pairwise isNumbered_numbered hline
      (exists_eof_numbered hend) hrun
    have hplaces : expressionErrorPositions tokens =
        errors'.map fun e => (e.token.line, e.cause) := by
      rw [expressionErrorPositions, hrun]
    refine ⟨?_, ?_, ?_⟩
    · rw [hplaces]
      exact map_errorAt? hget
    · rw [hplaces, List.map_map, List.pairwise_map]
      exact hpositions
    · rw [Failure.reports, List.map_map, List.map_map, List.pairwise_map]
      exact hreports

/-- A character that is no token behind a `return`: its error comes first. -/
example : errorPositions (scan "return\n@") =
    [(1, .lexical .undefinedToken), (0, .returnAtTopLevel), (2, .missingExpression)] := by
  decide +kernel

end Lox
