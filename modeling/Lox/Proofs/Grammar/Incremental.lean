import Lox.Proofs.Grammar.Joined
import Lox.Proofs.Grammar.Unreadable

namespace Lox.Grammar

/-!
# A program in front of other tokens

Behind the tokens of a program the parser is in the state in which it starts to read what comes
next. So reading a program and something else is reading the one after the other, errors and all.
The only exception is an `else`, which the last statement of the program would take.

Unreadable tokens may stand between the two. A run that passes them is compared with one where they
are missing: the two are the same in front of the unreadable tokens, and behind them the first one
has recorded their errors.

* `State.pull_errors` — errors recorded earlier do not matter for what is read.
* `Passing` — the relation of two such runs.
* `declarations_program` — the run over a program ends in front of what comes next.
* `parse_program_append` — the tokens of a program and any others.
-/

/-! ### Unreadable tokens between two programs -/

/-- Two states, of which only the second one passes some unreadable tokens in front of the token
    `next`. It has not come to them yet, or it has recorded their errors. -/
structure Passing (unreadable : List Token) (next : Token) (behind : List Token) (s s' : State) :
    Prop where
  current_eq : s'.current = s.current
  functionDepth_eq : s'.functionDepth = s.functionDepth
  nesting_eq : s'.nesting = s.nesting
  rest : (∃ front : List Token, (∀ t ∈ front, t.kind.IsKnown) ∧
      s.ahead = front ++ next :: behind ∧ s'.ahead = front ++ unreadable ++ next :: behind ∧
      s'.errors = s.errors) ∨
    s'.ahead = s.ahead ∧ ∃ before after : List SyntaxError, s.errors.toList = before ++ after ∧
      s'.errors.toList = before ++ unreadable.filterMap Token.lexicalError? ++ after

variable {unreadable behind : List Token} {next : Token}

/-- The errors that are recorded while a token is taken come behind the earlier ones. -/
theorem State.pull_errors (line : Nat) (errors : Array SyntaxError) (ahead : List Token) :
    pull line errors ahead =
      ((pull line #[] ahead).1, (pull line #[] ahead).2.1,
        errors ++ (pull line #[] ahead).2.2) := by
  induction ahead generalizing errors with
  | nil => simp [pull]
  | cons token ahead ih =>
    rcases token.invalid_or_isKnown with ⟨cause, hc⟩ | hknown
    · rw [pull_of_invalid hc, pull_of_invalid hc, ih, ih (#[].push _)]
      simp
    · simp [pull_of_isKnown hknown]

/-- Pulling passes over unreadable tokens, and records their errors. -/
theorem pull_unreadable (hu : ∀ t ∈ unreadable, t.isUnreadable = true) (hnext : next.kind.IsKnown)
    (line : Nat) (errors : Array SyntaxError) :
    State.pull line errors (unreadable ++ next :: behind) =
      (next, behind, errors ++ (unreadable.filterMap Token.lexicalError?).toArray) := by
  induction unreadable generalizing errors with
  | nil => simp [State.pull_of_isKnown hnext]
  | cons token unreadable ih =>
    obtain ⟨htoken, hu⟩ := List.forall_mem_cons.1 hu
    rcases token.invalid_or_isKnown with ⟨cause, hc⟩ | hknown
    · rw [List.cons_append, State.pull_of_invalid hc, ih hu,
        List.filterMap_cons_some (Token.lexicalError?_of_invalid hc)]
      simp
    · rw [Token.isUnreadable_eq_false_iff.2 hknown] at htoken
      exact absurd htoken (by simp)

/-- In front of the unreadable tokens and up to them, pulling comes to the same token in both
    runs. -/
theorem passing_pull_front (hu : ∀ t ∈ unreadable, t.isUnreadable = true)
    (hnext : next.kind.IsKnown) {front : List Token} (hfront : ∀ t ∈ front, t.kind.IsKnown)
    (line : Nat) (errors : Array SyntaxError) (functionDepth nesting : Nat) :
    Passing unreadable next behind
      { current := (State.pull line errors (front ++ next :: behind)).1
        ahead := (State.pull line errors (front ++ next :: behind)).2.1
        errors := (State.pull line errors (front ++ next :: behind)).2.2
        functionDepth, nesting }
      { current := (State.pull line errors (front ++ unreadable ++ next :: behind)).1
        ahead := (State.pull line errors (front ++ unreadable ++ next :: behind)).2.1
        errors := (State.pull line errors (front ++ unreadable ++ next :: behind)).2.2
        functionDepth, nesting } := by
  cases front with
  | nil =>
    rw [List.nil_append, List.nil_append, State.pull_of_isKnown hnext, pull_unreadable hu hnext]
    refine ⟨rfl, rfl, rfl, .inr ⟨rfl, errors.toList, [], ?_, ?_⟩⟩ <;> simp
  | cons token front =>
    obtain ⟨htoken, hfront⟩ := List.forall_mem_cons.1 hfront
    rw [List.cons_append, List.cons_append, List.cons_append, State.pull_of_isKnown htoken,
      State.pull_of_isKnown htoken]
    exact ⟨rfl, rfl, rfl, .inl ⟨front, hfront, rfl, rfl, rfl⟩⟩

/-- Behind the unreadable tokens, pulling comes to the same token and records the same errors. -/
theorem passing_pull_behind (line : Nat) {errors errors' : Array SyntaxError}
    (ahead : List Token) (functionDepth nesting : Nat) {before after : List SyntaxError}
    (herrors : errors.toList = before ++ after)
    (herrors' : errors'.toList = before ++ unreadable.filterMap Token.lexicalError? ++ after) :
    Passing unreadable next behind
      { current := (State.pull line errors ahead).1
        ahead := (State.pull line errors ahead).2.1
        errors := (State.pull line errors ahead).2.2
        functionDepth, nesting }
      { current := (State.pull line errors' ahead).1
        ahead := (State.pull line errors' ahead).2.1
        errors := (State.pull line errors' ahead).2.2
        functionDepth, nesting } := by
  rw [State.pull_errors line errors, State.pull_errors line errors']
  refine ⟨rfl, rfl, rfl,
    .inr ⟨rfl, before, after ++ (State.pull line #[] ahead).2.2.toList, ?_, ?_⟩⟩
  · rw [Array.toList_append, herrors, List.append_assoc]
  · rw [Array.toList_append, herrors', List.append_assoc]

/-- Steps do the same whether or not unreadable tokens are passed in front of the next program. -/
theorem simulation_passing (hu : ∀ t ∈ unreadable, t.isUnreadable = true)
    (hnext : next.kind.IsKnown) : Simulation id (Passing unreadable next behind) where
  relabelling := ⟨fun _ => rfl, fun _ => rfl⟩
  current_eq h := h.current_eq
  functionDepth_eq h := h.functionDepth_eq
  nesting_eq h := h.nesting_eq
  advanced {s s'} h := by
    by_cases heof : s.current.kind = .eof
    · rw [State.advanced_of_atEnd heof, State.advanced_of_atEnd (h.current_eq ▸ heof)]
      exact h
    · rw [State.advanced_of_ne_eof heof, State.advanced_of_ne_eof (h.current_eq ▸ heof),
        h.functionDepth_eq, h.nesting_eq, h.current_eq]
      -- In front of the unreadable tokens both runs have the same errors; behind them the second
      -- run has more.
      rcases h.rest with ⟨front, hfront, hs, hs', herrors⟩ | ⟨hahead, before, after, hs, hs'⟩
      · rw [hs, hs', herrors]
        exact passing_pull_front hu hnext hfront s.current.line s.errors _ _
      · rw [hahead]
        exact passing_pull_behind s.current.line s.ahead _ _ hs hs'
  record token cause h _ := by
    refine ⟨h.current_eq, h.functionDepth_eq, h.nesting_eq, ?_⟩
    rcases h.rest with ⟨front, hfront, hs, hs', herrors⟩ | ⟨hahead, before, after, hs, hs'⟩
    · exact .inl ⟨front, hfront, hs, hs', by simp only [State.record, herrors, id]⟩
    · refine .inr ⟨hahead, before, after ++ [⟨token, cause⟩], ?_, ?_⟩
      · simp only [State.record, Array.toList_push, hs, List.append_assoc]
      · simp only [State.record, Array.toList_push, hs', List.append_assoc, id]
  withLevels k l h :=
    ⟨h.current_eq, congrArg k h.functionDepth_eq, congrArg l h.nesting_eq, h.rest⟩

/-- Where the run without unreadable tokens has not recorded anything and stands at `next`, the
    other one is about to read the unreadable tokens and what comes behind them. -/
theorem Passing.eq_start (hu : ∀ t ∈ unreadable, t.isUnreadable = true)
    (hnext : next.kind.IsKnown) {s : State}
    (h : Passing unreadable next behind ((State.start []).at (next :: behind)) s) :
    s = State.start (unreadable ++ next :: behind) := by
  have hstart : State.start (unreadable ++ next :: behind) =
      ⟨next, behind, (unreadable.filterMap Token.lexicalError?).toArray, 0, 0⟩ := by
    rw [State.start, pull_unreadable hu hnext, Array.empty_append]
  rcases h.rest with ⟨front, -, hs, -, -⟩ | ⟨hahead, before, after, hs, hs'⟩
  · -- The token `next` does not stand behind itself.
    have hs : behind = front ++ next :: behind := hs
    have hlength := congrArg List.length hs
    simp only [List.length_append, List.length_cons] at hlength
    omega
  · -- Only the errors of the unreadable tokens have been recorded.
    obtain ⟨rfl, rfl⟩ := List.append_eq_nil_iff.1 (hs.symm : before ++ after = [])
    have herrors : s.errors = (unreadable.filterMap Token.lexicalError?).toArray := by
      rw [← Array.toList_inj, hs']
      simp
    have hcurrent : s.current = next := h.current_eq
    have hdepth : s.functionDepth = 0 := h.functionDepth_eq
    have hnesting : s.nesting = 0 := h.nesting_eq
    have hahead : s.ahead = behind := hahead
    rw [hstart]
    cases s
    exact State.mk.injEq .. ▸ ⟨hcurrent, hahead, herrors, hdepth, hnesting⟩

/-! ### Programs -/

/-- The bounds of loops do not take effect. -/
theorem simulation_eq : Simulation id (· = ·) where
  relabelling := ⟨fun _ => rfl, fun _ => rfl⟩
  current_eq h := congrArg State.current h.symm
  functionDepth_eq h := congrArg State.functionDepth h.symm
  nesting_eq h := congrArg State.nesting h.symm
  advanced h := congrArg State.advanced h
  record _ _ h _ := congrArg (State.record · _) h
  withLevels _ _ h := by rw [h]

/-- The rule for the declarations of a program. -/
abbrev readDeclaration : State → Option (Stmt Unit) × State :=
  declaration (expression maxNesting) (statement maxNesting) (block maxNesting)

/-- Reading a program to the end of the text. -/
abbrev readProgram (bound : List Token) (s : State) : List (Stmt Unit) × State :=
  declarations readDeclaration (fun _ => false) bound s

/-- Parsing is reading a program from the start, with its errors. -/
theorem parse_eq_readProgram (tokens : List Token) :
    parse tokens =
      ((readProgram (State.start tokens).remaining (State.start tokens)).1,
        (readProgram (State.start tokens).remaining (State.start tokens)).2.errors.toList) := rfl

/-- Reading a program does not depend on the bound, if all tokens are within it. -/
theorem readProgram_eq {bound bound' : List Token} {s : State} (hb : s.left ≤ bound.length)
    (hb' : s.left ≤ bound'.length) : readProgram bound s = readProgram bound' s := by
  have hrun := agreeAlways_declarations simulation_eq (agreeAlways_declaration simulation_eq _)
    (left_declaration_lt maxNesting) (fun _ => false) (rfl : s = s) hb hb'
  rw [Stmt.relabel_id, List.map_id_fun] at hrun
  exact (Prod.ext hrun.fst_eq hrun.snd.symm).symm

/-- A run over the tokens of a program, and one that is related to it: both come to where the
    tokens behind the program begin. -/
theorem readProgram_repeated {R : State → State → Prop} (hR : Simulation id R) {s : State}
    (hs : s.HasRoom maxNesting false) {tokens rest : List Token} {program : List (Stmt Unit)}
    (h : Repeated (Declaration maxNesting false) tokens program rest)
    (hrest : Follows (fun _ => True) rest) {s' : State} (hss : R (s.at tokens) s')
    {bound : List Token} (hb : s'.left ≤ bound.length) :
    ∃ t bound', R (s.at rest) t ∧ t.left ≤ bound'.length ∧
      readProgram bound s' =
        (program ++ (readProgram bound' t).1, (readProgram bound' t).2) := by
  induction h generalizing s' bound with
  | nil => exact ⟨s', bound, hss, hb, rfl⟩
  | @cons tokens between rest a as h hmore ih =>
    have hbetween : Follows (fun _ => True) between := by
      cases hmore with
      | nil => exact hrest
      | cons h _ => exact ((opens_declaration maxNesting false h).follows fun _ => id).trivial
    -- The first declaration is taken as a whole, and the related run takes it, too.
    have hfirst : readDeclaration (s.at tokens) = (some a, s.at between) :=
      declaration_at (accepts_expression _) (opens_expression _) (accepts_statement _)
        (opens_statement _ false) (accepts_block _) Block.follows hs hbetween h
    have hagree : AgreeAlways R (Option.map (Stmt.relabel id)) _ (readDeclaration (s.at tokens))
        (readDeclaration s') := agreeAlways_declaration hR maxNesting hss (Nat.le_refl _)
    rw [hfirst, Stmt.relabel_id] at hagree
    obtain ⟨token, taken, rfl, hk, -⟩ := opens_declaration maxNesting false h
    have hne : s'.current.kind ≠ .eof := by
      rw [hR.kind_eq hss]
      exact (isKnown_of_startsDeclaration hk).2.1
    -- The bound lasts, since a declaration takes a token at least.
    have hlt : (readDeclaration s').2.left < s'.left := left_declaration_lt maxNesting hne
    obtain ⟨_, bound, rfl⟩ := List.exists_cons_of_length_pos (l := bound) (by omega)
    rw [List.length_cons] at hb
    have hbound : (readDeclaration s').2.left ≤ bound.length := by omega
    obtain ⟨t, bound', ht, hb', hrun⟩ := ih hrest hagree.snd hbound
    refine ⟨t, bound', ht, hb', ?_⟩
    rw [readProgram, declarations, if_neg (by simpa [State.atEnd] using hne)]
    simp only [hagree.fst_eq, hrun]
    rfl

variable {tokens tokens' : List Token} {last last' : Token} {program : List (Stmt Unit)}

/-- **A program in front of other tokens.** Behind the tokens of a program, without its end token,
    what comes next is read as if it stood alone, unless it begins with `else`. -/
theorem parse_program_append (hlast : last.kind = .eof) (honly : ∀ t ∈ tokens, t.kind ≠ .eof)
    (h : parse (tokens ++ [last]) = (program, [])) (hlast' : last'.kind = .eof)
    (helse : ∀ first ∈ (tokens' ++ [last']).find? (!·.isUnreadable),
      first.kind ≠ Keyword.else_) :
    parse (tokens ++ (tokens' ++ [last'])) =
      (program ++ (parse (tokens' ++ [last'])).1, (parse (tokens' ++ [last'])).2) := by
  -- What comes next is some unreadable tokens and one that the grammar knows.
  have hsome : ((tokens' ++ [last']).find? (!·.isUnreadable)).isSome = true := by
    refine List.find?_isSome.2 ⟨last', by simp, ?_⟩
    rw [Token.isUnreadable_eq_false_iff.2 (by simp [hlast']), Bool.not_false]
  obtain ⟨next, hfind⟩ := Option.isSome_iff_exists.1 hsome
  have hnoElse : next.kind ≠ Keyword.else_ := helse next hfind
  obtain ⟨hreadable, unreadable, behind, hbehind, hu⟩ := List.find?_eq_some_iff_append.1 hfind
  have hnext : next.kind.IsKnown := Token.isUnreadable_eq_false_iff.1 (by simpa using hreadable)
  have hu : ∀ t ∈ unreadable, t.isUnreadable = true := by simpa using hu
  rw [hbehind]
  -- Without the unreadable tokens, the first part is a program in front of `next`.
  have hprogram := (parse_eq_nil_iff hlast honly program).1 h
  obtain ⟨all, hfront, hall⟩ := IsLocal.program hprogram (next :: behind) fun _ token htoken => by
    obtain rfl := Option.some.inj htoken
    exact hnoElse
  obtain ⟨front, htokens, rfl, hknown⟩ := hfront.exists_front
  obtain rfl := List.append_cancel_right htokens
  -- With them, the run is in the same state when it comes to `next`, but for their errors.
  have hR : Simulation id (Passing unreadable next behind) := simulation_passing hu hnext
  have hstart : Passing unreadable next behind ((State.start []).at (tokens ++ next :: behind))
      (State.start (tokens ++ (unreadable ++ next :: behind))) := by
    have hfollows : Follows (fun _ => True) (tokens ++ next :: behind) := by
      cases tokens with
      | nil => exact follows_cons rfl hnext True.intro
      | cons token tokens => exact follows_cons rfl (hknown token (by simp)) True.intro
    rw [← start_eq_at hfollows, ← List.append_assoc]
    exact passing_pull_front hu hnext hknown 1 #[] 0 0
  obtain ⟨t, bound, ht, hb, hrun⟩ := readProgram_repeated hR hasRoom_start hall
    (follows_cons rfl hnext True.intro) hstart (State.left_le_length_remaining _)
  obtain rfl := ht.eq_start hu hnext
  rw [readProgram_eq hb (State.left_le_length_remaining _)] at hrun
  rw [parse_eq_readProgram, parse_eq_readProgram, hrun]

/-- The tokens of `if (a) b;`, without the end token. -/
def openIf : List Token := (scan "if (a) b;").dropLast

/-- The tokens of `@ );`, without the end token. -/
def strayParen : List Token := (scan "@ );").dropLast

/-- The statement is there, and so are the errors at `@` and at the parenthesis. -/
theorem parse_openIf_append :
    (parse (openIf ++ [Token.eof 1])).2 = [] ∧
      (parse (openIf ++ (strayParen ++ [Token.eof 1]))).1.map Stmt.sexpr = ["(if a (; b))"] ∧
      (parse (openIf ++ (strayParen ++ [Token.eof 1]))).2.map (·.report.text) =
        ["[line 1] Error at '@': undefined token",
          "[line 1] Error at ')': Expect expression."] := by
  have hclean : (parse (openIf ++ [Token.eof 1])).2 = [] :=
    List.isEmpty_iff.1 (by decide +kernel)
  have honly : ∀ t ∈ openIf, t.kind ≠ .eof := by decide +kernel
  have helse : ((strayParen ++ [Token.eof 1]).find? (!·.isUnreadable)).all
      (fun first => first.kind != .keyword .else_) = true := by decide +kernel
  have hparse : parse (openIf ++ [Token.eof 1]) = ((parse (openIf ++ [Token.eof 1])).1, []) :=
    Prod.ext rfl hclean
  have happend := parse_program_append (Token.kind_eof 1) honly hparse (Token.kind_eof 1)
    fun first hfirst => by
      rw [Option.mem_def.1 hfirst] at helse
      simpa using helse
  rw [happend]
  exact ⟨hclean, by decide +kernel, by decide +kernel⟩

end Lox.Grammar
