import Lox.Proofs.Grammar.Parallel
import Lox.Proofs.Grammar.Sound

namespace Lox

/-!
# The parser looks at kinds and literals only

Spellings and lines of tokens are handed on to trees and errors, but nothing is decided by them. So
changing them before parsing is the same as changing them afterwards. This is what allows to number
the tokens of a text by their lines, and to compare two texts that differ in layout.

* `Grammar.Relabelled f` — the relation of a state to the one with its tokens relabelled.
* `Grammar.simulation_relabelled` — the steps of the parser keep that relation.
* `parse_map`, `parseExpression_map` — parsing relabelled tokens.
-/

namespace Grammar

/-- Applies a function to the tokens in a state. -/
def State.relabel (f : Token → Token) (s : State) : State where
  current := f s.current
  ahead := s.ahead.map f
  errors := s.errors.map (SyntaxError.relabel f)
  functionDepth := s.functionDepth
  nesting := s.nesting

/-- A state and the same one with its tokens relabelled. An end token is left to be read, so that
    none is made up behind the tokens. -/
def Relabelled (f : Token → Token) (s s' : State) : Prop := s.HasEnd ∧ s' = s.relabel f

section

variable {f : Token → Token} (hf : Token.IsRelabelling f)

include hf

/-- Pulling a token from tokens that are changed gives what pulling from the others does,
    changed. -/
theorem pull_map (line line' : Nat) (errors : Array SyntaxError) {ahead : List Token}
    (hend : ∃ token ∈ ahead, token.kind = .eof) :
    State.pull line' (errors.map (SyntaxError.relabel f)) (ahead.map f) =
      (f (State.pull line errors ahead).1, (State.pull line errors ahead).2.1.map f,
        (State.pull line errors ahead).2.2.map (SyntaxError.relabel f)) := by
  induction ahead generalizing errors with
  | nil => simp at hend
  -- An unreadable token stays unreadable, and its error is recorded with the token changed.
  | cons token ahead ih =>
    by_cases hknown : token.kind.IsKnown
    · have hknown' : (f token).kind.IsKnown := by
        rwa [hf.kind_eq]
      rw [List.map_cons, State.pull_of_isKnown hknown, State.pull_of_isKnown hknown']
    · obtain ⟨cause, hc⟩ : ∃ cause, token.kind = .invalid cause := by
        simpa [Token.Kind.IsKnown] using hknown
      have hc' : (f token).kind = .invalid cause := by
        rwa [hf.kind_eq]
      have hend' : ∃ token ∈ ahead, token.kind = .eof := by
        obtain ⟨last, hl, hk⟩ := hend
        rcases List.mem_cons.1 hl with rfl | hl
        · rw [hc] at hk
          exact absurd hk (by simp)
        · exact ⟨last, hl, hk⟩
      rw [List.map_cons, State.pull_of_invalid hc, State.pull_of_invalid hc', ← ih _ hend']
      congr 1
      simp [SyntaxError.relabel]

/-- Taking a token commutes with a change of tokens, as long as there is an end among them. -/
theorem State.relabel_advanced {s : State} (hs : s.HasEnd) :
    (s.relabel f).advanced = s.advanced.relabel f := by
  have hkind : (s.relabel f).current.kind = s.current.kind := hf.kind_eq _
  by_cases hend : s.current.kind = .eof
  · rw [State.advanced_of_atEnd hend, State.advanced_of_atEnd (hkind.trans hend)]
  · have hahead : ∃ token ∈ s.ahead, token.kind = .eof := by
      obtain ⟨last, hl, hk⟩ := hs
      rcases List.mem_cons.1 hl with rfl | hl
      · exact absurd hk hend
      · exact ⟨last, hl, hk⟩
    rw [State.advanced_of_ne_eof hend, State.advanced_of_ne_eof (hkind ▸ hend)]
    simp only [State.relabel, pull_map hf s.current.line _ s.errors hahead]

/-- Steps on changed tokens do what they do on the others. -/
theorem simulation_relabelled : Simulation f (Relabelled f) where
  relabelling := hf
  current_eq h := by rw [h.2, State.relabel]
  functionDepth_eq h := by rw [h.2, State.relabel]
  nesting_eq h := by rw [h.2, State.relabel]
  advanced {s _} h := by
    obtain ⟨hend, rfl⟩ := h
    exact ⟨(later_advanced s).hasEnd hend, State.relabel_advanced hf hend⟩
  record token _ h _ := by
    obtain ⟨hend, rfl⟩ := h
    refine ⟨hend, ?_⟩
    simp [State.record, State.relabel, SyntaxError.relabel]
  withLevels k l h := by
    obtain ⟨hend, rfl⟩ := h
    exact ⟨hend, rfl⟩

/-- Reading changed tokens starts in the state that reading the others does, changed. -/
theorem relabel_start {tokens : List Token} (hend : ∃ token ∈ tokens, token.kind = .eof) :
    Relabelled f (State.start tokens) (State.start (tokens.map f)) := by
  have hpull := pull_map hf 1 1 #[] hend
  refine ⟨State.exists_eof_pull 1 #[] hend, ?_⟩
  rw [Array.map_empty] at hpull
  simp only [State.start, State.relabel, hpull]

end

end Grammar

open Grammar

variable {f : Token → Token}

/-- **Parsing relabelled tokens** gives the relabelled program and the relabelled errors. -/
theorem parse_map (hf : Token.IsRelabelling f) {tokens : List Token}
    (hend : ∃ token ∈ tokens, token.kind = .eof) :
    parse (tokens.map f) = ((parse tokens).1.map (Stmt.relabel f),
      (parse tokens).2.map (SyntaxError.relabel f)) := by
  obtain ⟨hprogram, t, t', -, ⟨-, rfl⟩, herrors, herrors'⟩ :=
    agree_parse (simulation_relabelled hf) (relabel_start hf hend)
  refine Prod.ext hprogram ?_
  rw [herrors, herrors', State.relabel, Array.toList_map]

/-- Reading an expression from relabelled tokens gives the relabelled expression or the relabelled
    errors. -/
theorem parseExpression_map (hf : Token.IsRelabelling f) {tokens : List Token}
    (hend : ∃ token ∈ tokens, token.kind = .eof) :
    parseExpression (tokens.map f) =
      match parseExpression tokens with
      | .ok e => .ok (e.relabel f)
      | .error errors => .error (errors.map (SyntaxError.relabel f)) := by
  have hrun := agrees_expression (simulation_relabelled hf) maxNesting (relabel_start hf hend)
    (Nat.le_refl _)
  rw [parseExpression, parseExpression]
  generalize expression maxNesting (State.start tokens) = result at hrun
  generalize expression maxNesting (State.start (tokens.map f)) = result' at hrun
  cases hrun with
  | error _ _ ht =>
    obtain ⟨-, rfl⟩ := ht
    simp [State.relabel, State.record, SyntaxError.relabel]
  | @ok e t _ _ ht =>
    obtain ⟨-, rfl⟩ := ht
    -- Both runs end alike, at the end of the tokens or in front of it, with errors or without.
    have hatEnd : (t.relabel f).atEnd = t.atEnd := by
      rw [State.atEnd, State.atEnd, ← hf.kind_eq t.current]
      rfl
    simp only [hatEnd]
    by_cases hend : t.atEnd = true
    · simp only [hend, if_true]
      by_cases hempty : t.errors.isEmpty = true
      · have hempty' : (t.relabel f).errors.isEmpty = true := by
          simpa [State.relabel] using hempty
        rw [if_pos hempty, if_pos hempty']
      · have hempty' : ¬(t.relabel f).errors.isEmpty = true := by
          simpa [State.relabel] using hempty
        rw [if_neg hempty, if_neg hempty']
        simp [State.relabel]
    · simp [hend, State.record, State.relabel, SyntaxError.relabel]

end Lox
