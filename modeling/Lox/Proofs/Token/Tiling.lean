import Lox.Proofs.Token.Standing

namespace Lox

/-!
# Texts and their tokens

A text is a row of tiles: gaps, and the lexemes of its tokens between them, with nothing left over.
This says of a text and some tokens all that there is to say, so it fixes the tokens of a text, and
scanning finds them.

* `Tiles` — gaps and tokens make up a text.
* `Cursor.Reads.tiles`, `Tiles.exists_reads` — what is read tiles the text, and the other way round.
* `tiles_iff_scan` — the tokens that tile a text are those that scanning yields.
-/

open Cursor

/-- Behind some text, gaps and the lexemes of tokens make up the rest of a text, to its end, where
    the end token is. Each token has the number of the line on which its lexeme starts. -/
inductive Tiles : (before rest : List Char) → List Token → Prop
  | last {before gap : List Char} :
      Gap gap [] → Tiles before gap [Token.eof (1 + (before ++ gap).count '\n')]
  | word {before gap rest : List Char} {t : Token} {tokens : List Token} :
      Gap gap (t.lexeme.toList ++ rest) → t.Stands rest →
      t.line = 1 + (before ++ gap).count '\n' →
      Tiles (before ++ gap ++ t.lexeme.toList) rest tokens →
      Tiles before (gap ++ (t.lexeme.toList ++ rest)) (t :: tokens)

/-- The words that are read tile the text. -/
theorem Cursor.Reads.tiles {c c' : Cursor} {words : List Token} (h : Reads c words c')
    (hend : c'.next.1.kind = .eof) {before : List Char} (hline : c.line = 1 + before.count '\n') :
    Tiles before c.rest (words ++ [c'.next.1]) := by
  induction h generalizing before with
  | nil c =>
    obtain ⟨hgap, hnext⟩ := gap_of_kind_eq_eof hend
    rw [hnext, hline, Nat.add_assoc, ← List.count_append]
    exact .last hgap
  | @cons c c' words hk _ ih =>
    obtain ⟨gap, hrest, hgap, hstands, hword, hbehind⟩ := exists_gap_of_kind_ne_eof hk
    rw [hline, Nat.add_assoc, ← List.count_append] at hword
    rw [hword, Nat.add_assoc, ← List.count_append] at hbehind
    rw [hrest]
    exact .word hgap hstands hword (ih hend hbehind)

/-- What tiles a text is read off it. -/
theorem Tiles.exists_reads {before cs : List Char} {tokens : List Token}
    (h : Tiles before cs tokens) :
    ∃ words c, Reads ⟨cs, 1 + before.count '\n'⟩ words c ∧ c.next.1.kind = .eof ∧
      tokens = words ++ [c.next.1] := by
  induction h with
  | @last before gap hgap =>
    have hnext : next ⟨gap, 1 + before.count '\n'⟩ =
        (Token.eof (1 + (before ++ gap).count '\n'), ⟨[], 1 + (before ++ gap).count '\n'⟩) := by
      have hgap := hgap.next_eq (1 + before.count '\n')
      rw [List.append_nil, Nat.add_assoc, ← List.count_append] at hgap
      exact hgap
    exact ⟨[], _, .nil _, by rw [hnext]; rfl, by rw [hnext]; rfl⟩
  | @word before gap rest t tokens hgap hstands hline _ ih =>
    obtain ⟨words, c, hreads, hend, rfl⟩ := ih
    -- The line on which the word is read is that of the gap behind its line feeds.
    have hnext : next ⟨gap ++ (t.lexeme.toList ++ rest), 1 + before.count '\n'⟩ =
        (t, ⟨rest, 1 + (before ++ gap ++ t.lexeme.toList).count '\n'⟩) := by
      rw [hgap.next_eq, hstands.next_eq, List.count_append, List.count_append,
        ← Nat.add_assoc, ← Nat.add_assoc, Nat.add_assoc 1]
      rw [List.count_append] at hline
      rw [← hline]
    have hk : t.kind ≠ .eof := hstands.kind_ne_eof
    exact ⟨t :: words, c, (Reads.singleton hnext hk).append hreads, hend, rfl⟩

/-- At the end of the text there is only the end token. -/
theorem Tiles.eq_of_nil {before : List Char} {tokens : List Token} (h : Tiles before [] tokens) :
    ∃ line, tokens = [Token.eof line] := by
  generalize hcs : ([] : List Char) = cs at h
  cases h with
  | last => exact ⟨_, rfl⟩
  | word _ hstands =>
    obtain ⟨-, happend⟩ := List.append_eq_nil_iff.1 hcs.symm
    exact absurd (List.append_eq_nil_iff.1 happend).1 hstands.toList_lexeme_ne_nil

/-- A string that nothing ends takes all the rest of the text. -/
theorem Tiles.eq_of_unterminated {before cs : List Char} {front behind : List Token} {t : Token}
    (h : Tiles before cs (front ++ t :: behind)) (hk : t.kind = .invalid .unterminatedString) :
    ∃ line, behind = [Token.eof line] := by
  generalize htokens : front ++ t :: behind = tokens at h
  induction h generalizing front with
  | last =>
    rcases List.append_eq_singleton_iff.1 htokens with ⟨-, heq⟩ | ⟨-, heq⟩
    · obtain ⟨rfl, -⟩ := List.cons.inj heq
      cases hk
    · cases heq
  | @word before gap rest u tokens _ hstands _ htiles ih =>
    cases front with
    | nil =>
      -- Such a string stands in front of the end of the text only.
      obtain ⟨rfl, rfl⟩ := List.cons.inj htokens
      cases hstands with
      | unterminated => exact htiles.eq_of_nil
      | _ => cases hk
    | cons u' front => exact ih (List.cons.inj htokens).2

/-- No token is further down than the line feeds of the text lead. -/
theorem Tiles.line_le {before cs : List Char} {tokens : List Token} (h : Tiles before cs tokens) :
    ∀ t ∈ tokens, t.line ≤ 1 + (before ++ cs).count '\n' := by
  induction h with
  | last => exact List.forall_mem_singleton.2 (Nat.le_refl _)
  | @word before gap rest t tokens _ _ hline _ ih =>
    simp only [List.append_assoc] at ih
    refine List.forall_mem_cons.2 ⟨?_, ih⟩
    rw [hline, ← List.append_assoc]
    exact Nat.add_le_add_left ((List.sublist_append_left _ _).count_le '\n') 1

/-- **The tokens of a text tile it.** Gaps and lexemes, one after the other, are the whole text;
    each lexeme is the longest word of its class where it stands, or a string; each token has the
    line, the kind and the literal that go with the place and the lexeme. There is one way only to
    tile a text, and scanning finds it. It ends in the end token, which stands nowhere else, and a
    string that nothing ends can only be the last token before that. Lines are counted up to the
    number of line feeds and one. -/
theorem tiles_iff_scan (source : String) :
    (∀ tokens, Tiles [] source.toList tokens ↔ tokens = scan source) ∧
      (∃ words line, scan source = words ++ [Token.eof line] ∧ (∀ t ∈ words, t.kind ≠ .eof) ∧
        ∀ front t behind, words = front ++ t :: behind →
          t.kind = .invalid .unterminatedString → behind = []) ∧
      ∀ t ∈ scan source, t.line ≤ 1 + source.toList.count '\n' := by
  obtain ⟨words, c, hreads, hend, hscan⟩ := scan_eq_append source
  have htiles : Tiles [] source.toList (scan source) := by
    rw [hscan]
    exact hreads.tiles hend rfl
  refine ⟨fun tokens => ⟨fun h => ?_, fun h => h ▸ htiles⟩, ⟨words, ?_⟩, htiles.line_le⟩
  · obtain ⟨words', c', hreads', hend', rfl⟩ := h.exists_reads
    exact (scan_of_reads hreads' hend').symm
  · rw [(gap_of_kind_eq_eof hend).2] at hscan
    refine ⟨_, hscan, hreads.kind_ne, fun front t behind hwords hk => ?_⟩
    rw [hscan, hwords, List.append_assoc, List.cons_append] at htiles
    obtain ⟨line', hbehind⟩ := htiles.eq_of_unterminated hk
    exact (List.append_eq_singleton_iff.1 hbehind).elim And.left fun h => by cases h.2

end Lox
