import Lox.Proofs.Token.Standing

namespace Lox

/-!
# Lexemes with spaces between them

Whatever follows a word in its own text, in front of a space it is still the longest of its class.
So the lexemes of any tokens, written with single spaces between them, read as these tokens again.
The one exception is a string that nothing ends: it takes all that follows, so it can only come
last.

* `Token.SameButLine` — tokens that differ in their lines at the most.
* `Token.Stands.of_space` — a word stands in front of a space as well.
* `exists_reads_spaced` — lexemes with spaces between them are read one by one.
* `scan_spaced` — the tokens of such a text.
-/

open Cursor

/-- The tokens are the same, except that they may be on different lines. -/
def Token.SameButLine (t u : Token) : Prop := t = { u with line := t.line }

/-- What stands in front of some text stands in front of a space and of the end, too. -/
theorem Token.Stands.of_space {t : Token} {rest rest' : List Char} (h : t.Stands rest)
    (hrest : ∀ c ∈ rest'.head?, c = ' ')
    (hk : t.kind = .invalid .unterminatedString → rest' = []) : t.Stands rest' := by
  cases rest' with
  | nil => exact h.of_prefix List.nil_prefix
  | cons c rest' =>
    obtain rfl : c = ' ' := hrest c rfl
    have hk' : t.kind ≠ .invalid .unterminatedString := fun h => List.cons_ne_nil _ _ (hk h)
    exact h.insert List.nil_prefix (.inl (.inl rfl))
      (fun _ => ⟨hk', fun h => absurd h (by decide)⟩) rest'

/-- The tokens of a text, the end token apart, stand in it. -/
theorem exists_stands_of_mem_scan {t : Token} {source : String} (h : t ∈ scan source)
    (hk : t.kind ≠ .eof) : ∃ rest, t.Stands rest := by
  obtain ⟨words, c, hreads, hend, hscan⟩ := scan_eq_append source
  have hwords : ∀ word ∈ words, word.kind ≠ .eof → ∃ rest, word.Stands rest := by
    refine hreads.forall_mem fun c hk => ?_
    obtain ⟨gap, -, -, hstands, -⟩ := exists_gap_of_kind_ne_eof hk
    exact ⟨c.next.2.rest, hstands⟩
  rw [hscan] at h
  rcases List.mem_append.1 h with h | h
  · exact hwords t h hk
  · rw [List.mem_singleton.1 h] at hk
    exact absurd hend hk

/-- Lexemes with spaces between them are read one by one. -/
theorem exists_reads_spaced {tokens : List Token} (hstands : ∀ t ∈ tokens, ∃ rest, t.Stands rest)
    (hlast : ∀ t ∈ tokens.dropLast, t.kind ≠ .invalid .unterminatedString) (line : Nat) :
    ∃ words line', Reads ⟨(" ".intercalate (tokens.map Token.lexeme)).toList, line⟩ words
        ⟨[], line'⟩ ∧ List.Forall₂ Token.SameButLine words tokens := by
  induction tokens generalizing line with
  | nil => exact ⟨[], line, .nil _, .nil⟩
  | cons t tokens ih =>
    obtain ⟨⟨rest, ht⟩, htokens⟩ := List.forall_mem_cons.1 hstands
    cases tokens with
    | nil =>
      have ht : t.Stands [] := ht.of_space (by simp) fun _ => rfl
      have hnext := ht.next_eq line
      rw [List.append_nil] at hnext
      simp only [List.map_cons, List.map_nil, String.intercalate_singleton]
      exact ⟨[{ t with line }], _, .singleton hnext ht.kind_ne_eof, .cons rfl .nil⟩
    | cons u tokens =>
      rw [List.dropLast_cons_cons] at hlast
      obtain ⟨hk, hlast⟩ := List.forall_mem_cons.1 hlast
      let behind := " ".intercalate ((u :: tokens).map Token.lexeme)
      have htext : (" ".intercalate ((t :: u :: tokens).map Token.lexeme)).toList =
          t.lexeme.toList ++ ' ' :: behind.toList := by
        simp [behind, String.intercalate_cons_cons]
      -- Another token follows, so this one is no string without an end.
      have ht : t.Stands (' ' :: behind.toList) := ht.of_space (by simp) fun h => absurd h hk
      have hnext := ht.next_eq line
      obtain ⟨words, line', hreads, hsame⟩ := ih htokens hlast (line + t.lexeme.toList.count '\n')
      have hne : words ≠ [] := by
        rintro rfl
        cases hsame
      rw [htext]
      exact ⟨{ t with line } :: words, line',
        (Reads.singleton hnext ht.kind_ne_eof).append (hreads.blank hne), .cons rfl hsame⟩

/-- **Lexemes read as the tokens that they come from.** Take any tokens of any texts, the end token
    apart, with a string that nothing ends only at the last place: their lexemes, with single spaces
    between them, read as the same tokens again, and on the end token. Nothing but the lines may be
    different. -/
theorem scan_spaced {tokens : List Token}
    (hscanned : ∀ t ∈ tokens, t.kind ≠ .eof ∧ ∃ source, t ∈ scan source)
    (hlast : ∀ t ∈ tokens.dropLast, t.kind ≠ .invalid .unterminatedString) :
    ∃ words line, scan (" ".intercalate (tokens.map Token.lexeme)) = words ++ [Token.eof line] ∧
      List.Forall₂ Token.SameButLine words tokens := by
  have hstands : ∀ t ∈ tokens, ∃ rest, t.Stands rest := by
    intro t ht
    obtain ⟨hk, source, hmem⟩ := hscanned t ht
    exact exists_stands_of_mem_scan hmem hk
  obtain ⟨words, line, hreads, hsame⟩ := exists_reads_spaced hstands hlast 1
  exact ⟨words, line, scan_of_reads hreads rfl, hsame⟩

/-- The first tokens of some texts, cut off from what follows: `!` from a `=`, `1` from a point, an
    unreadable word, a string with a comment and a line feed in it, and one that nothing ends. -/
def cuttings : List Token :=
  ["! =", "1.", "@\"// x", "\"//\n\";", "\"a b"].flatMap fun source => (scan source).take 1

/-- With spaces in between, the lexemes read as the tokens that they are cut from. -/
theorem scan_cuttings :
    (∀ t ∈ cuttings, t.kind ≠ .eof ∧ ∃ source, t ∈ scan source) ∧
      (∀ t ∈ cuttings.dropLast, t.kind ≠ .invalid .unterminatedString) ∧
      ∃ words line, scan "! 1 @\"// \"//\n\" \"a b" = words ++ [Token.eof line] ∧
        List.Forall₂ Token.SameButLine words cuttings := by
  have hscanned : ∀ t ∈ cuttings, t.kind ≠ .eof ∧ ∃ source, t ∈ scan source := by
    intro t ht
    refine ⟨?_, ?_⟩
    · have hkinds : ∀ k ∈ cuttings.map Token.kind, k ≠ .eof := by decide +kernel
      exact hkinds _ (List.mem_map_of_mem ht)
    · obtain ⟨source, -, hmem⟩ := List.mem_flatMap.1 ht
      exact ⟨source, List.mem_of_mem_take hmem⟩
  have hlast : ∀ t ∈ cuttings.dropLast, t.kind ≠ .invalid .unterminatedString := by
    intro t ht
    have hkinds : ∀ k ∈ cuttings.dropLast.map Token.kind, k ≠ .invalid .unterminatedString := by
      decide +kernel
    exact hkinds _ (List.mem_map_of_mem ht)
  have htext : " ".intercalate (cuttings.map Token.lexeme) = "! 1 @\"// \"//\n\" \"a b" := by
    decide +kernel
  obtain ⟨words, line, hscan, hsame⟩ := scan_spaced hscanned hlast
  rw [htext] at hscan
  exact ⟨hscanned, hlast, words, line, hscan, hsame⟩

end Lox
