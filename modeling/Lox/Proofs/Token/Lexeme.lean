import Lox.Proofs.Token.Standing

namespace Lox

/-!
# Lexemes

What a token has to do with the text that it is read from: the lexeme stands there as it is, and
kind and literal go with the lexeme.

* `Token.IsScanned` — the tokens that scanning yields.
* `Cursor.isScanned_next` — every token that is read is one of them.
* `line_eq_of_mem_scan` — in a text without line feeds, all tokens are on one line.
-/

/-- The tokens that scanning yields: kind, lexeme and literal go together. -/
inductive Token.IsScanned : Token → Prop
  | symbol (s : Symbol) (line : Nat) : IsScanned ⟨.symbol s, s.spelling, line, none⟩
  | keyword (k : Keyword) (line : Nat) : IsScanned ⟨.keyword k, k.spelling, line, none⟩
  | identifier {c : Char} {cs : List Char} (line : Nat) :
      Cursor.isWordStart c = true → (∀ d ∈ cs, Cursor.isWordChar d = true) →
      Keyword.ofWord? (String.ofList (c :: cs)) = none →
      IsScanned ⟨.identifier, String.ofList (c :: cs), line, none⟩
  | string {body : List Char} (line : Nat) : '"' ∉ body →
      IsScanned ⟨.string, String.ofList ('"' :: body ++ ['"']), line,
        some (.string (String.ofList body))⟩
  | number (numeral : List Char) (line : Nat) :
      IsScanned ⟨.number, String.ofList numeral, line,
        some (.number (Number.ofNumeral numeral))⟩
  | invalid (cause : LexicalError) (lexeme : String) (line : Nat) :
      IsScanned ⟨.invalid cause, lexeme, line, none⟩
  | eof (line : Nat) : IsScanned (Token.eof line)

/-- A word that stands in a text is made as the scanner makes it. -/
theorem Token.Stands.isScanned {t : Token} {rest : List Char} (h : t.Stands rest) :
    t.IsScanned := by
  cases h with
  | @keyword k line => exact .keyword k line
  | @identifier w line _ hw hne =>
    obtain ⟨c, cs, rfl, hc, hcs⟩ := hw.1
    have hnone : Keyword.ofWord? (String.ofList (c :: cs)) = none :=
      List.find?_eq_none.2 fun k _ => by simpa using hne k
    exact .identifier line ((isWordStart_iff c).2 hc) (fun d hd => (isWordChar_iff d).2 (hcs d hd))
      hnone
  | @number w line => exact .number w line
  | @symbol s line => exact .symbol s line
  | @string body line _ hbody => exact .string line hbody
  | @unterminated body line => exact .invalid _ _ line
  | @unreadable w line => exact .invalid _ _ line

namespace Cursor

/-- Every token that is read is one that scanning yields. -/
theorem isScanned_next (c : Cursor) : c.next.1.IsScanned := by
  by_cases hk : c.next.1.kind = .eof
  · rw [(gap_of_kind_eq_eof hk).2]
    exact .eof _
  · obtain ⟨gap, -, -, hstands, -⟩ := exists_gap_of_kind_ne_eof hk
    exact hstands.isScanned

/-- The characters of the words that are read stand in the text. -/
theorem Reads.mem_of_mem {c c' : Cursor} {words : List Token} (h : Reads c words c') {ch : Char} :
    (∀ word ∈ words, ch ∈ word.lexeme.toList → ch ∈ c.rest) ∧ (ch ∈ c'.rest → ch ∈ c.rest) := by
  induction h with
  | nil => exact ⟨fun _ hword => absurd hword List.not_mem_nil, id⟩
  | @cons c c' words hk _ ih =>
    obtain ⟨gap, hgap, -⟩ := exists_gap_of_kind_ne_eof hk
    rw [hgap]
    refine ⟨fun word hword hmem => ?_, fun hmem => ?_⟩
    · rcases List.mem_cons.1 hword with rfl | hword
      · exact List.mem_append_right _ (List.mem_append_left _ hmem)
      · exact List.mem_append_right _ (List.mem_append_right _ (ih.1 word hword hmem))
    · exact List.mem_append_right _ (List.mem_append_right _ (ih.2 hmem))

/-! ### Texts without line feeds -/

/-- In a text without line feeds, all tokens are on one line. -/
theorem Reads.line_eq {c c' : Cursor} {words : List Token} (h : Reads c words c')
    (hrest : '\n' ∉ c.rest) : (∀ word ∈ words, word.line = c.line) ∧ c'.line = c.line := by
  induction h with
  | nil => exact ⟨fun _ hword => absurd hword List.not_mem_nil, rfl⟩
  | @cons c c' words hk _ ih =>
    obtain ⟨gap, hgap, -, -, hword, hbehind⟩ := exists_gap_of_kind_ne_eof hk
    rw [hgap, List.mem_append, List.mem_append, not_or, not_or] at hrest
    obtain ⟨hgap, hlexeme, hrest⟩ := hrest
    rw [List.count_eq_zero.2 hgap] at hword
    rw [List.count_eq_zero.2 hlexeme] at hbehind
    obtain ⟨hwords, hlast⟩ := ih hrest
    rw [hbehind, hword] at hwords hlast
    exact ⟨List.forall_mem_cons.2 ⟨hword, hwords⟩, hlast⟩

end Cursor

open Cursor

/-- In a text without line feeds all tokens are on the first line. -/
theorem line_eq_of_mem_scan {source : String} (h : '\n' ∉ source.toList) :
    ∀ t ∈ scan source, t.line = 1 := by
  obtain ⟨words, c, hreads, hend, hscan⟩ := scan_eq_append source
  obtain ⟨hwords, hline⟩ := hreads.line_eq h
  have hcount : c.rest.count '\n' = 0 :=
    List.count_eq_zero.2 fun hmem => h (hreads.mem_of_mem.2 hmem)
  rw [hscan, (gap_of_kind_eq_eof hend).2, hcount, hline]
  exact List.forall_mem_append.2 ⟨hwords, List.forall_mem_singleton.2 rfl⟩

end Lox
