import Lox.Proofs.Number.Numeral
import Lox.Proofs.Token.Lexeme

namespace Lox

/-!
# Reading words back

A word written in front of other text is read back as itself, if the text behind it cannot be
taken for a part of it. What counts is the content of a token; the line is the one on which the
word is written, and a number may be written in more than one way.

* `Token.content` — what is left of a token without line and without the way a number is written.
* `Cursor.Scans` — a text reads as some tokens, in front of other text.
* `Cursor.scans_symbol`, `scans_keyword`, `scans_identifier`, `scans_string`, `scans_number` — the
  words of each class.
-/

/-- A token without its line and, if it is a number, without its spelling. -/
def Token.content (t : Token) : Token where
  kind := t.kind
  lexeme := if t.kind = .number then "" else t.lexeme
  line := 0
  literal := t.literal

namespace Cursor

/-! ### Words in front of a text -/

/-- In front of `follow` the text reads as the tokens, as far as their content goes. -/
def Scans (text follow : List Char) (taken : List Token) : Prop :=
  ∀ line, ∃ words line', Reads ⟨text ++ follow, line⟩ words ⟨follow, line'⟩ ∧
    words.map Token.content = taken.map Token.content

/-- A text in front of another one reads as the tokens of both, if each reads as its own there. -/
theorem Scans.append {text text' follow : List Char} {taken taken' : List Token}
    (h : Scans text (text' ++ follow) taken) (h' : Scans text' follow taken') :
    Scans (text ++ text') follow (taken ++ taken') := by
  intro line
  obtain ⟨words, behind, hreads, hwords⟩ := h line
  obtain ⟨words', behind', hreads', hwords'⟩ := h' behind
  refine ⟨words ++ words', behind', ?_, ?_⟩
  · rw [List.append_assoc]
    exact hreads.append hreads'
  · rw [List.map_append, List.map_append, hwords, hwords']

/-- A space in front of words is skipped. -/
theorem Scans.blank {text follow : List Char} {taken : List Token} (h : Scans text follow taken)
    (hne : text ≠ []) : Scans (' ' :: text) follow taken := by
  intro line
  obtain ⟨words, behind, hreads, hwords⟩ := h line
  refine ⟨words, behind, hreads.blank ?_, hwords⟩
  rintro rfl
  generalize hc : (⟨text ++ follow, line⟩ : Cursor) = c at hreads
  generalize hc' : (⟨follow, behind⟩ : Cursor) = c' at hreads
  cases hreads
  have hrest := congrArg Cursor.rest (hc.trans hc'.symm)
  exact hne (List.append_left_eq_self.1 hrest)

end Cursor

/-- A token that stands in front of a text is read there. -/
theorem Token.Stands.scans {t : Token} {follow : List Char} (h : t.Stands follow) :
    Cursor.Scans t.lexeme.toList follow [t] :=
  fun line => ⟨[{ t with line }], _, .singleton (h.next_eq line) h.kind_ne_eof, rfl⟩

namespace Cursor

/-! ### Words of each class -/

/-- The characters of a symbol read as the symbol, if what follows makes no longer symbol and no
    comment of it. -/
theorem scans_symbol (s : Symbol) (line : Nat) {follow : List Char}
    (h : ∀ c ∈ follow.head?, c ≠ '=' ∧ c ≠ '/') :
    Scans s.chars follow [⟨.symbol s, s.spelling, line, none⟩] := by
  have hstands : Token.Stands ⟨.symbol s, s.spelling, line, none⟩ follow :=
    .symbol (longest_symbol s fun c hc => (h c hc).1) fun _ hslash => (h '/' hslash).2 rfl
  have hscans := hstands.scans
  rwa [Symbol.spelling, String.toList_ofList] at hscans

/-- A word is as long as it can be, if what follows is no character of words. -/
theorem longest_word {w follow : List Char} (hw : IsWord w)
    (hfollow : ∀ d ∈ follow.head?, isWordChar d = false) : Longest IsWord w follow :=
  longest_run hw fun d hd hmore =>
    Bool.eq_false_iff.1 (hfollow d hd) ((isWordChar_iff d).2 hmore)

/-- The spelling of a keyword reads as the keyword, if what follows is no character of words. -/
theorem scans_keyword (k : Keyword) (line : Nat) {follow : List Char}
    (hfollow : ∀ d ∈ follow.head?, isWordChar d = false) :
    Scans k.spelling.toList follow [⟨.keyword k, k.spelling, line, none⟩] :=
  (Token.Stands.keyword (longest_word (isWord_spelling k) hfollow)).scans

/-- A word that is no keyword reads as an identifier, if what follows is no character of words. -/
theorem scans_identifier {c : Char} {cs follow : List Char} (line : Nat)
    (hc : isWordStart c = true) (hcs : ∀ d ∈ cs, isWordChar d = true)
    (hnone : Keyword.ofWord? (String.ofList (c :: cs)) = none)
    (hfollow : ∀ d ∈ follow.head?, isWordChar d = false) :
    Scans (c :: cs) follow [⟨.identifier, String.ofList (c :: cs), line, none⟩] := by
  have hw : IsWord (c :: cs) :=
    ⟨c, cs, rfl, (isWordStart_iff c).1 hc, fun d hd => (isWordChar_iff d).1 (hcs d hd)⟩
  have hne : ∀ k : Keyword, k.spelling ≠ String.ofList (c :: cs) := by
    intro k
    simpa using List.find?_eq_none.1 hnone k k.mem_all
  have hstands : Token.Stands ⟨.identifier, String.ofList (c :: cs), line, none⟩ follow :=
    .identifier (longest_word hw hfollow) hne
  have hscans := hstands.scans
  rwa [String.toList_ofList] at hscans

/-- A quote ends a string, so nothing behind it matters. -/
theorem scans_string {body follow : List Char} (line : Nat) (hbody : '"' ∉ body) :
    Scans ('"' :: body ++ ['"']) follow [⟨.string, String.ofList ('"' :: body ++ ['"']), line,
      some (.string (String.ofList body))⟩] := by
  have hstands : Token.Stands ⟨.string, String.ofList ('"' :: body ++ ['"']), line,
      some (.string (String.ofList body))⟩ follow := .string hbody
  have hscans := hstands.scans
  rwa [String.toList_ofList] at hscans

/-! ### Numbers -/

/-- The digits of a decimal fraction make a numeral. -/
theorem isNumeral_chars (d : Decimal) : IsNumeral d.chars := by
  have hwhole : IsDigits d.wholeDigits := ⟨Nat.toDigits_ne_nil, Decimal.isDigit_toDigits⟩
  rcases d.chars_cases with ⟨-, hchars⟩ | ⟨hne, hchars⟩
  · rw [hchars]
    exact .inl hwhole
  · exact .inr ⟨d.wholeDigits, d.fractionDigits, hchars, hwhole, hne, d.isDigit_fractionDigits⟩

/-- A number is read from a numeral of a decimal fraction, whatever it was written like before. -/
theorem scans_number (d : Decimal) (lexeme : String) (line : Nat) {follow : List Char}
    (hfollow : ∀ c ∈ follow.head?, c.isDigit = false ∧ c ≠ '.') :
    Scans d.chars follow
      [⟨.number, lexeme, line, some (.number (Number.ofNumeral d.chars))⟩] := by
  have hstands : Token.Stands ⟨.number, String.ofList d.chars, line,
      some (.number (Number.ofNumeral d.chars))⟩ follow :=
    .number (longest_numeral (isNumeral_chars d) hfollow)
  have hscans := hstands.scans
  rwa [String.toList_ofList] at hscans

end Cursor

end Lox
