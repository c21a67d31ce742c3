import Lox.Proofs.Token.Rescan

namespace Lox

/-!
# Texts for tokens

How words may stand next to each other. What may follow a text is told by one character: behind a
symbol, one that does not make another symbol or a comment out of it; behind any other word, a
delimiter. So texts are put together by a look at the first character of the second one.

* `Cursor.EndsSymbol`, `Cursor.Delimits` — the two classes of characters.
* `Cursor.Written` — a text that reads as some tokens in front of such a character.
* `Token.IsScanned.written_symbol`, `written_keyword`, `written_identifier`, `written_string` — the
  lexeme of a token is a text for it.
* `Cursor.written_number` — for a number, the text of its value is.
-/

namespace Cursor

/-- The character leaves a symbol in front of it what it is. -/
def EndsSymbol (c : Char) : Prop := c ≠ '=' ∧ c ≠ '/'

/-- The character belongs neither to the word in front of it nor to a longer one. -/
def Delimits (c : Char) : Prop := c = ' ' ∨ c = '(' ∨ c = ')' ∨ c = ','

/-- A delimiter makes no longer symbol and no comment of what stands in front of it. -/
theorem Delimits.endsSymbol {c : Char} (h : Delimits c) : EndsSymbol c := by
  rcases h with rfl | rfl | rfl | rfl <;> exact ⟨by decide, by decide⟩

/-- A delimiter belongs to no word. -/
theorem Delimits.isWordChar_eq {c : Char} (h : Delimits c) : isWordChar c = false := by
  rcases h with rfl | rfl | rfl | rfl <;> rfl

/-- A delimiter belongs to no numeral. -/
theorem Delimits.not_numeral {c : Char} (h : Delimits c) : c.isDigit = false ∧ c ≠ '.' := by
  rcases h with rfl | rfl | rfl | rfl <;> exact ⟨rfl, by decide⟩

/-- The text begins with such a character. -/
def StartsWith (ends : Char → Prop) (text : List Char) : Prop := ∃ c cs, text = c :: cs ∧ ends c

/-- The text is one for these tokens: in front of such a character it reads as them, and its line
    feeds are theirs. -/
structure Written (ends : Char → Prop) (text : List Char) (taken : List Token) : Prop where
  scans : ∀ follow : List Char, (∀ c ∈ follow.head?, ends c) → Scans text follow taken
  lineFeed : '\n' ∈ text → ∃ t ∈ taken, '\n' ∈ t.lexeme.toList

namespace Written

variable {ends ends' : Char → Prop} {text text' : List Char} {taken taken' : List Token}

/-- The empty text is one for no tokens. -/
theorem nil : Written ends [] [] where
  scans _ _ line := ⟨[], line, .nil _, rfl⟩
  lineFeed hmem := absurd hmem List.not_mem_nil

/-- A text may also stand in front of characters of a smaller class. -/
theorem mono (h : Written ends text taken) (himp : ∀ c, ends' c → ends c) :
    Written ends' text taken where
  scans follow hfollow := h.scans follow fun c hc => himp c (hfollow c hc)
  lineFeed := h.lineFeed

/-- A text in front of another one, which begins with a character that may follow it, reads as the
    tokens of both. -/
theorem append (h : Written ends text taken) (hstart : StartsWith ends text')
    (h' : Written ends' text' taken') : Written ends' (text ++ text') (taken ++ taken') where
  scans follow hfollow := by
    -- What follows the first text is the second one, so its first character counts.
    refine (h.scans _ fun c hc => ?_).append (h'.scans follow hfollow)
    obtain ⟨d, ds, rfl, hd⟩ := hstart
    obtain rfl := Option.some.inj hc
    exact hd
  lineFeed hmem := by
    rcases List.mem_append.1 hmem with hmem | hmem
    · obtain ⟨t, ht, hline⟩ := h.lineFeed hmem
      exact ⟨t, List.mem_append_left _ ht, hline⟩
    · obtain ⟨t, ht, hline⟩ := h'.lineFeed hmem
      exact ⟨t, List.mem_append_right _ ht, hline⟩

/-- A space in front is skipped. -/
theorem blank (h : Written ends text taken) (hne : text ≠ []) :
    Written ends (' ' :: text) taken where
  scans follow hfollow := (h.scans follow hfollow).blank hne
  lineFeed hmem := h.lineFeed (List.mem_of_ne_of_mem (by decide) hmem)

/-- Texts with spaces between them. -/
theorem spaced {op : List Char} {token : Token} (h : Written Delimits text taken)
    (hop : Written Delimits op [token]) (hne : op ≠ []) (h' : Written Delimits text' taken')
    (hne' : text' ≠ []) :
    Written Delimits (text ++ ' ' :: (op ++ ' ' :: text')) (taken ++ token :: taken') := by
  have hblank (cs : List Char) : StartsWith Delimits (' ' :: cs) := ⟨' ', cs, rfl, .inl rfl⟩
  have hright : Written Delimits (op ++ ' ' :: text') (token :: taken') :=
    hop.append (hblank _) (h'.blank hne')
  exact h.append (hblank _) (hright.blank (List.append_ne_nil_of_left_ne_nil hne _))

end Written

/-- A text that begins with a character is not empty. -/
theorem StartsWith.ne_nil {ends : Char → Prop} {text : List Char} (h : StartsWith ends text) :
    text ≠ [] := by
  obtain ⟨c, cs, rfl, -⟩ := h
  exact List.cons_ne_nil c cs

/-- A text begins with the same character when another one is put behind it. -/
theorem StartsWith.append {ends : Char → Prop} {text : List Char} (h : StartsWith ends text)
    (text' : List Char) : StartsWith ends (text ++ text') := by
  obtain ⟨c, cs, rfl, hc⟩ := h
  exact ⟨c, cs ++ text', rfl, hc⟩

end Cursor

/-! ### The words of a text -/

namespace Token.IsScanned

open Cursor

variable {t : Token}

/-- A symbol that is scanned has its spelling as its lexeme, and no literal. -/
theorem symbol_eq {s : Symbol} (ht : t.IsScanned) (hk : t.kind = .symbol s) :
    t = ⟨.symbol s, s.spelling, t.line, none⟩ := by
  cases ht <;> cases hk
  rfl

/-- A keyword that is scanned has its spelling as its lexeme, and no literal. -/
theorem keyword_eq {k : Keyword} (ht : t.IsScanned) (hk : t.kind = .keyword k) :
    t = ⟨.keyword k, k.spelling, t.line, none⟩ := by
  cases ht <;> cases hk
  rfl

/-- The lexeme of a symbol has the characters of the symbol. -/
theorem toList_lexeme_symbol {s : Symbol} (ht : t.IsScanned) (hk : t.kind = .symbol s) :
    t.lexeme.toList = s.chars := by
  rw [ht.symbol_eq hk]
  exact String.toList_ofList

/-- The characters of a symbol are a text for it, if what follows makes no longer symbol and no
    comment of it. -/
theorem written_symbol {s : Symbol} (ht : t.IsScanned) (hk : t.kind = .symbol s) :
    Written EndsSymbol s.chars [t] where
  scans follow hfollow := by
    rw [ht.symbol_eq hk]
    exact scans_symbol s t.line hfollow
  lineFeed hmem := by
    rw [← ht.toList_lexeme_symbol hk] at hmem
    exact ⟨t, List.mem_singleton_self t, hmem⟩

/-- The lexeme of a keyword is a text for it, in front of a delimiter. -/
theorem written_keyword {k : Keyword} (ht : t.IsScanned) (hk : t.kind = .keyword k) :
    Written Delimits t.lexeme.toList [t] where
  scans follow hfollow := by
    rw [ht.keyword_eq hk]
    exact scans_keyword k t.line fun c hc => (hfollow c hc).isWordChar_eq
  lineFeed hmem := ⟨t, List.mem_singleton_self t, hmem⟩

/-- The lexeme of an operator, be it a symbol or a keyword, in front of a delimiter. -/
theorem written_operator (ht : t.IsScanned)
    (hk : (∃ s, t.kind = .symbol s) ∨ ∃ k, t.kind = .keyword k) :
    Written Delimits t.lexeme.toList [t] ∧ t.lexeme.toList ≠ [] := by
  rcases hk with ⟨s, hk⟩ | ⟨k, hk⟩
  · rw [ht.toList_lexeme_symbol hk]
    refine ⟨(ht.written_symbol hk).mono fun c => Delimits.endsSymbol, ?_⟩
    exact List.ne_nil_of_length_pos s.length_chars_pos
  · refine ⟨ht.written_keyword hk, ?_⟩
    rw [ht.keyword_eq hk]
    show k.spelling.toList ≠ []
    cases k <;> decide

/-- The lexeme of an identifier is a text for it, in front of a delimiter. -/
theorem written_identifier (ht : t.IsScanned) (hk : t.kind = .identifier) :
    Written Delimits t.lexeme.toList [t] where
  scans follow hfollow := by
    cases ht with
    | @identifier c cs line hc hcs hnone =>
      show Scans (String.ofList (c :: cs)).toList follow _
      rw [String.toList_ofList]
      exact scans_identifier line hc hcs hnone fun c hc => (hfollow c hc).isWordChar_eq
    | _ => cases hk
  lineFeed hmem := ⟨t, List.mem_singleton_self t, hmem⟩

/-- The lexeme of a string is a text for it, whatever follows. -/
theorem written_string (ht : t.IsScanned) (hk : t.kind = .string) :
    Written Delimits t.lexeme.toList [t] where
  scans follow hfollow := by
    cases ht with
    | @string body line hbody =>
      show Scans (String.ofList ('"' :: body ++ ['"'])).toList follow _
      rw [String.toList_ofList]
      exact scans_string line hbody
    | _ => cases hk
  lineFeed hmem := ⟨t, List.mem_singleton_self t, hmem⟩

/-- The first character of a word other than a symbol does not join a symbol in front of it. -/
theorem startsWith (ht : t.IsScanned)
    (hk : (∃ k, t.kind = .keyword k) ∨ t.kind = .identifier ∨ t.kind = .string) :
    StartsWith EndsSymbol t.lexeme.toList := by
  have hletter {c : Char} (hc : isWordStart c = true) : EndsSymbol c := by
    obtain ⟨-, -, hslash, hequal, -⟩ := isWordStart_cases hc
    exact ⟨hequal, hslash⟩
  cases ht with
  | keyword k line =>
    obtain ⟨c, cs, hchars, hc, -⟩ := isWord_spelling k
    exact ⟨c, cs, hchars, hletter ((isWordStart_iff c).2 hc)⟩
  | @identifier c cs line hc => exact ⟨c, cs, String.toList_ofList, hletter hc⟩
  | @string body line =>
    exact ⟨'"', body ++ ['"'], String.toList_ofList, by decide, by decide⟩
  | _ => simp at hk

end Token.IsScanned

namespace Cursor

variable {p : Nat}

/-- The text of a finite number is one for every token that stands for the number. -/
theorem written_number (h : p < Number.infinity) {t : Token} (hk : t.kind = .number)
    (hliteral : t.literal = some (.number (Number.ofMagnitude p))) :
    Written Delimits (Number.text (Number.ofMagnitude p)).toList [t] := by
  obtain ⟨htext, hnumeral⟩ := Number.text_ofMagnitude h
  rw [htext, Decimal.text, String.toList_ofList]
  constructor
  · intro follow hfollow
    obtain ⟨kind, lexeme, line, literal⟩ := t
    obtain rfl : kind = .number := hk
    obtain rfl : literal = _ := hliteral
    rw [← hnumeral]
    exact scans_number _ lexeme line fun c hc => (hfollow c hc).not_numeral
  · intro hmem
    rcases (isNumeral_chars _).isDigit_or_eq _ hmem with hdigit | hpoint
    · exact absurd hdigit (by decide)
    · exact absurd hpoint (by decide)

/-- The text of a finite number begins with a digit, which does not join a symbol in front of it. -/
theorem startsWith_number (h : p < Number.infinity) :
    StartsWith EndsSymbol (Number.text (Number.ofMagnitude p)).toList := by
  obtain ⟨htext, -⟩ := Number.text_ofMagnitude h
  rw [htext, Decimal.text, String.toList_ofList]
  obtain ⟨c, cs, hchars, hdigit⟩ := (isNumeral_chars (Decimal.shortest p)).exists_cons
  obtain ⟨-, -, hslash, hequal⟩ := isDigit_cases hdigit
  exact ⟨c, cs, hchars, hequal, hslash⟩

end Cursor

end Lox
