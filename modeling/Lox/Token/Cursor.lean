import Lox.Number
import Lox.Text.Blank
import Lox.Token

namespace Lox

/-!
# Scanning a text

A cursor is a place in a text: the characters still ahead and the number of the current line. One
step first skips the gap in front (spaces, line ends, comments) and then takes the longest token.
Every character belongs to a gap or to a token, those of unreadable words included, so scanning
never fails.

* `Cursor.skipGap` — past blanks and comments.
* `Cursor.next` — the next token; at the end of the text, the end token, again and again.
* `scan` — all tokens of a text, the end token last.
* `Cursor.length_next_lt` — every token but the end token takes a character at least.
-/

/-- A place in a text. -/
structure Cursor where
  /-- The characters still ahead. -/
  rest : List Char
  /-- The number of the line that the next character is on. -/
  line : Nat
deriving DecidableEq, Repr

namespace Cursor

/-- The start of a text. -/
def start (source : String) : Cursor := ⟨source.toList, 1⟩

/-! ### Gaps -/

/-- Whether a character is skipped between tokens. -/
def isGapBlank (c : Char) : Bool := c == ' ' || c == '\t' || c == '\r' || c == '\n'

/-- The line after a character of line `line`. -/
def lineAfter (line : Nat) (c : Char) : Nat := if c = '\n' then line + 1 else line

/-- Skips blanks, and comments from `//` to the end of the line. `inComment` tells whether the
    characters belong to a comment already begun; the line end that closes it does not. -/
def skipGapFrom : (inComment : Bool) → (line : Nat) → List Char → Cursor
  | _, line, [] => ⟨[], line⟩
  | true, line, c :: cs => skipGapFrom (c != '\n') (lineAfter line c) cs
  | false, line, c :: cs =>
    if isGapBlank c then skipGapFrom false (lineAfter line c) cs
    else if c = '/' ∧ cs.head? = some '/' then skipGapFrom true line cs
    else ⟨c :: cs, line⟩

theorem length_skipGapFrom_le (inComment : Bool) (line : Nat) (cs : List Char) :
    (skipGapFrom inComment line cs).rest.length ≤ cs.length := by
  fun_induction skipGapFrom inComment line cs <;> simp_all <;> omega

/-- The cursor behind the gap in front of it. -/
def skipGap (c : Cursor) : Cursor := skipGapFrom false c.line c.rest

/-! ### Classes of words

Each function takes a word of its class off a text and returns the word and what follows it. -/

/-- Whether a character may start an identifier. Identifiers are ASCII. -/
def isWordStart (c : Char) : Bool := c.isAlpha || c == '_'

/-- Whether a character may continue an identifier. -/
def isWordChar (c : Char) : Bool := isWordStart c || c.isDigit

/-- Splits off a numeral: digits, and a point with digits behind it. A point that no digit follows
    does not belong to the numeral. -/
def splitNumeral (cs : List Char) : List Char × List Char :=
  let whole := cs.takeWhile Char.isDigit
  match cs.dropWhile Char.isDigit with
  | '.' :: d :: rest =>
    if d.isDigit then
      (whole ++ '.' :: (d :: rest).takeWhile Char.isDigit, (d :: rest).dropWhile Char.isDigit)
    else (whole, '.' :: d :: rest)
  | rest => (whole, rest)

theorem splitNumeral_append (cs : List Char) :
    (splitNumeral cs).1 ++ (splitNumeral cs).2 = cs := by
  have h := List.takeWhile_append_dropWhile (p := Char.isDigit) (l := cs)
  unfold splitNumeral
  split
  · next d rest hr =>
    rw [hr] at h
    split
    · simpa using h
    · exact h
  · exact h

theorem length_splitNumeral_le {c : Char} (h : c.isDigit = true) (cs : List Char) :
    (splitNumeral (c :: cs)).2.length ≤ cs.length := by
  have happ := congrArg List.length (splitNumeral_append (c :: cs))
  have hne : (splitNumeral (c :: cs)).1 ≠ [] := by
    unfold splitNumeral
    simp only [List.takeWhile_cons, h]
    split
    · split <;> simp
    · simp
  have hpos := List.length_pos_iff.2 hne
  simp at happ
  omega

/-- The token of a word: a keyword or an identifier. -/
def wordToken (line : Nat) (word : String) : Token :=
  match Keyword.ofWord? word with
  | some k => ⟨k, word, line, none⟩
  | none => ⟨.identifier, word, line, none⟩

/-- The string token behind an opening quote. It ends at the next quote, wherever that is, and
    keeps the line it starts on. Without such a quote the rest of the text is one bad token. -/
def stringToken (line : Nat) (cs : List Char) : Token × Cursor :=
  let body := cs.takeWhile (· != '"')
  let lineBehind := line + body.count '\n'
  match cs.dropWhile (· != '"') with
  | [] =>
    (⟨.invalid .unterminatedString, String.ofList ('"' :: body), line, none⟩, ⟨[], lineBehind⟩)
  | quote :: rest =>
    (⟨.string, String.ofList ('"' :: body ++ [quote]), line, some (.string (String.ofList body))⟩,
      ⟨rest, lineBehind⟩)

theorem length_stringToken_le (line : Nat) (cs : List Char) :
    (stringToken line cs).2.rest.length ≤ cs.length := by
  have h := (List.dropWhile_sublist (l := cs) (· != '"')).length_le
  unfold stringToken
  split
  · simp
  · next hr =>
    rw [hr] at h
    simp at h ⊢
    omega

/-- The token that starts with the character `c` at the front of a text. An unreadable character
    takes everything up to the next white space with it, so that it is reported once. -/
def tokenAt (line : Nat) (c : Char) (cs : List Char) : Token × Cursor :=
  if c = '"' then stringToken line cs
  else if c.isDigit then
    let (numeral, rest) := splitNumeral (c :: cs)
    (⟨.number, String.ofList numeral, line, some (.number (Number.ofNumeral numeral))⟩,
      ⟨rest, line⟩)
  else if isWordStart c then
    (wordToken line (String.ofList (c :: cs.takeWhile isWordChar)),
      ⟨cs.dropWhile isWordChar, line⟩)
  else
    match Symbol.ofFront? (c :: cs) with
    | some s => (⟨s, s.spelling, line, none⟩, ⟨(c :: cs).drop s.chars.length, line⟩)
    | none =>
      let word := c :: cs.takeWhile (!isWhiteSpace ·)
      (⟨.invalid .undefinedToken, String.ofList word, line, none⟩,
        ⟨cs.dropWhile (!isWhiteSpace ·), line⟩)

theorem length_tokenAt_le (line : Nat) (c : Char) (cs : List Char) :
    (tokenAt line c cs).2.rest.length ≤ cs.length := by
  unfold tokenAt
  split
  · exact length_stringToken_le line cs
  split
  · next h => exact length_splitNumeral_le h cs
  split
  · exact (List.dropWhile_sublist isWordChar).length_le
  split
  · next s _ =>
    have := s.length_chars_pos
    simp
    omega
  · exact (List.dropWhile_sublist _).length_le

/-! ### Tokens -/

/-- The next token and the cursor behind it. -/
def next (c : Cursor) : Token × Cursor :=
  match c.skipGap with
  | ⟨[], line⟩ => (Token.eof line, ⟨[], line⟩)
  | ⟨ch :: cs, line⟩ => tokenAt line ch cs

theorem next_of_rest_eq_nil {c : Cursor} (h : c.rest = []) : c.next = (Token.eof c.line, c) := by
  cases c
  subst h
  simp [next, skipGap, skipGapFrom]

/-- Every token but the end token takes a character at least. -/
theorem length_next_lt {c : Cursor} (h : c.next.1.kind ≠ .eof) :
    c.next.2.rest.length < c.rest.length := by
  have hgap := length_skipGapFrom_le false c.line c.rest
  unfold next at h ⊢
  split
  · next hc => simp [hc] at h
  · next ch cs line hc =>
    have := length_tokenAt_le line ch cs
    rw [← skipGap, hc] at hgap
    simp at hgap
    omega

/-- The tokens from a cursor on. Each token takes a character at least, so the characters of the
    text bound the number of steps: `bound` is any list as long as the rest of the text. -/
def tokensFrom : (bound : List Char) → Cursor → List Token
  | [], c => [c.next.1]
  | _ :: bound, c =>
    match c.next with
    | (token, behind) =>
      if token.kind = .eof then [token] else token :: tokensFrom bound behind

end Cursor

/-- All tokens of a text, the end token last. -/
def scan (source : String) : List Token :=
  Cursor.tokensFrom source.toList (Cursor.start source)

end Lox
