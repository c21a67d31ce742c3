import Lox.Proofs.Number.Overflow
import Lox.Proofs.Token.Spaced
import Lox.Proofs.Token.Rescan
import Lox.Syntax.Source

namespace Lox

/-!
# Number literals read back

The text of a number is a numeral, and reads as the number that it is the text of. The one
exception is infinity: its text is a word. No numeral is written for it, but some are read as it,
those that are too large.

* `Token.Stands.scan_eq` — a word alone in a text is the only token.
* `Number.text_infinity` — the text of infinity.
* `scan_source_number` — when the text of a literal reads as the literal.
-/

/-- A word that stands alone in a text, on a single line, is its only token. -/
theorem Token.Stands.scan_eq {t : Token} (h : t.Stands []) (hline : '\n' ∉ t.lexeme.toList) :
    scan t.lexeme = [{ t with line := 1 }, Token.eof 1] := by
  have hnext := h.next_eq 1
  rw [List.append_nil, List.count_eq_zero.2 hline] at hnext
  exact Cursor.scan_of_reads (.singleton hnext h.kind_ne_eof) rfl

namespace Number

/-- Rounding does not go beyond infinity. -/
theorem nearest_le_infinity (num den : Nat) : nearest num den ≤ infinity := Nat.min_le_right _ _

/-- Infinity is printed as a word. -/
theorem text_infinity : text (ofMagnitude infinity) = "inf" := by
  have hle : infinity ≤ infinity := Nat.le_refl _
  unfold text
  rw [isNaN_ofMagnitude hle, isNegative_ofMagnitude hle, magnitude_ofMagnitude hle]
  rfl

/-- The text of a finite number reads as the number. -/
theorem scan_text_ofMagnitude {p : Nat} (h : p < infinity) :
    scan (text (ofMagnitude p)) =
      [⟨.number, text (ofMagnitude p), 1, some (.number (ofMagnitude p))⟩, Token.eof 1] := by
  obtain ⟨htext, hvalue⟩ := text_ofMagnitude h
  have hnumeral : IsNumeral (Decimal.shortest p).chars := Cursor.isNumeral_chars _
  have hstands : Token.Stands ⟨.number, String.ofList (Decimal.shortest p).chars, 1,
      some (.number (ofNumeral (Decimal.shortest p).chars))⟩ [] :=
    .number (longest_numeral hnumeral (by simp))
  have hline : '\n' ∉ (String.ofList (Decimal.shortest p).chars).toList := by
    rw [String.toList_ofList]
    exact List.count_eq_zero.1 hnumeral.hasNoBlank.count_lineFeed
  rw [hvalue] at hstands
  rw [htext]
  exact hstands.scan_eq hline

/-- The text of infinity reads as a name. -/
theorem scan_text_infinity :
    scan (text (ofMagnitude infinity)) = [⟨.identifier, "inf", 1, none⟩, Token.eof 1] := by
  rw [text_infinity]
  rfl

end Number

/-- **A number literal reads back from the text of its value, unless it is too large.** The text
    that is written for the value of a number token, wherever the token was read, reads as one
    number token of that value and nothing else, if and only if the numeral is below the bound from
    which on numbers are infinite. From there on it reads as a name. -/
theorem scan_source_number {source : String} {t : Token} (ht : t ∈ scan source)
    (hk : t.kind = .number) :
    ∃ x, t.literal = some (.number x) ∧
      let text := (Expr.constant (.number x)).source
      let d := Decimal.ofNumeral t.lexeme.toList
      ((∃ word line, scan text = [word, Token.eof line] ∧ word.kind = .number ∧
          word.literal = some (.number x)) ↔ d.coefficient < Number.overflow * d.scale) ∧
        (Number.overflow * d.scale ≤ d.coefficient →
          scan text = [⟨.identifier, "inf", 1, none⟩, Token.eof 1]) := by
  obtain ⟨rest, hstands⟩ := exists_stands_of_mem_scan ht (by simp [hk])
  cases hstands with
  | @number w line _ hw =>
    let d := Decimal.ofNumeral w
    have hinfinite : d.nearest = Number.infinity ↔ Number.overflow * d.scale ≤ d.coefficient :=
      Number.nearest_eq_infinity_iff d.scale_pos
    refine ⟨Number.ofMagnitude d.nearest, rfl, ?_⟩
    rw [String.toList_ofList]
    intro text d
    show (_ ↔ d.coefficient < Number.overflow * d.scale) ∧ _
    -- The value is finite, and its text is a numeral, or it is infinite and its text is a word.
    rcases Nat.lt_or_eq_of_le (Number.nearest_le_infinity d.coefficient d.scale) with hlt | heq
    · have hbelow : d.coefficient < Number.overflow * d.scale :=
        Nat.lt_of_not_le fun hle => Nat.ne_of_lt hlt (hinfinite.2 hle)
      have hscan := Number.scan_text_ofMagnitude hlt
      exact ⟨⟨fun _ => hbelow, fun _ => ⟨_, 1, hscan, rfl, rfl⟩⟩,
        fun hle => absurd hle (Nat.not_le_of_lt hbelow)⟩
    · have hscan : scan text = [⟨.identifier, "inf", 1, none⟩, Token.eof 1] := by
        show scan (Number.text (Number.ofMagnitude (Number.nearest d.coefficient d.scale))) = _
        rw [heq]
        exact Number.scan_text_infinity
      refine ⟨⟨?_, fun hlt => absurd (hinfinite.1 heq) (Nat.not_le_of_lt hlt)⟩, fun _ => hscan⟩
      rintro ⟨word, line, hword, hnumber, -⟩
      rw [hscan] at hword
      cases hword
      cases hnumber
  | _ => cases hk

/-- The digit one with zeros behind it. -/
def powerOfTen (n : Nat) : List Char := '1' :: List.replicate n '0'

/-- A one with zeros is written with digits only. -/
theorem isDigit_powerOfTen (n : Nat) : ∀ c ∈ powerOfTen n, c.isDigit = true := by
  intro c hc
  rcases List.mem_cons.1 hc with rfl | hc
  · rfl
  · rw [List.eq_of_mem_replicate hc]
    rfl

/-- A one with zeros stands for a power of ten. -/
theorem ofNumeral_powerOfTen (n : Nat) : Decimal.ofNumeral (powerOfTen n) = ⟨10 ^ n, 0⟩ := by
  have hdrop := Decimal.dropWhile_digits (isDigit_powerOfTen n) []
  rw [List.append_nil] at hdrop
  unfold Decimal.ofNumeral
  rw [hdrop, List.filter_eq_self.2 (isDigit_powerOfTen n), powerOfTen, Nat.ofDigitChars_cons,
    Nat.ofDigitChars_replicate_zero]
  exact congrArg (Decimal.mk · 0) (Nat.mul_one _)

/-- A one with 309 zeros is read as infinity, and the text of infinity is no number. -/
theorem scan_source_number_huge :
    ∃ t ∈ scan (String.ofList (powerOfTen 309)), t.kind = .number ∧
      ∃ x, t.literal = some (.number x) ∧ ¬ ∃ word line,
        scan (Expr.constant (.number x)).source = [word, Token.eof line] ∧ word.kind = .number ∧
          word.literal = some (.number x) := by
  let t : Token := ⟨.number, String.ofList (powerOfTen 309), 1,
    some (.number (Number.ofNumeral (powerOfTen 309)))⟩
  have hdigits : IsDigits (powerOfTen 309) := ⟨List.cons_ne_nil _ _, isDigit_powerOfTen 309⟩
  have hstands : t.Stands [] := .number (longest_numeral (.inl hdigits) (by simp))
  have hline : '\n' ∉ t.lexeme.toList := by
    rw [String.toList_ofList]
    exact fun hmem => absurd (isDigit_powerOfTen 309 _ hmem) (by decide)
  have hmem : t ∈ scan (String.ofList (powerOfTen 309)) := by
    have hscan : scan t.lexeme = [t, Token.eof 1] := hstands.scan_eq hline
    exact hscan ▸ List.mem_cons_self
  obtain ⟨x, hx, hiff, -⟩ := scan_source_number hmem rfl
  refine ⟨t, hmem, rfl, x, hx, fun hread => absurd (hiff.1 hread) ?_⟩
  rw [String.toList_ofList, ofNumeral_powerOfTen]
  decide +kernel

end Lox
