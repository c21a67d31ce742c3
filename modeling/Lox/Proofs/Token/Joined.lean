import Lox.Proofs.Token.Standing

namespace Lox

/-!
# Texts joined by line feeds

A line feed ends every word and every comment, and only a string can go on behind it. So the tokens
of two texts with a line feed between them are the tokens of the one and the tokens of the other,
these further down by the lines of the first text. Only a string that nothing ends, in the first
text, would take in the second one.

* `Token.below`, `lowered` — a token a number of lines further down, and a text with that many line
  feeds in front.
* `scan_lowered` — the tokens of such a text are further down.
* `Token.Stands.append_lineFeed`, `Gap.append_lineFeed` — words and gaps in front of a line feed.
* `scan_append_lineFeed` — the tokens of two texts with a line feed between them.
-/

open Cursor

/-! ### Further down -/

/-- The token a number of lines further down. -/
def Token.below (lines : Nat) (t : Token) : Token := { t with line := t.line + lines }

/-- The text behind a number of line feeds. -/
def lowered (lines : Nat) (source : String) : String :=
  String.ofList (List.replicate lines '\n') ++ source

@[simp] theorem lowered_zero (source : String) : lowered 0 source = source := by
  simp [lowered]

/-- The number of lines of a text. -/
def lineCount (source : String) : Nat := source.toList.count '\n' + 1

/-- Each line feed in front of a text adds a line. -/
theorem lineCount_lowered (lines : Nat) (source : String) :
    lineCount (lowered lines source) = lines + lineCount source := by
  simp [lineCount, lowered, Nat.add_assoc]

/-- Line feeds are a gap, whatever follows. -/
theorem gap_lineFeeds (lines : Nat) (rest : List Char) : Gap (List.replicate lines '\n') rest := by
  induction lines with
  | zero => exact .nil rest
  | succ lines ih => exact .blank (.inr (.inr (.inr rfl))) ih

namespace Cursor

/-- The line feeds in front of a text are skipped. -/
theorem next_start_lowered (lines : Nat) (source : String) :
    (start (lowered lines source)).next = next ⟨source.toList, 1 + lines⟩ := by
  have hskip := (gap_lineFeeds lines source.toList).next_eq 1
  rw [List.count_replicate_self] at hskip
  rw [start, lowered, String.toList_append, String.toList_ofList, hskip]

/-- What is read further down is the same, but further down. -/
theorem next_below (c : Cursor) (lines : Nat) :
    next ⟨c.rest, c.line + lines⟩ =
      (c.next.1.below lines, ⟨c.next.2.rest, c.next.2.line + lines⟩) := by
  by_cases hk : c.next.1.kind = .eof
  -- Only a gap is left, on whatever line it begins.
  · obtain ⟨hgap, -⟩ := gap_of_kind_eq_eof hk
    have hnext (line : Nat) : next ⟨c.rest, line⟩ =
        (Token.eof (line + c.rest.count '\n'), ⟨[], line + c.rest.count '\n'⟩) := by
      have hskip := hgap.next_eq line
      rwa [List.append_nil] at hskip
    have hc : c.next = _ := hnext c.line
    rw [hnext, hc, Nat.add_right_comm]
    rfl
  · obtain ⟨gap, hrest, hgap, hstands, hline, hbehind⟩ := exists_gap_of_kind_ne_eof hk
    -- Neither gaps nor words depend on the line on which they stand.
    rw [hrest, hgap.next_eq, hstands.next_eq, hbehind, hline, Nat.add_right_comm,
      Nat.add_right_comm _ lines, Token.below, hline]

/-- The words that are read further down are the same words, further down. -/
theorem Reads.lower {c c' : Cursor} {words : List Token} (h : Reads c words c') (lines : Nat) :
    Reads ⟨c.rest, c.line + lines⟩ (words.map (Token.below lines)) ⟨c'.rest, c'.line + lines⟩ := by
  induction h with
  | nil => exact .nil _
  | @cons c c' words hk _ ih =>
    have hnext := next_below c lines
    have hcons : Reads ⟨c.rest, c.line + lines⟩
        ((next ⟨c.rest, c.line + lines⟩).1 :: words.map (Token.below lines)) _ :=
      .cons (by rwa [hnext]) (by rwa [hnext])
    rwa [hnext] at hcons

/-- Readings from two places that lead to the same next token are the same. -/
theorem Reads.of_next_eq {c d c' : Cursor} {words : List Token} (h : Reads c words c')
    (heq : d.next = c.next) : ∃ d', Reads d words d' ∧ d'.next.1 = c'.next.1 := by
  cases h with
  | nil => exact ⟨d, .nil d, by rw [heq]⟩
  | cons hk h =>
    rw [← heq] at hk h ⊢
    exact ⟨c', .cons hk h, rfl⟩

/-- The line feeds that are left are counted from the line on which they begin. -/
theorem Reads.line_add_count {c c' : Cursor} {words : List Token} (h : Reads c words c') :
    c'.line + c'.rest.count '\n' = c.line + c.rest.count '\n' := by
  induction h with
  | nil => rfl
  | @cons c c' words hk _ ih =>
    obtain ⟨gap, hrest, -, -, hline, hbehind⟩ := exists_gap_of_kind_ne_eof hk
    rw [ih, hbehind, hline, congrArg (List.count '\n') hrest, List.count_append,
      List.count_append, Nat.add_assoc, Nat.add_assoc]

end Cursor

/-- **Line feeds in front of a text** move its tokens down by one line each. -/
theorem scan_lowered (lines : Nat) (source : String) :
    scan (lowered lines source) = (scan source).map (Token.below lines) := by
  obtain ⟨words, c, hreads, hend, hscan⟩ := scan_eq_append source
  have hlast : (next ⟨c.rest, c.line + lines⟩).1 = c.next.1.below lines := by
    rw [next_below]
  obtain ⟨d, hd, hnext⟩ := (hreads.lower lines).of_next_eq (next_start_lowered lines source)
  rw [hlast] at hnext
  have hdend : d.next.1.kind = .eof := by
    rw [hnext]
    exact hend
  rw [scan_of_reads hd hdend, hscan, hnext, List.map_append, List.map_singleton]

/-! ### In front of a line feed -/

variable {rest behind gap : List Char}

/-- A word stands in front of a line feed as it does at the end of a text, unless it is a string
    that nothing ends. -/
theorem Token.Stands.append_lineFeed {t : Token} (h : t.Stands rest)
    (hk : t.kind ≠ .invalid .unterminatedString) : t.Stands (rest ++ '\n' :: behind) :=
  h.insert (List.prefix_refl rest) (.inl (.inr (.inr (.inr rfl))))
    (fun _ => ⟨hk, fun h => absurd h (by decide)⟩) behind

/-- A gap is one in front of a line feed, too, and a comment at its end ends there. -/
theorem Gap.append_lineFeed (h : Gap gap rest) : Gap gap (rest ++ '\n' :: behind) := by
  induction h with
  | nil => exact .nil _
  | blank hc _ ih => exact .blank hc ih
  | @comment body gap rest hbody hend _ ih =>
    refine .comment hbody ?_ ih
    rw [← List.append_assoc]
    cases hrest : gap ++ rest with
    | nil => simp
    | cons c cs =>
      rw [hrest] at hend
      exact hend

namespace Cursor

/-- A word of the first text is read in front of the second one, too. -/
theorem next_append_lineFeed {c : Cursor} (hk : c.next.1.kind ≠ .eof)
    (hstring : c.next.1.kind ≠ .invalid .unterminatedString) (behind : List Char) :
    next ⟨c.rest ++ '\n' :: behind, c.line⟩ =
      (c.next.1, ⟨c.next.2.rest ++ '\n' :: behind, c.next.2.line⟩) := by
  obtain ⟨gap, hrest, hgap, hstands, hline, hbehind⟩ := exists_gap_of_kind_ne_eof hk
  generalize c.next.1 = t at hrest hgap hstands hline hbehind hstring
  generalize c.next.2 = d at hrest hgap hstands hline hbehind
  have hgap' : Gap gap (_ ++ '\n' :: behind) := hgap.append_lineFeed
  rw [List.append_assoc] at hgap'
  rw [hrest, List.append_assoc, List.append_assoc, hgap'.next_eq,
    (hstands.append_lineFeed hstring).next_eq, hbehind, ← hline]

/-- Behind the words of the first text come those of the second one. -/
theorem next_append_lineFeed_of_eof {c : Cursor} (hk : c.next.1.kind = .eof)
    (behind : List Char) :
    next ⟨c.rest ++ '\n' :: behind, c.line⟩ =
      next ⟨behind, c.line + c.rest.count '\n' + 1⟩ := by
  obtain ⟨hgap, -⟩ := gap_of_kind_eq_eof hk
  have hgap' : Gap c.rest ('\n' :: behind) := hgap.append_lineFeed
  have hskip := hgap'.next_eq c.line
  rw [hskip]
  have hfeed : Gap ['\n'] behind := .blank (.inr (.inr (.inr rfl))) (.nil _)
  exact hfeed.next_eq _

/-- Words are read in front of a line feed as at the end of a text, if there is no string among them
    that nothing ends. -/
theorem Reads.append_lineFeed {c c' : Cursor} {words : List Token} (h : Reads c words c')
    (hwords : ∀ word ∈ words, word.kind ≠ .invalid .unterminatedString) (behind : List Char) :
    Reads ⟨c.rest ++ '\n' :: behind, c.line⟩ words ⟨c'.rest ++ '\n' :: behind, c'.line⟩ := by
  induction h with
  | nil => exact .nil _
  | @cons c c' words hk _ ih =>
    obtain ⟨hword, hwords⟩ := List.forall_mem_cons.1 hwords
    have hnext := next_append_lineFeed hk hword behind
    have hcons : Reads ⟨c.rest ++ '\n' :: behind, c.line⟩
        ((next ⟨c.rest ++ '\n' :: behind, c.line⟩).1 :: words) _ :=
      .cons (by rwa [hnext]) (by rw [hnext]; exact ih hwords)
    rwa [hnext] at hcons

end Cursor

/-- **Two texts with a line feed between them.** If no string of the first text is left without an
    end, the tokens are those of the first text, without its end token, and those that the second
    text has further down. -/
theorem scan_append_lineFeed {source : String}
    (hsource : ∀ t ∈ scan source, t.kind ≠ .invalid .unterminatedString) (source' : String) :
    ∃ words last, scan source = words ++ [last] ∧ last.kind = .eof ∧
      (∀ t ∈ words, t.kind ≠ .eof) ∧
      scan (source ++ "\n" ++ source') = words ++ scan (lowered (lineCount source) source') := by
  obtain ⟨words, c, hreads, hend, hscan⟩ := scan_eq_append source
  obtain ⟨words', c', hreads', hend', hscan'⟩ := scan_eq_append (lowered (lineCount source) source')
  refine ⟨words, c.next.1, hscan, hend, hreads.kind_ne, ?_⟩
  have hwords : ∀ word ∈ words, word.kind ≠ .invalid .unterminatedString := fun word hword =>
    hsource word (by rw [hscan]; exact List.mem_append_left _ hword)
  have hfront := hreads.append_lineFeed hwords source'.toList
  -- Where the first text ends, what is next is what the second text begins with, on its line.
  have hline : c.line + c.rest.count '\n' + 1 = 1 + lineCount source := by
    rw [hreads.line_add_count]
    rfl
  have hbehind : next ⟨c.rest ++ '\n' :: source'.toList, c.line⟩ =
      (start (lowered (lineCount source) source')).next := by
    rw [next_append_lineFeed_of_eof hend, hline, next_start_lowered]
  obtain ⟨d, hd, hnext⟩ := hreads'.of_next_eq hbehind
  have hstart : start (source ++ "\n" ++ source') =
      ⟨(start source).rest ++ '\n' :: source'.toList, (start source).line⟩ := by
    simp [start]
  have hall : Reads (start (source ++ "\n" ++ source')) (words ++ words') d := by
    rw [hstart]
    exact hfront.append hd
  have hdend : d.next.1.kind = .eof := by
    rw [hnext]
    exact hend'
  rw [scan_of_reads hall hdend, hscan', hnext, List.append_assoc]

end Lox
