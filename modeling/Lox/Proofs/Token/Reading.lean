import Lox.Token.Cursor

namespace Lox

/-!
# Reading tokens off a text

The tokens of a text, as a relation between two places in it: those from the first place on are
read, one after the other, and the second place is where that leads. Readings are put together
end to end, and what holds of each token that a cursor yields holds of all of them.

* `Cursor.Reads c words c'` — from `c` on, `words` are read, and `c'` is behind them.
* `scan_eq_append` — scanning reads words up to a place where only the end token is left.
* `Cursor.line_le_next` — the lines of tokens never decrease.
* `pairwise_line_scan` — so the tokens of a text are in the order of their lines.
-/

namespace Cursor

/-- From the first cursor on, the words are read, and the second cursor is behind them. -/
inductive Reads : Cursor → List Token → Cursor → Prop
  | nil (c : Cursor) : Reads c [] c
  | cons {c c' : Cursor} {words : List Token} :
      c.next.1.kind ≠ .eof → Reads c.next.2 words c' → Reads c (c.next.1 :: words) c'

/-- Readings are put together where the first one leads to the place at which the second one
    starts. -/
theorem Reads.append {c c' c'' : Cursor} {words words' : List Token} (h : Reads c words c')
    (h' : Reads c' words' c'') : Reads c (words ++ words') c'' := by
  induction h with
  | nil => exact h'
  | cons hk _ ih => exact .cons hk (ih h')

/-- What the cursor yields next is a reading of one word, unless it is the end. -/
theorem Reads.singleton {c c' : Cursor} {word : Token} (h : c.next = (word, c'))
    (hk : word.kind ≠ .eof) : Reads c [word] c' := by
  have hcons : Reads c (c.next.1 :: []) c.next.2 := .cons (by rwa [h]) (.nil _)
  rwa [h] at hcons

/-- A space in front of the next token is skipped. -/
theorem next_blank (cs : List Char) (line : Nat) : next ⟨' ' :: cs, line⟩ = next ⟨cs, line⟩ := rfl

/-- A space in front of words is skipped. -/
theorem Reads.blank {cs : List Char} {line : Nat} {words : List Token} {c : Cursor}
    (h : Reads ⟨cs, line⟩ words c) (hne : words ≠ []) : Reads ⟨' ' :: cs, line⟩ words c := by
  cases h with
  | nil => exact absurd rfl hne
  | cons hk h =>
    rw [← next_blank] at hk h ⊢
    exact .cons hk h

/-- No word that is read is the end. -/
theorem Reads.kind_ne {c c' : Cursor} {words : List Token} (h : Reads c words c') :
    ∀ word ∈ words, word.kind ≠ .eof := by
  induction h with
  | nil => simp
  | cons hk _ ih =>
    intro word hword
    rcases List.mem_cons.1 hword with rfl | hword
    · exact hk
    · exact ih word hword

/-- What holds of every token that a cursor yields holds of all words read. -/
theorem Reads.forall_mem {P : Token → Prop} (hP : ∀ c : Cursor, P c.next.1) {c c' : Cursor}
    {words : List Token} (h : Reads c words c') : ∀ word ∈ words, P word := by
  induction h with
  | nil => simp
  | @cons c _ _ _ _ ih =>
    intro word hword
    rcases List.mem_cons.1 hword with rfl | hword
    · exact hP c
    · exact ih word hword

/-! ### All tokens of a text -/

/-- The tokens from a cursor on are the words that are read and the end token behind them. -/
theorem tokensFrom_of_reads {c c' : Cursor} {words : List Token} (h : Reads c words c')
    (hend : c'.next.1.kind = .eof) {bound : List Char} (hb : c.rest.length ≤ bound.length) :
    tokensFrom bound c = words ++ [c'.next.1] := by
  induction h generalizing bound with
  | nil c =>
    cases bound with
    | nil => rfl
    | cons _ bound =>
      rw [tokensFrom]
      exact if_pos hend
  | @cons c c' words hk _ ih =>
    -- Each word takes a character at least, so the bound lasts.
    have hlt := length_next_lt hk
    cases bound with
    | nil =>
      rw [List.length_nil] at hb
      omega
    | cons _ bound =>
      rw [List.length_cons] at hb
      rw [tokensFrom, List.cons_append, ← ih hend (by omega : c.next.2.rest.length ≤ bound.length)]
      exact if_neg hk

/-- From every cursor on, words can be read until only the end token is left. -/
theorem exists_reads (c : Cursor) :
    ∃ words c', Reads c words c' ∧ c'.next.1.kind = .eof := by
  -- By induction on the characters ahead: every word takes one.
  induction hn : c.rest.length using Nat.strongRecOn generalizing c with
  | _ n ih =>
    by_cases hk : c.next.1.kind = .eof
    · exact ⟨[], c, .nil c, hk⟩
    · obtain ⟨words, c', hreads, hend⟩ := ih _ (hn ▸ length_next_lt hk) c.next.2 rfl
      exact ⟨c.next.1 :: words, c', .cons hk hreads, hend⟩

/-- The tokens of a text are the words that are read from its start and the end token behind
    them. -/
theorem scan_of_reads {source : String} {words : List Token} {c : Cursor}
    (h : Reads (start source) words c) (hend : c.next.1.kind = .eof) :
    scan source = words ++ [c.next.1] :=
  tokensFrom_of_reads h hend (Nat.le_refl _)

/-- Scanning reads words up to a place where only the end token is left. -/
theorem scan_eq_append (source : String) :
    ∃ words c, Reads (start source) words c ∧ c.next.1.kind = .eof ∧
      scan source = words ++ [c.next.1] := by
  obtain ⟨words, c, hreads, hend⟩ := exists_reads (start source)
  exact ⟨words, c, hreads, hend, scan_of_reads hreads hend⟩

/-! ### Lines -/

/-- Skipping a gap does not lead up. -/
theorem line_le_skipGapFrom (inComment : Bool) (line : Nat) (cs : List Char) :
    line ≤ (skipGapFrom inComment line cs).line := by
  have hafter (line : Nat) (c : Char) : line ≤ lineAfter line c := by
    unfold lineAfter
    split
    · exact Nat.le_succ line
    · exact Nat.le_refl line
  fun_induction skipGapFrom inComment line cs with
  | case1 => exact Nat.le_refl _
  | case2 line c cs ih => exact Nat.le_trans (hafter line c) ih
  | case3 line c cs _ ih => exact Nat.le_trans (hafter line c) ih
  | case4 line c cs _ _ ih => exact ih
  | case5 => exact Nat.le_refl _

/-- A word is on the line on which it is read. -/
theorem line_wordToken (line : Nat) (word : String) : (wordToken line word).line = line := by
  unfold wordToken
  split <;> rfl

/-- A token starts on the line of the cursor in front of it and ends there or further down. -/
theorem line_tokenAt (line : Nat) (c : Char) (cs : List Char) :
    (tokenAt line c cs).1.line = line ∧ line ≤ (tokenAt line c cs).2.line := by
  unfold tokenAt
  split
  · unfold stringToken
    split
    · exact ⟨rfl, Nat.le_add_right _ _⟩
    · exact ⟨rfl, Nat.le_add_right _ _⟩
  split
  · exact ⟨rfl, Nat.le_refl _⟩
  split
  · exact ⟨line_wordToken line _, Nat.le_refl _⟩
  split
  · exact ⟨rfl, Nat.le_refl _⟩
  · exact ⟨rfl, Nat.le_refl _⟩

/-- The next token is not above the cursor, and the cursor behind it is not above the token. -/
theorem line_le_next (c : Cursor) : c.line ≤ c.next.1.line ∧ c.next.1.line ≤ c.next.2.line := by
  have hgap := line_le_skipGapFrom false c.line c.rest
  unfold next
  rw [← skipGap] at hgap
  split
  · next line hc =>
    rw [hc] at hgap
    exact ⟨hgap, Nat.le_refl _⟩
  · next ch cs line hc =>
    rw [hc] at hgap
    obtain ⟨hline, hle⟩ := line_tokenAt line ch cs
    rw [hline]
    exact ⟨hgap, hle⟩

/-- Words that are read stand between the lines of the two cursors, in their order. -/
theorem Reads.line_le {c c' : Cursor} {words : List Token} (h : Reads c words c') :
    c.line ≤ c'.line ∧ (∀ word ∈ words, c.line ≤ word.line ∧ word.line ≤ c'.line) ∧
      words.Pairwise (·.line ≤ ·.line) := by
  induction h with
  | nil => simp
  | @cons c c' words _ _ ih =>
    obtain ⟨h₁, h₂⟩ := line_le_next c
    obtain ⟨hle, hwords, hpairwise⟩ := ih
    refine ⟨by omega, ?_, ?_⟩
    · intro word hword
      rcases List.mem_cons.1 hword with rfl | hword
      · exact ⟨h₁, by omega⟩
      · have := hwords word hword
        omega
    · refine List.pairwise_cons.2 ⟨fun word hword => ?_, hpairwise⟩
      have := hwords word hword
      omega

end Cursor

open Cursor

/-- The tokens of a text stand in the order of their lines. -/
theorem pairwise_line_scan (source : String) : (scan source).Pairwise (·.line ≤ ·.line) := by
  obtain ⟨words, c, hreads, -, hscan⟩ := scan_eq_append source
  obtain ⟨-, hwords, hpairwise⟩ := hreads.line_le
  rw [hscan, List.pairwise_append]
  refine ⟨hpairwise, List.pairwise_singleton _ _, fun word hword last hlast => ?_⟩
  obtain rfl := List.mem_singleton.1 hlast
  have := (hwords word hword).2
  have := (line_le_next c).1
  omega

/-- The tokens of a text have an end among them. -/
theorem exists_eof_scan (source : String) : ∃ token ∈ scan source, token.kind = .eof := by
  obtain ⟨words, c, -, hend, hscan⟩ := scan_eq_append source
  exact ⟨c.next.1, by rw [hscan]; simp, hend⟩

end Lox
