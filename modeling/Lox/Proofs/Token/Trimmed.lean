import Lox.Proofs.Token.Joined

namespace Lox

/-!
# Texts without the white space around them

A readable word ends in a character that is no white space, and white space in front of a readable
word is blank. So no word is touched if white space is cut off the ends of a text, and each word
stays on its line if no line feed is cut off in front of it.

* `Token.Stands.exists_last` — the last character of a readable word.
* `Cursor.Reads.of_append` — words are read of a text whose end has been cut off.
* `scan_of_append_whiteSpace`, `scan_of_whiteSpace_append` — the end and the front of a text.
-/

open Cursor

variable {t : Token} {gap rest front behind : List Char}

/-! ### White space and words -/

/-- White space belongs to no word. -/
theorem isWhiteSpace_eq_false_of_isWordChar {c : Char} (h : isWordChar c = true) :
    isWhiteSpace c = false := by
  have hrange : '0'.toNat ≤ c.toNat ∧ c.toNat ≤ 'z'.toNat := by
    simp only [isWordChar, isWordStart, Char.isAlpha, Char.isUpper, Char.isLower, Char.isDigit,
      Bool.or_eq_true, Bool.and_eq_true, decide_eq_true_eq, beq_iff_eq, ge_iff_le,
      UInt32.le_iff_toNat_le, Char.toNat_val] at h
    rcases h with ((⟨h, h'⟩ | ⟨h, h'⟩) | rfl) | ⟨h, h'⟩
    · exact ⟨Nat.le_trans (by decide) h, Nat.le_trans h' (by decide)⟩
    · exact ⟨Nat.le_trans (by decide) h, h'⟩
    · decide
    · exact ⟨h, Nat.le_trans h' (by decide)⟩
  have hzero : '0'.toNat = 48 := rfl
  have hz : 'z'.toNat = 122 := rfl
  simp only [isWhiteSpace, Bool.or_eq_false_iff, Bool.and_eq_false_iff, decide_eq_false_iff_not,
    beq_eq_false_iff_ne]
  omega

/-- White space that is not blank starts nothing. -/
theorem startsNothing_of_isWhiteSpace {c : Char} (hc : isWhiteSpace c = true)
    (hblank : ¬ IsBlank c) : StartsNothing c := by
  have hword : ¬ isWordChar c = true := fun h => by
    rw [isWhiteSpace_eq_false_of_isWordChar h] at hc
    exact absurd hc Bool.false_ne_true
  refine ⟨hblank, ?_, fun cs => ⟨?_, fun h => ?_, ?_⟩⟩
  · rintro rfl
    exact absurd hc (by decide)
  · rintro ⟨d, ds, heq, hd, -⟩
    obtain ⟨rfl, -⟩ := List.cons.inj heq
    exact hword ((isWordChar_iff c).2 (.inl hd))
  · obtain ⟨d, ds, heq, hd⟩ := h.exists_cons
    obtain ⟨rfl, -⟩ := List.cons.inj heq
    exact hword ((isWordChar_iff c).2 (.inr hd))
  · rintro ⟨s, hs⟩
    have hnone : s.chars.all (!isWhiteSpace ·) = true := by
      cases s <;> decide
    rw [← hs, List.all_cons, hc] at hnone
    exact absurd hnone Bool.false_ne_true

/-- A readable word does not end in white space. -/
theorem Token.Stands.exists_last (h : t.Stands rest) (hk : ∀ cause, t.kind ≠ .invalid cause) :
    ∃ front c, t.lexeme.toList = front ++ [c] ∧ isWhiteSpace c = false := by
  -- A word is not empty, so it has a last character, and none of its characters is white space.
  have hlast {w : List Char} (hne : w ≠ []) (hw : ∀ c ∈ w, isWhiteSpace c = false) :
      ∃ front c, w = front ++ [c] ∧ isWhiteSpace c = false := by
    rcases List.eq_nil_or_concat w with rfl | ⟨front, c, rfl⟩
    · exact absurd rfl hne
    · exact ⟨front, c, List.concat_eq_append, hw c (by simp)⟩
  have hword {w : List Char} (hw : IsWord w) : ∀ c ∈ w, isWhiteSpace c = false := by
    obtain ⟨d, ds, rfl, hd, hds⟩ := hw
    refine List.forall_mem_cons.2 ⟨?_, fun c hc => ?_⟩
    · exact isWhiteSpace_eq_false_of_isWordChar ((isWordChar_iff d).2 (.inl hd))
    · exact isWhiteSpace_eq_false_of_isWordChar ((isWordChar_iff c).2 (hds c hc))
  have hne := h.toList_lexeme_ne_nil
  cases h with
  | keyword hw => exact hlast hne (hword hw.1)
  | identifier hw =>
    rw [String.toList_ofList] at hne ⊢
    exact hlast hne (hword hw.1)
  | number hw =>
    rw [String.toList_ofList] at hne ⊢
    refine hlast hne fun c hc => ?_
    rcases hw.1.isDigit_or_eq c hc with hdigit | rfl
    · exact isWhiteSpace_eq_false_of_isWordChar ((isWordChar_iff c).2 (.inr hdigit))
    · decide
  | @symbol s =>
    rw [Symbol.spelling, String.toList_ofList] at hne ⊢
    have hnone : s.chars.all (!isWhiteSpace ·) = true := by
      cases s <;> decide
    exact hlast hne fun c hc => by simpa using List.all_eq_true.1 hnone c hc
  -- A string may have white space inside, but ends in a quote.
  | @string body => exact ⟨'"' :: body, '"', String.toList_ofList, by decide⟩
  | unterminated => exact absurd rfl (hk _)
  | unreadable => exact absurd rfl (hk _)

/-! ### The end of a text -/

/-- If white space is cut off the end of a gap, a gap is left. -/
theorem Gap.of_append_whiteSpace (h : Gap gap rest) (hrest : rest = [])
    (hgap : gap = front ++ behind) (hbehind : ∀ c ∈ behind, isWhiteSpace c = true) :
    Gap front [] := by
  induction h generalizing front with
  | nil =>
    obtain ⟨rfl, -⟩ := List.append_eq_nil_iff.1 hgap.symm
    exact .nil []
  | @blank c gap _ hc _ ih =>
    rcases List.cons_eq_append_iff.1 hgap with ⟨rfl, -⟩ | ⟨front, rfl, hgap'⟩
    · exact .nil []
    · exact .blank hc (ih hrest hgap')
  | @comment body gap rest hbody hend _ ih =>
    subst hrest
    -- The slashes are no white space, so they are not cut off.
    have hslash {cs : List Char} (h : behind = '/' :: cs) : False :=
      absurd (hbehind '/' (h ▸ List.mem_cons_self)) (by decide)
    rcases List.cons_eq_append_iff.1 hgap with ⟨-, hfirst⟩ | ⟨front, rfl, hgap'⟩
    · exact (hslash hfirst).elim
    rcases List.cons_eq_append_iff.1 hgap' with ⟨-, hsecond⟩ | ⟨front, rfl, hgap''⟩
    · exact (hslash hsecond).elim
    rcases List.append_eq_append_iff.1 hgap'' with ⟨more, rfl, rfl⟩ | ⟨more, rfl, -⟩
    · -- The cut is behind the comment.
      refine .comment hbody (fun c hc => hend c ?_) (ih rfl rfl)
      rw [List.append_nil] at hc ⊢
      rw [List.head?_append, hc]
      rfl
    · -- The cut is in the comment.
      have hcut : Gap ('/' :: '/' :: (front ++ [])) [] :=
        .comment (fun hmem => hbody (List.mem_append_left more hmem)) nofun (.nil [])
      rwa [List.append_nil] at hcut

namespace Cursor

/-- The readable words of a text end in front of white space at its end. -/
theorem Reads.exists_append {c c' : Cursor} {words : List Token} (h : Reads c words c')
    (hwords : ∀ word ∈ words, ∀ cause, word.kind ≠ .invalid cause) :
    ∃ front, c.rest = front ++ c'.rest ∧ ∀ d ∈ front.getLast?, isWhiteSpace d = false := by
  induction h with
  | nil => exact ⟨[], rfl, nofun⟩
  | @cons c c' words hk _ ih =>
    obtain ⟨hword, hwords⟩ := List.forall_mem_cons.1 hwords
    obtain ⟨gap, hc, -, hstands, -⟩ := exists_gap_of_kind_ne_eof hk
    obtain ⟨before, d, hlexeme, hd⟩ := hstands.exists_last hword
    obtain ⟨front, hrest, hfront⟩ := ih hwords
    refine ⟨gap ++ c.next.1.lexeme.toList ++ front, ?_, fun e he => ?_⟩
    · rw [hc, hrest]
      simp
    · -- The last character is one of the words behind, or else the last one of this word.
      have hlast : (gap ++ (before ++ [d])).getLast? = some d := by simp
      rw [hlexeme, List.getLast?_append, hlast] at he
      cases hbehind : front.getLast? with
      | some e' =>
        rw [hbehind] at he
        exact hfront e (hbehind.trans he)
      | none =>
        rw [hbehind] at he
        exact Option.some.inj he ▸ hd

/-- If the end of a text is cut off behind some words, these are read all the same. -/
theorem Reads.of_append {c c' : Cursor} {words : List Token} (h : Reads c words c')
    (hrest : c'.rest = rest ++ behind) :
    ∃ front, c.rest = front ++ (rest ++ behind) ∧
      Reads ⟨front ++ rest, c.line⟩ words ⟨rest, c'.line⟩ := by
  induction h with
  | nil => exact ⟨[], hrest, .nil _⟩
  | @cons c c' words hk _ ih =>
    obtain ⟨gap, hc, hgap, hstands, hline, hbehind⟩ := exists_gap_of_kind_ne_eof hk
    obtain ⟨front, hd, hreads⟩ := ih hrest
    generalize c.next.1 = t at *
    generalize c.next.2 = d at *
    have hhead := hstands.head?_append_eq (front ++ rest) d.rest
    -- What is left of the text begins with what is not cut off.
    have hprefix : front ++ rest <+: d.rest := by
      rw [hd, ← List.append_assoc]
      exact List.prefix_append (front ++ rest) behind
    have hnext : next ⟨gap ++ (t.lexeme.toList ++ (front ++ rest)), c.line⟩ =
        (t, ⟨front ++ rest, d.line⟩) := by
      rw [(hgap.of_head hhead).next_eq, (hstands.of_prefix hprefix).next_eq, hbehind, ← hline]
    refine ⟨gap ++ (t.lexeme.toList ++ front), by rw [hc, hd]; simp, ?_⟩
    rw [List.append_assoc, List.append_assoc]
    exact (Reads.singleton hnext hk).append hreads

end Cursor

/-- **White space at the end of a text** is no part of its words, if these are readable. -/
theorem scan_of_append_whiteSpace {body : List Char}
    (hbehind : ∀ c ∈ behind, isWhiteSpace c = true)
    (hwords : ∀ t ∈ scan (String.ofList (body ++ behind)), ∀ cause, t.kind ≠ .invalid cause) :
    ∃ words last last', scan (String.ofList (body ++ behind)) = words ++ [last] ∧
      scan (String.ofList body) = words ++ [last'] ∧ last.kind = .eof ∧ last'.kind = .eof ∧
      ∀ t ∈ words, t.kind ≠ .eof := by
  obtain ⟨words, c, hreads, hend, hscan⟩ := scan_eq_append (String.ofList (body ++ behind))
  have hstart : (start (String.ofList (body ++ behind))).rest = body ++ behind := by
    rw [start, String.toList_ofList]
  rw [hscan] at hwords
  obtain ⟨front, hfront, hlast⟩ :=
    hreads.exists_append fun t ht => hwords t (List.mem_append_left _ ht)
  -- The white space is behind the last word.
  obtain ⟨rest, hrest⟩ : ∃ rest, c.rest = rest ++ behind := by
    rw [hstart] at hfront
    rcases List.append_eq_append_iff.1 hfront with ⟨more, rfl, hmore⟩ | ⟨more, rfl, hmore⟩
    · rcases List.eq_nil_or_concat more with rfl | ⟨before, d, rfl⟩
      · exact ⟨[], hmore.symm⟩
      · have hd := hlast d (by simp)
        rw [hbehind d (by rw [hmore]; simp)] at hd
        exact absurd hd.symm Bool.false_ne_true
    · exact ⟨more, hmore⟩
  obtain ⟨front', hfront', hreads'⟩ := hreads.of_append hrest
  obtain ⟨hgap, -⟩ := gap_of_kind_eq_eof hend
  have hend' : (next ⟨rest, c.line⟩).1.kind = .eof := by
    have hskip := (hgap.of_append_whiteSpace rfl hrest hbehind).next_eq c.line
    rw [List.append_nil] at hskip
    rw [hskip]
    rfl
  have hbody : front' ++ rest = body := by
    rw [hstart, ← List.append_assoc] at hfront'
    exact (List.append_cancel_right hfront').symm
  rw [hbody] at hreads'
  have hreads' : Reads (start (String.ofList body)) words ⟨rest, c.line⟩ := by
    rwa [start, String.toList_ofList]
  exact ⟨words, c.next.1, _, hscan, scan_of_reads hreads' hend', hend, hend', hreads.kind_ne⟩

/-! ### The front of a text -/

/-- Texts in which the cursor yields the same at the start have the same tokens. -/
theorem scan_eq_of_next_eq {source source' : String}
    (h : (start source).next = (start source').next) : scan source = scan source' := by
  obtain ⟨words, c, hreads, hend, hscan⟩ := scan_eq_append source'
  obtain ⟨d, hd, hnext⟩ := hreads.of_next_eq h
  rw [scan_of_reads hd (hnext ▸ hend), hscan, hnext]

/-- What the cursor yields at the start is one of the tokens. -/
theorem next_start_mem_scan (source : String) : (start source).next.1 ∈ scan source := by
  obtain ⟨words, c, hreads, -, hscan⟩ := scan_eq_append source
  rw [hscan]
  cases hreads with
  | nil => exact List.mem_append_right _ (List.mem_singleton_self _)
  | cons => exact List.mem_append_left _ List.mem_cons_self

/-- **White space in front of a text** is skipped, if the words of the text are readable. -/
theorem scan_of_whiteSpace_append {body : List Char}
    (hfront : ∀ c ∈ front, isWhiteSpace c = true) (hfeed : '\n' ∉ front)
    (hwords : ∀ t ∈ scan (String.ofList (front ++ body)), ∀ cause, t.kind ≠ .invalid cause) :
    scan (String.ofList (front ++ body)) = scan (String.ofList body) := by
  induction front with
  | nil => rfl
  | cons c front ih =>
    obtain ⟨hc, hfront⟩ := List.forall_mem_cons.1 hfront
    rw [List.mem_cons, not_or] at hfeed
    have hblank : IsBlank c := by
      by_contra hblank
      -- The white space would be the beginning of an unreadable word.
      have hlongest : Longest IsUnreadable (c :: (front ++ body).takeWhile (!isWhiteSpace ·))
          ((front ++ body).dropWhile (!isWhiteSpace ·)) :=
        longest_takeWhile (by simp) (startsNothing_of_isWhiteSpace hc hblank) (front ++ body)
      have hnext := next_longest_unreadable hlongest 1
      rw [List.cons_append, List.takeWhile_append_dropWhile] at hnext
      have hfirst := next_start_mem_scan (String.ofList (c :: front ++ body))
      rw [start, String.toList_ofList, List.cons_append, hnext] at hfirst
      exact hwords _ hfirst .undefinedToken rfl
    have hnext : (start (String.ofList (c :: front ++ body))).next =
        (start (String.ofList (front ++ body))).next := by
      have hgap : Gap [c] (front ++ body) := .blank hblank (.nil _)
      have hcount : [c].count '\n' = 0 := List.count_eq_zero.2 (by simpa using hfeed.1)
      have hskip := hgap.next_eq 1
      rw [hcount] at hskip
      rw [start, start, String.toList_ofList, String.toList_ofList]
      exact hskip
    have hscan := scan_eq_of_next_eq hnext
    rw [hscan] at hwords ⊢
    exact ih hfront hfeed.2 hwords

end Lox
