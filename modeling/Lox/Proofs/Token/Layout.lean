import Lox.Proofs.Syntax.Relabel
import Lox.Proofs.Token.Standing

namespace Lox

/-!
# Texts in another layout

Two texts with the same words and with different gaps between them: spaces, blank lines and comments
are put in or exchanged for others. Scanning finds the same tokens in both, on other lines.

* `Relaid` — the second text is the first one in another layout.
* `Relaid.cases_front` — both texts begin alike, up to where the second one ends or has a gap.
* `Token.Stands.relaid` — so a word of the first text stands in the second one.
* `relaid_insert` — a gap put in between two words is another layout.
* `scan_relaid` — the tokens of both texts.
-/

open Cursor

/-- Behind a word, or at the start of a text, there are gaps and words up to the end of the text; in
    the second text there are the same words with other gaps. The gap between two words can be left
    out only where there was none, and it has to be one for the word in front: where a comment comes
    right behind a slash, it is the slash that opens it, and not behind an unreadable word, of which
    it would be a part. -/
inductive Relaid : (previous : Option Token) → (rest rest' : List Char) → Prop
  | last {previous : Option Token} {gap gap' : List Char} : Gap gap [] → Gap gap' [] →
      (∀ t ∈ previous, ∀ c ∈ gap'.head?, t.AllowsGap c) → Relaid previous gap gap'
  | word {previous : Option Token} {gap gap' rest rest' : List Char} {t : Token} :
      Gap gap (t.lexeme.toList ++ rest) → Gap gap' (t.lexeme.toList ++ rest') →
      (∀ t ∈ previous, ∀ c ∈ gap'.head?, t.AllowsGap c) →
      (gap' = [] → previous = none ∨ gap = []) → t.Stands rest → Relaid (some t) rest rest' →
      Relaid previous (gap ++ (t.lexeme.toList ++ rest)) (gap' ++ (t.lexeme.toList ++ rest'))

variable {previous : Option Token} {gap gap' rest rest' : List Char} {t : Token}

/-- Behind a word, both texts begin alike. The second one ends there, or a gap begins. -/
theorem Relaid.cases_front (h : Relaid (some t) rest rest') :
    rest' <+: rest ∨ ∃ front c behind, rest' = front ++ c :: behind ∧ front <+: rest ∧
      (IsBlank c ∨ c = '/') ∧ (front = [] → t.AllowsGap c) := by
  generalize hprevious : some t = previous at h
  induction h generalizing t with
  | @last previous gap gap' _ hgap' hallows =>
    rcases hgap'.eq_nil_or_cons with rfl | ⟨c, behind, rfl, hc⟩
    · exact .inl List.nil_prefix
    · exact .inr ⟨[], c, behind, rfl, List.nil_prefix, hc, fun _ =>
        hallows t hprevious.symm c rfl⟩
  | @word previous gap gap' rest rest' word _ hgap' hallows hnone hword _ ih =>
    rcases hgap'.eq_nil_or_cons with rfl | ⟨c, behind, rfl, hc⟩
    · -- Without a gap, the difference is behind the word.
      rcases hnone rfl with rfl | rfl
      · cases hprevious
      rcases ih rfl with hprefix | ⟨front, c, behind, rfl, hprefix, hc, -⟩
      · exact .inl ((List.prefix_append_right_inj word.lexeme.toList).2 hprefix)
      · refine .inr ⟨word.lexeme.toList ++ front, c, behind, by simp,
          (List.prefix_append_right_inj word.lexeme.toList).2 hprefix, hc, fun hnil => ?_⟩
        exact absurd (List.append_eq_nil_iff.1 hnil).1 hword.toList_lexeme_ne_nil
    · exact .inr ⟨[], c, behind ++ (word.lexeme.toList ++ rest'), rfl, List.nil_prefix, hc, fun _ =>
        hallows t hprevious.symm c rfl⟩

/-- A word of the first text stands in the second one. -/
theorem Token.Stands.relaid (h : t.Stands rest) (hrest : Relaid (some t) rest rest') :
    t.Stands rest' := by
  rcases hrest.cases_front with hprefix | ⟨front, c, behind, rfl, hprefix, hc, hallows⟩
  · exact h.of_prefix hprefix
  · exact h.insert hprefix hc hallows behind

/-- The same words are read off both texts, and then both end. -/
theorem Relaid.exists_reads (h : Relaid previous rest rest') (line line' : Nat) :
    ∃ words words' c c', Reads ⟨rest, line⟩ words c ∧ Reads ⟨rest', line'⟩ words' c' ∧
      c.next.1.kind = .eof ∧ c'.next.1.kind = .eof ∧
      words.map (Token.onLine 0) = words'.map (Token.onLine 0) := by
  induction h generalizing line line' with
  | @last _ gap gap' hgap hgap' _ =>
    have hend {gap : List Char} (hgap : Gap gap []) (line : Nat) :
        (next ⟨gap, line⟩).1.kind = .eof := by
      have hskip := hgap.next_eq line
      rw [List.append_nil] at hskip
      rw [hskip]
      rfl
    exact ⟨[], [], _, _, .nil _, .nil _, hend hgap line, hend hgap' line', rfl⟩
  | @word _ gap gap' rest rest' t hgap hgap' _ _ hstands hrest ih =>
    -- A word in front of which there is a gap is read, on whatever line that begins.
    have hnext {gap rest : List Char} (hgap : Gap gap (t.lexeme.toList ++ rest))
        (hstands : t.Stands rest) (line : Nat) :
        ∃ line₁ line₂, Reads ⟨gap ++ (t.lexeme.toList ++ rest), line⟩ [t.onLine line₁]
          ⟨rest, line₂⟩ := by
      refine ⟨_, _, .singleton ((hgap.next_eq line).trans (hstands.next_eq _)) ?_⟩
      exact hstands.kind_ne_eof
    obtain ⟨line₁, line₂, hfirst⟩ := hnext hgap hstands line
    obtain ⟨line₁', line₂', hfirst'⟩ := hnext hgap' (hstands.relaid hrest) line'
    obtain ⟨words, words', c, c', hreads, hreads', hend, hend', hsame⟩ := ih line₂ line₂'
    refine ⟨_, _, c, c', hfirst.append hreads, hfirst'.append hreads', hend, hend', ?_⟩
    rw [List.map_append, List.map_append, hsame]
    rfl

/-! ### Gaps put in between words -/

/-- Words in front of a text in two layouts. -/
theorem Cursor.Reads.relaid {c c' : Cursor} {words : List Token} (h : Reads c words c')
    (hprevious : ∀ t ∈ previous, t.Stands c.rest)
    (hrest : Relaid (words.getLast?.or previous) c'.rest rest') :
    ∃ front, c.rest = front ++ c'.rest ∧ Relaid previous c.rest (front ++ rest') := by
  induction h generalizing previous with
  | nil => exact ⟨[], rfl, hrest⟩
  | @cons c c' words hk _ ih =>
    obtain ⟨gap, hc, hgap, hstands, -⟩ := exists_gap_of_kind_ne_eof hk
    generalize c.next.1 = t at *
    generalize c.next.2 = d at *
    -- Behind this word, the word in front of the end is the last one of the others, or this one.
    have hlast : Relaid (words.getLast?.or (some t)) c'.rest rest' := by
      rw [List.getLast?_cons] at hrest
      cases hwords : words.getLast? with
      | none => simpa [hwords] using hrest
      | some last => simpa [hwords] using hrest
    obtain ⟨front, hd, hrelaid⟩ := ih (fun u hu => Option.some.inj hu ▸ hstands) hlast
    refine ⟨gap ++ (t.lexeme.toList ++ front), by rw [hc, hd]; simp, ?_⟩
    rw [hc, List.append_assoc, List.append_assoc]
    refine .word hgap (hgap.of_head (hstands.head?_append_eq _ _)) (fun u hu a ha => ?_) .inr
      hstands hrelaid
    refine (hprevious u hu).allowsGap a ?_
    rw [hc, List.head?_append, ha]
    rfl

/-- The last word that is read stands in front of the place that is reached. -/
theorem Cursor.Reads.stands_last {c c' : Cursor} {words : List Token} (h : Reads c words c')
    (hprevious : ∀ t ∈ previous, t.Stands c.rest) :
    ∀ t ∈ words.getLast?.or previous, t.Stands c'.rest := by
  induction h generalizing previous with
  | nil => exact hprevious
  | @cons c c' words hk _ ih =>
    obtain ⟨gap, -, -, hstands, -⟩ := exists_gap_of_kind_ne_eof hk
    have hlast : ∀ t ∈ words.getLast?.or (some c.next.1), t.Stands c'.rest :=
      ih fun t ht => Option.some.inj ht ▸ hstands
    rw [List.getLast?_cons]
    cases hwords : words.getLast? <;> simpa [hwords] using hlast

/-- Each text is in its own layout. -/
theorem relaid_refl (hprevious : ∀ t ∈ previous, t.Stands rest) : Relaid previous rest rest := by
  obtain ⟨words, c, hreads, hend⟩ := exists_reads ⟨rest, 1⟩
  obtain ⟨hgap, -⟩ := gap_of_kind_eq_eof hend
  have hlast := hreads.stands_last hprevious
  obtain ⟨front, hfront, hrelaid⟩ := hreads.relaid hprevious
    (.last hgap hgap fun t ht => (hlast t ht).allowsGap)
  have hfront : rest = front ++ c.rest := hfront
  rwa [← hfront] at hrelaid

/-- A gap that may be put in between two words changes the layout only. -/
theorem relaid_gap (hprevious : ∀ t ∈ previous, t.Stands rest) (hgap : Gap gap rest)
    (hallows : ∀ t ∈ previous, ∀ c ∈ gap.head?, t.AllowsGap c) :
    Relaid previous rest (gap ++ rest) := by
  -- The gap that was there goes on from the new one.
  have hboth : ∀ t ∈ previous, ∀ c ∈ (gap ++ rest).head?, t.AllowsGap c := by
    intro t ht c hc
    cases gap with
    | nil => exact (hprevious t ht).allowsGap c hc
    | cons d gap => exact hallows t ht c hc
  by_cases hk : (next ⟨rest, 1⟩).1.kind = .eof
  · obtain ⟨hgap', -⟩ := gap_of_kind_eq_eof hk
    have hgap' : Gap rest [] := hgap'
    refine .last hgap' (Gap.append ?_ hgap') hboth
    rwa [List.append_nil]
  · obtain ⟨gap', hrest, hgap', hstands, -⟩ := exists_gap_of_kind_ne_eof hk
    generalize (next ⟨rest, 1⟩).1 = t at hrest hgap' hstands
    generalize (next ⟨rest, 1⟩).2.rest = behind at hrest hgap' hstands
    obtain rfl : rest = gap' ++ (t.lexeme.toList ++ behind) := hrest
    rw [← List.append_assoc gap]
    refine .word hgap' (hgap.append hgap') (fun u hu c hc => hboth u hu c ?_)
      (fun hnil => .inr (List.append_eq_nil_iff.1 hnil).2) hstands
      (relaid_refl fun u hu => Option.some.inj hu ▸ hstands)
    rw [← List.append_assoc gap, List.head?_append, hc]
    rfl

/-- **A gap can be put in** behind any words of a text, as long as the last of them allows it. -/
theorem relaid_insert {source : String} {words : List Token} {c : Cursor}
    (hwords : Reads (start source) words c) (hgap : Gap gap c.rest)
    (hallows : ∀ t ∈ words.getLast?, ∀ c ∈ gap.head?, t.AllowsGap c) :
    ∃ front, source.toList = front ++ c.rest ∧
      Relaid none source.toList (front ++ (gap ++ c.rest)) := by
  have hnone : ∀ t ∈ (none : Option Token), t.Stands (start source).rest := nofun
  have hlast := hwords.stands_last hnone
  refine hwords.relaid hnone ?_
  rw [Option.or_none] at hlast ⊢
  exact relaid_gap hlast hgap hallows

/-! ### The tokens -/

/-- **A text in another layout** has the same tokens, but for their lines. -/
theorem scan_relaid {source source' : String} (h : Relaid none source.toList source'.toList) :
    (scan source).map (Token.onLine 0) = (scan source').map (Token.onLine 0) := by
  obtain ⟨words, words', c, c', hreads, hreads', hend, hend', hsame⟩ := h.exists_reads 1 1
  rw [scan_of_reads hreads hend, scan_of_reads hreads' hend', List.map_append, List.map_append,
    hsame, (gap_of_kind_eq_eof hend).2, (gap_of_kind_eq_eof hend').2]
  rfl

end Lox
