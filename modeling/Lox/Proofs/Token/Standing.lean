import Lox.Proofs.Token.Class
import Lox.Proofs.Token.Reading

namespace Lox

/-!
# Words in a text

Which token stands at a place of a text, said without a look at how it is read: first comes a gap,
then the longest word of its class. Reading takes what stands there, and what it takes stands there.

* `Gap` — blanks and comments in front of a text.
* `Token.Stands` — the lexeme of a token stands in front of a text.
* `Gap.next_eq`, `Token.Stands.next_eq` — gaps are skipped, and a word that stands there is read.
* `Token.Stands.of_prefix`, `Token.Stands.insert` — what may happen to the text behind a word.
* `Cursor.exists_gap_of_kind_ne_eof`, `gap_of_kind_eq_eof` — what is read stands behind a gap, and
  at the end only a gap is left.
-/

open Cursor

/-! ### Gaps -/

/-- Blanks and comments in front of a text. A comment goes on to a line feed, which does not belong
    to it, or to the end. -/
inductive Gap : (gap rest : List Char) → Prop
  | nil (rest : List Char) : Gap [] rest
  | blank {c : Char} {gap rest : List Char} : IsBlank c → Gap gap rest → Gap (c :: gap) rest
  | comment {body gap rest : List Char} : '\n' ∉ body → (∀ c ∈ (gap ++ rest).head?, c = '\n') →
      Gap gap rest → Gap ('/' :: '/' :: (body ++ gap)) rest

namespace Cursor

/-- A comment goes on up to the next line feed. -/
theorem skipGapFrom_true (line : Nat) (cs : List Char) :
    skipGapFrom true line cs = skipGapFrom false line (cs.dropWhile (· != '\n')) := by
  induction cs with
  | nil => rfl
  | cons c cs ih =>
    by_cases hc : c = '\n'
    · subst hc
      rfl
    · have hne : (c != '\n') = true := bne_iff_ne.2 hc
      rw [skipGapFrom, hne, lineAfter, if_neg hc, ih]
      simp [hc]

/-- A blank is skipped, and a line feed is counted. -/
theorem skipGapFrom_blank {c : Char} (hc : IsBlank c) (line : Nat) (cs : List Char) :
    skipGapFrom false line (c :: cs) = skipGapFrom false (line + [c].count '\n') cs := by
  have hline : lineAfter line c = line + [c].count '\n' := by
    by_cases h : c = '\n' <;> simp [lineAfter, h]
  rw [skipGapFrom, if_pos ((isGapBlank_iff c).2 hc), hline]

/-- Two slashes begin a comment. -/
theorem skipGapFrom_comment (line : Nat) (cs : List Char) :
    skipGapFrom false line ('/' :: '/' :: cs) =
      skipGapFrom false line (cs.dropWhile (· != '\n')) := by
  rw [skipGapFrom, if_neg (by decide), if_pos ⟨rfl, rfl⟩, skipGapFrom_true]
  rfl

end Cursor

/-- A gap is skipped, and its lines are counted. -/
theorem Gap.skipGapFrom_eq {gap rest : List Char} (h : Gap gap rest) (line : Nat) :
    skipGapFrom false line (gap ++ rest) = skipGapFrom false (line + gap.count '\n') rest := by
  induction h generalizing line with
  | nil => rfl
  | @blank c gap rest hc _ ih =>
    have hcount : [c].count '\n' + gap.count '\n' = (c :: gap).count '\n' :=
      List.count_append.symm
    rw [List.cons_append, skipGapFrom_blank hc, ih, Nat.add_assoc, hcount]
  | @comment body gap rest hbody hend _ ih =>
    have hdrop := (takeWhile_dropWhile_bne hbody hend).2
    have hcount : ('/' :: '/' :: (body ++ gap)).count '\n' = gap.count '\n' := by
      simp [List.count_eq_zero.2 hbody]
    rw [List.cons_append, List.cons_append, List.append_assoc, skipGapFrom_comment, hdrop, ih,
      hcount]

section

variable {gap gap' rest rest' : List Char}

/-- A gap is empty, or it starts with a blank or with the slash of a comment. -/
theorem Gap.eq_nil_or_cons (h : Gap gap rest) :
    gap = [] ∨ ∃ c gap', gap = c :: gap' ∧ (IsBlank c ∨ c = '/') := by
  cases h with
  | nil => exact .inl rfl
  | blank hc => exact .inr ⟨_, _, rfl, .inl hc⟩
  | comment => exact .inr ⟨_, _, rfl, .inr rfl⟩

/-- What a gap is depends on the next character only. -/
theorem Gap.of_head (h : Gap gap rest) (hhead : rest'.head? = rest.head?) : Gap gap rest' := by
  induction h with
  | nil => exact .nil rest'
  | blank hc _ ih => exact .blank hc (ih hhead)
  | @comment body gap rest hbody hend _ ih =>
    refine .comment hbody ?_ (ih hhead)
    rwa [List.head?_append, hhead, ← List.head?_append]

/-- Two gaps next to each other are one, if the first one ends where the second begins. -/
theorem Gap.append (h : Gap gap (gap' ++ rest)) (h' : Gap gap' rest) : Gap (gap ++ gap') rest := by
  generalize hbehind : gap' ++ rest = behind at h
  induction h with
  | nil => exact h'
  | blank hc _ ih => exact .blank hc (ih hbehind)
  | @comment body gap behind hbody hend _ ih =>
    subst hbehind
    rw [List.cons_append, List.cons_append, List.append_assoc]
    refine .comment hbody ?_ (ih rfl)
    rwa [List.append_assoc]

end

/-- The text begins with neither a blank nor a comment. -/
def EndsGap (rest : List Char) : Prop :=
  ∀ c cs, rest = c :: cs → isGapBlank c = false ∧ (c = '/' → cs.head? ≠ some '/')

/-- In front of every text there is a gap, which may be empty, up to where no gap can go on. -/
theorem exists_gap_endsGap (cs : List Char) :
    ∃ gap rest, cs = gap ++ rest ∧ Gap gap rest ∧ EndsGap rest := by
  -- By induction on the length, since a comment takes many characters at once.
  induction hn : cs.length using Nat.strongRecOn generalizing cs with
  | _ n ih =>
    subst hn
    cases cs with
    | nil => exact ⟨[], [], rfl, .nil [], nofun⟩
    | cons c cs =>
      by_cases hblank : IsBlank c
      · obtain ⟨gap, rest, rfl, hgap, hends⟩ := ih cs.length (Nat.lt_succ_self _) cs rfl
        exact ⟨c :: gap, rest, rfl, .blank hblank hgap, hends⟩
      · by_cases hcomment : c = '/' ∧ cs.head? = some '/'
        · obtain ⟨rfl, hhead⟩ := hcomment
          obtain ⟨cs, rfl⟩ := List.head?_eq_some_iff.1 hhead
          have hle := (List.dropWhile_sublist (l := cs) (· != '\n')).length_le
          obtain ⟨gap, rest, hdrop, hgap, hends⟩ :=
            ih _ (by simp only [List.length_cons]; omega) (cs.dropWhile (· != '\n')) rfl
          have hsplit := List.takeWhile_append_dropWhile (p := (· != '\n')) (l := cs)
          refine ⟨'/' :: '/' :: (cs.takeWhile (· != '\n') ++ gap), rest, ?_,
            .comment ?_ ?_ hgap, hends⟩
          · rw [List.cons_append, List.cons_append, List.append_assoc, ← hdrop, hsplit]
          · exact notMem_takeWhile_bne '\n' cs
          · rw [← hdrop]
            exact eq_of_mem_head?_dropWhile '\n' cs
        · refine ⟨[], c :: cs, rfl, .nil _, ?_⟩
          rintro _ _ ⟨⟩
          refine ⟨Bool.eq_false_iff.2 fun h => hblank ((isGapBlank_iff c).1 h), fun hc hhead => ?_⟩
          exact hcomment ⟨hc, hhead⟩

/-- A gap in front of a word is skipped. -/
theorem Gap.next_eq {gap rest : List Char} (h : Gap gap rest) (line : Nat) :
    next ⟨gap ++ rest, line⟩ = next ⟨rest, line + gap.count '\n'⟩ := by
  have hskip : skipGap ⟨gap ++ rest, line⟩ = skipGap ⟨rest, line + gap.count '\n'⟩ :=
    h.skipGapFrom_eq line
  unfold next
  rw [hskip]

/-! ### Words -/

/-- The lexeme of a token stands in front of a text: the longest word of its class, a string up to
    its first quote, or a string that nothing ends. Kind and literal go with the lexeme. -/
inductive Token.Stands : Token → (rest : List Char) → Prop
  | keyword {k : Keyword} {line : Nat} {rest : List Char} : Longest IsWord k.spelling.toList rest →
      Stands ⟨.keyword k, k.spelling, line, none⟩ rest
  | identifier {w : List Char} {line : Nat} {rest : List Char} : Longest IsWord w rest →
      (∀ k : Keyword, k.spelling ≠ String.ofList w) →
      Stands ⟨.identifier, String.ofList w, line, none⟩ rest
  | number {w : List Char} {line : Nat} {rest : List Char} : Longest IsNumeral w rest →
      Stands ⟨.number, String.ofList w, line, some (.number (Number.ofNumeral w))⟩ rest
  /-- A slash in front of another one is no symbol but opens a comment. -/
  | symbol {s : Symbol} {line : Nat} {rest : List Char} : Longest IsOperator s.chars rest →
      (s = .slash → rest.head? ≠ some '/') → Stands ⟨.symbol s, s.spelling, line, none⟩ rest
  | string {body : List Char} {line : Nat} {rest : List Char} : '"' ∉ body →
      Stands ⟨.string, String.ofList ('"' :: body ++ ['"']), line,
        some (.string (String.ofList body))⟩ rest
  | unterminated {body : List Char} {line : Nat} : '"' ∉ body →
      Stands ⟨.invalid .unterminatedString, String.ofList ('"' :: body), line, none⟩ []
  | unreadable {w : List Char} {line : Nat} {rest : List Char} : Longest IsUnreadable w rest →
      Stands ⟨.invalid .undefinedToken, String.ofList w, line, none⟩ rest

namespace Cursor

variable {w rest : List Char}

/-- A character that starts a word is not skipped. -/
theorem next_of_start {c : Char} {cs : List Char} (line : Nat) (hblank : isGapBlank c = false)
    (hcomment : c = '/' → cs.head? ≠ some '/') :
    next ⟨c :: cs, line⟩ = tokenAt line c cs := by
  have hgap : skipGap ⟨c :: cs, line⟩ = ⟨c :: cs, line⟩ := by
    unfold skipGap skipGapFrom
    rw [if_neg (Bool.eq_false_iff.1 hblank), if_neg fun h => hcomment h.1 h.2]
  unfold next
  rw [hgap]

/-- A word that is no keyword is a name. -/
theorem wordToken_of_ne (line : Nat) {word : String} (h : ∀ k : Keyword, k.spelling ≠ word) :
    wordToken line word = ⟨.identifier, word, line, none⟩ := by
  have hnone : Keyword.ofWord? word = none := by
    refine List.find?_eq_none.2 fun k _ => ?_
    simpa using h k
  unfold wordToken
  rw [hnone]

/-- A word of letters is a token, a keyword if it is spelled like one. -/
theorem next_longest_word (h : Longest IsWord w rest) (line : Nat) :
    next ⟨w ++ rest, line⟩ =
      (wordToken line (String.ofList w), ⟨rest, line + w.count '\n'⟩) := by
  have hcount := h.1.hasNoBlank.count_lineFeed
  obtain ⟨c, cs, rfl, -⟩ := h.1
  obtain ⟨hletter, htake, hdrop⟩ := h.takeWhile_eq isWordChar_iff
  have hc := (isWordStart_iff c).2 hletter
  obtain ⟨hblank, hquote, hslash, -, hdigit⟩ := isWordStart_cases hc
  rw [List.cons_append, next_of_start line hblank fun h => absurd h hslash, hcount]
  unfold tokenAt
  rw [if_neg hquote, if_neg (Bool.eq_false_iff.1 hdigit), if_pos hc, htake, hdrop]
  rfl

/-- A numeral that is the longest is the next token. -/
theorem next_longest_numeral (h : Longest IsNumeral w rest) (line : Nat) :
    next ⟨w ++ rest, line⟩ =
      (⟨.number, String.ofList w, line, some (.number (Number.ofNumeral w))⟩,
        ⟨rest, line + w.count '\n'⟩) := by
  have hcount := h.1.hasNoBlank.count_lineFeed
  have hsplit := h.splitNumeral_eq
  obtain ⟨c, cs, rfl, hc⟩ := h.1.exists_cons
  obtain ⟨hblank, hquote, hslash, -⟩ := isDigit_cases hc
  rw [List.cons_append] at hsplit ⊢
  rw [next_of_start line hblank fun h => absurd h hslash, hcount]
  unfold tokenAt
  rw [if_neg hquote, if_pos hc, hsplit]
  rfl

/-- A symbol that is the longest is the next token, unless it is the slash of a comment. -/
theorem next_longest_symbol {s : Symbol} (h : Longest IsOperator s.chars rest)
    (hslash : s = .slash → rest.head? ≠ some '/') (line : Nat) :
    next ⟨s.chars ++ rest, line⟩ =
      (⟨.symbol s, s.spelling, line, none⟩, ⟨rest, line + s.chars.count '\n'⟩) := by
  have hcount := h.1.hasNoBlank.count_lineFeed
  have hfront := h.ofFront?_eq
  have hdrop : (s.chars ++ rest).drop s.chars.length = rest := List.drop_left
  obtain ⟨c, cs, hchars, hblank, hquote, hdigit, hword, hcs⟩ := Symbol.chars_eq_cons s
  -- A slash that begins no comment is a symbol.
  have hcomment : c = '/' → (cs ++ rest).head? ≠ some '/' := by
    rintro rfl
    obtain rfl := hcs rfl
    exact hslash (Symbol.chars_injective hchars)
  rw [hcount]
  rw [hchars] at hfront hdrop ⊢
  rw [List.cons_append] at hfront hdrop ⊢
  rw [next_of_start line hblank hcomment]
  unfold tokenAt
  rw [if_neg hquote, if_neg (Bool.eq_false_iff.1 hdigit), if_neg (Bool.eq_false_iff.1 hword)]
  simp only [hfront, hchars, hdrop]
  rfl

/-- An unreadable word that is the longest is the next token. -/
theorem next_longest_unreadable (h : Longest IsUnreadable w rest) (line : Nat) :
    next ⟨w ++ rest, line⟩ =
      (⟨.invalid .undefinedToken, String.ofList w, line, none⟩, ⟨rest, line + w.count '\n'⟩) := by
  have hcount := h.1.hasNoBlank.count_lineFeed
  obtain ⟨c, cs, rfl, -⟩ := h.1
  obtain ⟨hc, htake, hdrop⟩ := h.takeWhile_eq (p := (!isWhiteSpace ·)) fun c => by simp
  obtain ⟨hblank, hquote, hdigit, hword, hfront⟩ := (startsNothing_iff c (cs ++ rest)).1 hc
  -- A slash is a symbol, so the word does not open a comment.
  have hslash : c ≠ '/' := by
    rintro rfl
    exact (hc.2.2 []).2.2 ⟨.slash, rfl⟩
  rw [List.cons_append, next_of_start line hblank fun h => absurd h hslash, hcount]
  unfold tokenAt
  rw [if_neg hquote, if_neg (Bool.eq_false_iff.1 hdigit), if_neg (Bool.eq_false_iff.1 hword)]
  simp only [hfront, htake, hdrop]
  rfl

/-- A quote begins a string. -/
theorem next_quote (line : Nat) (cs : List Char) :
    next ⟨'"' :: cs, line⟩ = stringToken line cs := by
  rw [next_of_start line (by decide) fun h => absurd h (by decide)]
  unfold tokenAt
  rw [if_pos rfl]

/-- A string goes up to the next quote. -/
theorem next_string {body : List Char} (hbody : '"' ∉ body) (line : Nat) :
    next ⟨'"' :: body ++ ['"'] ++ rest, line⟩ =
      (⟨.string, String.ofList ('"' :: body ++ ['"']), line, some (.string (String.ofList body))⟩,
        ⟨rest, line + ('"' :: body ++ ['"']).count '\n'⟩) := by
  have hquote : ∀ c ∈ ('"' :: rest).head?, c = '"' := by simp
  obtain ⟨htake, hdrop⟩ := takeWhile_dropWhile_bne hbody hquote
  have htext : '"' :: body ++ ['"'] ++ rest = '"' :: (body ++ '"' :: rest) := by
    simp
  have hcount : ('"' :: body ++ ['"']).count '\n' = body.count '\n' := by
    simp
  rw [htext, next_quote, hcount]
  unfold stringToken
  simp only [htake, hdrop]

/-- Without another quote a string goes up to the end. -/
theorem next_unterminated {body : List Char} (hbody : '"' ∉ body) (line : Nat) :
    next ⟨'"' :: body ++ [], line⟩ =
      (⟨.invalid .unterminatedString, String.ofList ('"' :: body), line, none⟩,
        ⟨[], line + ('"' :: body).count '\n'⟩) := by
  have hend : ∀ c ∈ ([] : List Char).head?, c = '"' := by simp
  obtain ⟨htake, hdrop⟩ := takeWhile_dropWhile_bne hbody hend
  have hcount : ('"' :: body).count '\n' = body.count '\n' := by
    simp
  rw [List.cons_append, next_quote, hcount]
  unfold stringToken
  simp only [htake, hdrop]

end Cursor

namespace Token.Stands

variable {t : Token} {rest : List Char}

/-- The end of the text is no word. -/
theorem kind_ne_eof (h : t.Stands rest) : t.kind ≠ .eof := by
  cases h <;> simp

/-- The token that stands in front of a text is read there. -/
theorem next_eq (h : t.Stands rest) (line : Nat) :
    next ⟨t.lexeme.toList ++ rest, line⟩ =
      ({ t with line }, ⟨rest, line + t.lexeme.toList.count '\n'⟩) := by
  -- One lemma for each class of words tells what comes next in front of its longest word.
  cases h with
  | @keyword k _ _ hw =>
    rw [next_longest_word hw, String.ofList_toList]
    unfold wordToken
    rw [Keyword.ofWord?_spelling]
  | @identifier w _ _ hw hne =>
    rw [String.toList_ofList, next_longest_word hw, wordToken_of_ne line hne]
  | @number w _ _ hw => rw [String.toList_ofList, next_longest_numeral hw]
  | @symbol s _ _ hs hslash =>
    rw [Symbol.spelling, String.toList_ofList, next_longest_symbol hs hslash]
    rfl
  | @string body _ _ hbody => rw [String.toList_ofList, next_string hbody]
  | @unterminated body _ hbody => rw [String.toList_ofList, next_unterminated hbody]
  | @unreadable w _ _ hw => rw [String.toList_ofList, next_longest_unreadable hw]

/-- Every word has a character. -/
theorem toList_lexeme_ne_nil (h : t.Stands rest) : t.lexeme.toList ≠ [] := by
  intro hnil
  have hnext := h.next_eq 1
  have hk : (next ⟨t.lexeme.toList ++ rest, 1⟩).1.kind ≠ .eof := by
    rw [hnext]
    exact h.kind_ne_eof
  have hlt := length_next_lt hk
  rw [hnext, hnil] at hlt
  exact absurd hlt (Nat.lt_irrefl _)

/-- What is behind a word does not change how the text begins. -/
theorem head?_append_eq (h : t.Stands rest) (cs cs' : List Char) :
    (t.lexeme.toList ++ cs).head? = (t.lexeme.toList ++ cs').head? := by
  obtain ⟨a, as, hlexeme⟩ := List.exists_cons_of_ne_nil h.toList_lexeme_ne_nil
  rw [hlexeme]
  rfl

end Token.Stands

/-! ### Words in other texts -/

/-- A gap may begin with the character right behind the token: not behind a string that nothing
    ends, which would take it in, and with a slash neither behind another one nor behind an
    unreadable word. -/
def Token.AllowsGap (t : Token) (c : Char) : Prop :=
  t.kind ≠ .invalid .unterminatedString ∧
    (c = '/' → t.kind ≠ .symbol .slash ∧ t.kind ≠ .invalid .undefinedToken)

namespace Token.Stands

variable {t : Token} {rest front : List Char}

/-- What stands in front of a text stands in front of each beginning of it. -/
theorem of_prefix (h : t.Stands rest) (hfront : front <+: rest) : t.Stands front := by
  cases h with
  | keyword hw => exact .keyword (hw.of_prefix hfront)
  | identifier hw hne => exact .identifier (hw.of_prefix hfront) hne
  | number hw => exact .number (hw.of_prefix hfront)
  | symbol hs hslash =>
    refine .symbol (hs.of_prefix hfront) fun heq hhead => hslash heq ?_
    obtain ⟨behind, rfl⟩ := hfront
    rw [List.head?_append, hhead, Option.some_or]
  | string hbody => exact .string hbody
  | unterminated hbody =>
    obtain rfl := List.prefix_nil.1 hfront
    exact .unterminated hbody
  | unreadable hw => exact .unreadable (hw.of_prefix hfront)

/-- The text behind a token may be cut off anywhere, and a gap may begin there. -/
theorem insert (h : t.Stands rest) (hfront : front <+: rest) {c : Char}
    (hc : IsBlank c ∨ c = '/') (hnext : front = [] → t.AllowsGap c) (behind : List Char) :
    t.Stands (front ++ c :: behind) := by
  -- Letters, digits and points are neither blanks nor slashes.
  have hgap {P : List Char → Prop} (hblank : ∀ {w}, P w → HasNoBlank w)
      (hslash : ∀ {w}, P w → '/' ∉ w) (w more : List Char) : ¬ P (w ++ (front ++ c :: more)) := by
    intro hlonger
    rcases hc with hc | rfl
    · exact hblank hlonger c (by simp) hc
    · exact hslash hlonger (by simp)
  cases h with
  | keyword hw =>
    exact .keyword (hw.insert hfront (hgap IsWord.hasNoBlank IsWord.slash_notMem _))
  | identifier hw hne =>
    exact .identifier (hw.insert hfront (hgap IsWord.hasNoBlank IsWord.slash_notMem _)) hne
  | number hw =>
    exact .number (hw.insert hfront (hgap IsNumeral.hasNoBlank IsNumeral.slash_notMem _))
  | @symbol s _ _ hs hslash =>
    refine .symbol (hs.insert hfront fun more hlonger => ?_) fun heq hhead => ?_
    · rcases Symbol.eq_of_isOperator_append hlonger with hnil | hequal
      · simp at hnil
      · -- Nothing but a `=` makes a symbol longer.
        obtain ⟨-, hequal⟩ | ⟨-, hequal⟩ := List.append_eq_singleton_iff.1 hequal
        · obtain ⟨rfl, -⟩ := List.cons.inj hequal
          rcases hc with hc | hc
          · exact absurd hc (by simp [IsBlank])
          · exact absurd hc (by decide)
        · exact absurd hequal (List.cons_ne_nil _ _)
    · cases front with
      | nil => exact ((hnext rfl).2 (Option.some.inj hhead)).1 (congrArg Token.Kind.symbol heq)
      | cons d front =>
        obtain ⟨more, rfl⟩ := hfront
        exact hslash heq hhead
  | string hbody => exact .string hbody
  | unterminated => exact absurd rfl (hnext (List.prefix_nil.1 hfront)).1
  | @unreadable w _ _ hw =>
    refine .unreadable (hw.insert hfront fun more hlonger => ?_)
    rcases hc with hc | rfl
    · exact hlonger.hasNoBlank c (by simp) hc
    cases front with
    | nil => exact ((hnext rfl).2 rfl).2 rfl
    | cons d front =>
      -- The word would already go on in its own text.
      obtain ⟨e, es, rfl, -⟩ := hw.1
      obtain ⟨e', es', heq, -, hes'⟩ := hlonger
      obtain ⟨rfl, rfl⟩ := List.cons.inj heq
      have hnil := hw.2 [d] ((List.prefix_append [d] front).trans hfront)
        (hw.1.concat (hes' d (by simp)))
      exact absurd hnil (List.cons_ne_nil d [])

/-- A gap that is there is one that the token allows. -/
theorem allowsGap (h : t.Stands rest) : ∀ c ∈ rest.head?, t.AllowsGap c := by
  cases h with
  | @symbol s _ _ _ hslash =>
    refine fun c hc => ⟨nofun, ?_⟩
    rintro rfl
    exact ⟨fun hk => hslash (Token.Kind.symbol.inj hk) hc, nofun⟩
  | unterminated => nofun
  | @unreadable w _ _ hw =>
    refine fun c hc => ⟨nofun, ?_⟩
    rintro rfl
    obtain ⟨behind, rfl⟩ := List.head?_eq_some_iff.1 hc
    have hlonger : IsUnreadable (w ++ ['/']) := hw.1.concat (by decide)
    exact absurd (hw.2 ['/'] (List.prefix_append ['/'] behind) hlonger) (List.cons_ne_nil _ _)
  | _ => exact fun _ _ => ⟨nofun, fun _ => ⟨nofun, nofun⟩⟩

end Token.Stands

/-! ### Words that are read stand in the text -/

namespace Cursor

/-- A word of letters stands where it is read, be it a keyword or a name. -/
theorem stands_wordToken {w rest : List Char} (h : Longest IsWord w rest) (line : Nat) :
    (wordToken line (String.ofList w)).Stands rest := by
  by_cases hk : ∃ k : Keyword, k.spelling = String.ofList w
  · obtain ⟨k, hk⟩ := hk
    have hw : w = k.spelling.toList := by
      rw [hk, String.toList_ofList]
    rw [hw] at h
    rw [← hk]
    unfold wordToken
    rw [Keyword.ofWord?_spelling]
    exact .keyword h
  · have hne : ∀ k : Keyword, k.spelling ≠ String.ofList w := fun k h => hk ⟨k, h⟩
    rw [wordToken_of_ne line hne]
    exact .identifier h hne

/-- A string stands where it is read, be it ended or not. -/
theorem stands_stringToken (line : Nat) (cs : List Char) :
    (stringToken line cs).1.Stands (stringToken line cs).2.rest := by
  have hbody := notMem_takeWhile_bne '"' cs
  unfold stringToken
  split
  · exact .unterminated hbody
  · next quote rest hdrop =>
    obtain rfl : quote = '"' := by
      refine eq_of_mem_head?_dropWhile '"' cs quote ?_
      rw [hdrop]
      rfl
    exact .string hbody

/-- Where no gap goes on, the token that is read stands in front of the rest. -/
theorem stands_tokenAt {c : Char} {cs : List Char} (h : EndsGap (c :: cs)) (line : Nat) :
    (tokenAt line c cs).1.Stands (tokenAt line c cs).2.rest := by
  obtain ⟨hblank, hcomment⟩ := h c cs rfl
  unfold tokenAt
  split
  · exact stands_stringToken line cs
  next hquote =>
  split
  · next hdigit => exact .number (longest_splitNumeral hdigit cs)
  next hdigit =>
  split
  · next hword =>
    exact stands_wordToken (longest_takeWhile isWordChar_iff ((isWordStart_iff c).1 hword) cs) line
  next hword =>
  split
  · next s hs =>
    obtain ⟨rest, hrest⟩ := Symbol.isPrefix_of_ofFront? hs
    rw [← hrest] at hs ⊢
    rw [List.drop_left]
    refine .symbol (longest_of_ofFront? hs) fun hslash => ?_
    -- Two slashes would go on with the gap.
    subst hslash
    obtain ⟨rfl, rfl⟩ := List.cons.inj hrest
    exact hcomment rfl
  · next hfront =>
    have hc : StartsNothing c := (startsNothing_iff c cs).2
      ⟨hblank, hquote, Bool.eq_false_iff.2 hdigit, Bool.eq_false_iff.2 hword, hfront⟩
    exact .unreadable (longest_takeWhile (fun c => by simp) hc cs)

/-- A token of letters is spelled as the word. -/
theorem lexeme_wordToken (line : Nat) (word : String) : (wordToken line word).lexeme = word := by
  unfold wordToken
  split <;> rfl

/-- The lexeme of a token and the rest of the text make up the text. -/
theorem lexeme_tokenAt_append (line : Nat) (c : Char) (cs : List Char) :
    (tokenAt line c cs).1.lexeme.toList ++ (tokenAt line c cs).2.rest = c :: cs := by
  -- In the order of the classes: strings, numbers, words, symbols, and what is unreadable.
  unfold tokenAt
  split
  · next hc =>
    have hsplit := List.takeWhile_append_dropWhile (p := (· != '"')) (l := cs)
    unfold stringToken
    split
    · next hdrop =>
      rw [hdrop, List.append_nil] at hsplit
      simp only [String.toList_ofList, List.append_nil, hsplit, hc]
    · next quote rest hdrop =>
      rw [hdrop] at hsplit
      simp only [String.toList_ofList, List.cons_append, List.append_assoc, List.nil_append,
        hsplit, hc]
  split
  · simp only [String.toList_ofList, splitNumeral_append]
  split
  · simp only [lexeme_wordToken, String.toList_ofList, List.cons_append,
      List.takeWhile_append_dropWhile]
  split
  · next s hs =>
    simp only [Symbol.spelling, String.toList_ofList]
    exact List.prefix_iff_eq_append.1 (Symbol.isPrefix_of_ofFront? hs)
  · simp only [String.toList_ofList, List.cons_append, List.takeWhile_append_dropWhile]

/-- In front of every cursor there is a gap, and behind it stands the next token, if the text does
    not end there. -/
theorem exists_gap_next (c : Cursor) :
    ∃ gap rest, c.rest = gap ++ rest ∧ Gap gap rest ∧
      (rest = [] ∧ c.next.1 = Token.eof (c.line + gap.count '\n') ∨
        c.next.1.kind ≠ .eof ∧ rest = c.next.1.lexeme.toList ++ c.next.2.rest ∧
          c.next.1.Stands c.next.2.rest ∧ c.next.1.line = c.line + gap.count '\n' ∧
          c.next.2.line = c.next.1.line + c.next.1.lexeme.toList.count '\n') := by
  obtain ⟨cs, line⟩ := c
  obtain ⟨gap, rest, rfl, hgap, hends⟩ := exists_gap_endsGap cs
  refine ⟨gap, rest, rfl, hgap, ?_⟩
  rw [hgap.next_eq]
  generalize line + gap.count '\n' = line
  cases rest with
  | nil => exact .inl ⟨rfl, congrArg Prod.fst (next_of_rest_eq_nil rfl)⟩
  | cons c cs =>
    obtain ⟨hblank, hcomment⟩ := hends c cs rfl
    have hstands := stands_tokenAt hends line
    have happend := lexeme_tokenAt_append line c cs
    -- What stands there is read, so the line behind it is known.
    have hnext := hstands.next_eq line
    rw [happend, next_of_start line hblank hcomment] at hnext
    rw [next_of_start line hblank hcomment]
    have hline := (line_tokenAt line c cs).1
    refine .inr ⟨hstands.kind_ne_eof, happend.symm, hstands, hline, ?_⟩
    rw [hline]
    exact congrArg (·.2.line) hnext

/-- At the end token, the rest of the text is a gap. -/
theorem gap_of_kind_eq_eof {c : Cursor} (hk : c.next.1.kind = .eof) :
    Gap c.rest [] ∧ c.next.1 = Token.eof (c.line + c.rest.count '\n') := by
  obtain ⟨gap, rest, hrest, hgap, ⟨rfl, hnext⟩ | ⟨hne, -⟩⟩ := c.exists_gap_next
  · rw [List.append_nil] at hrest
    rw [hrest]
    exact ⟨hgap, hnext⟩
  · exact absurd hk hne

/-- Every other token stands behind a gap. -/
theorem exists_gap_of_kind_ne_eof {c : Cursor} (hk : c.next.1.kind ≠ .eof) :
    ∃ gap, c.rest = gap ++ (c.next.1.lexeme.toList ++ c.next.2.rest) ∧
      Gap gap (c.next.1.lexeme.toList ++ c.next.2.rest) ∧ c.next.1.Stands c.next.2.rest ∧
      c.next.1.line = c.line + gap.count '\n' ∧
      c.next.2.line = c.next.1.line + c.next.1.lexeme.toList.count '\n' := by
  obtain ⟨gap, rest, hrest, hgap, ⟨-, hnext⟩ | ⟨-, rfl, hstands⟩⟩ := c.exists_gap_next
  · rw [hnext] at hk
    exact absurd rfl hk
  · exact ⟨gap, hrest, hgap, hstands⟩

end Cursor

end Lox
