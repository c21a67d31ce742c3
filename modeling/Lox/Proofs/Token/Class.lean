import Lox.Token.Cursor
import Mathlib

namespace Lox

/-!
# Classes of words

What the words of a text look like, said of the characters alone and without a look at how they are
found. A word is the longest one of its class where it stands, so the class and the text tell where
the word ends.

* `Longest` — a text is the longest of its class in front of another one.
* `IsWord`, `IsNumeral`, `IsOperator`, `IsUnreadable` — the classes.
* `Longest.unique` — there is one longest text of a class at the most.
* `Longest.insert` — something else may begin behind it.
* `longest_takeWhile`, `longest_splitNumeral`, `longest_of_ofFront?` — what scanning splits off a
  text is the longest of its class.
* `startsNothing_iff` — the characters that no other word starts with.
-/

open Cursor

variable {P : List Char → Prop} {first more : Char → Prop} {w rest w' rest' : List Char}

/-! ### Blanks -/

/-- The characters that are skipped between words. -/
def IsBlank (c : Char) : Prop := c = ' ' ∨ c = '\t' ∨ c = '\r' ∨ c = '\n'

/-- Scanning skips just these characters. -/
theorem isGapBlank_iff (c : Char) : isGapBlank c = true ↔ IsBlank c := by
  simp [isGapBlank, IsBlank, or_assoc]

/-- No character of the text is blank. -/
def HasNoBlank (w : List Char) : Prop := ∀ c ∈ w, ¬ IsBlank c

/-- A text without blanks is on one line. -/
theorem HasNoBlank.count_lineFeed {w : List Char} (h : HasNoBlank w) : w.count '\n' = 0 :=
  List.count_eq_zero.2 fun hmem => h _ hmem (.inr (.inr (.inr rfl)))

/-! ### Longest words -/

/-- In front of the rest stands a text of a class, and no text of the class goes on into the
    rest. -/
def Longest (P : List Char → Prop) (w rest : List Char) : Prop :=
  P w ∧ ∀ further, further <+: rest → P (w ++ further) → further = []

/-- Two texts of a class that are the longest at one place are the same. -/
theorem Longest.unique (h : Longest P w rest) (h' : Longest P w' rest')
    (heq : w ++ rest = w' ++ rest') : w = w' ∧ rest = rest' := by
  -- The longer text would go on from the shorter one into the rest behind that.
  rcases List.append_eq_append_iff.1 heq with ⟨further, rfl, rfl⟩ | ⟨further, rfl, rfl⟩
  · obtain rfl := h.2 further (List.prefix_append _ _) h'.1
    simp
  · obtain rfl := h'.2 further (List.prefix_append _ _) h.1
    simp

/-- A text is the longest of its class if the next character of the rest cannot go on with it. -/
theorem longest_of_head (hw : P w) (h : ∀ c ∈ rest.head?, ∀ further, ¬ P (w ++ c :: further)) :
    Longest P w rest := by
  refine ⟨hw, fun further hbegin hfurther => ?_⟩
  cases further with
  | nil => rfl
  | cons c further =>
    obtain ⟨behind, rfl⟩ := hbegin
    exact absurd hfurther (h c rfl further)

/-- With less behind it, a text stays the longest of its class. -/
theorem Longest.of_prefix (h : Longest P w rest) {front : List Char} (hfront : front <+: rest) :
    Longest P w front :=
  ⟨h.1, fun further hbegin => h.2 further (hbegin.trans hfront)⟩

/-- The text behind a word may be cut off anywhere. The word stays the longest if no text of its
    class goes on over the character at which something else begins there. -/
theorem Longest.insert (h : Longest P w rest) {front behind : List Char} (hfront : front <+: rest)
    {c : Char} (hc : ∀ more, ¬ P (w ++ (front ++ c :: more))) :
    Longest P w (front ++ c :: behind) := by
  refine ⟨h.1, fun further hbegin hfurther => ?_⟩
  -- A longer word would end inside what is left of its text or go over the joint.
  rcases List.prefix_or_prefix_of_prefix hbegin (List.prefix_append front (c :: behind)) with
    hinside | ⟨more, rfl⟩
  · exact h.2 further (hinside.trans hfront) hfurther
  cases more with
  | nil =>
    rw [List.append_nil] at hfurther ⊢
    exact h.2 front hfront hfurther
  | cons c' more =>
    have hhead := (List.cons_prefix_cons.1 ((List.prefix_append_right_inj front).1 hbegin)).1
    subst hhead
    exact absurd hfurther (hc more)

/-! ### Texts up to a character -/

/-- Where the characters of a class end, so does what is taken of that class. -/
theorem takeWhile_append {p : Char → Bool} {cs follow : List Char} (h : ∀ c ∈ cs, p c = true)
    (hfollow : ∀ c ∈ follow.head?, p c = false) :
    (cs ++ follow).takeWhile p = cs ∧ (cs ++ follow).dropWhile p = follow := by
  rw [List.takeWhile_append_of_pos h, List.dropWhile_append_of_pos h]
  cases follow with
  | nil => exact ⟨List.append_nil cs, rfl⟩
  | cons c follow =>
    have hc := hfollow c rfl
    rw [List.takeWhile_cons_of_neg (by rw [hc]; exact Bool.false_ne_true),
      List.dropWhile_cons_of_neg (by rw [hc]; exact Bool.false_ne_true)]
    exact ⟨List.append_nil cs, rfl⟩

/-- Dropping stops at a character that is not of the class. -/
theorem forall_mem_head?_dropWhile (p : Char → Bool) (cs : List Char) :
    ∀ c ∈ (cs.dropWhile p).head?, p c = false := by
  intro c hc
  have hstop := List.head?_dropWhile_not p cs
  rw [Option.mem_def.1 hc] at hstop
  simpa using hstop

/-- What is taken up to a character does not have it. -/
theorem notMem_takeWhile_bne (stop : Char) (cs : List Char) : stop ∉ cs.takeWhile (· != stop) := by
  intro hmem
  simpa using List.all_eq_true.1 List.all_takeWhile stop hmem

/-- What is dropped up to a character is followed by it, or by nothing. -/
theorem eq_of_mem_head?_dropWhile (stop : Char) (cs : List Char) :
    ∀ c ∈ (cs.dropWhile (· != stop)).head?, c = stop := by
  simpa using forall_mem_head?_dropWhile (· != stop) cs

/-- A text without a character is all that stands in front of the first such character. -/
theorem takeWhile_dropWhile_bne {stop : Char} {body : List Char} (hbody : stop ∉ body)
    (hrest : ∀ c ∈ rest.head?, c = stop) :
    (body ++ rest).takeWhile (· != stop) = body ∧ (body ++ rest).dropWhile (· != stop) = rest := by
  refine takeWhile_append (fun c hc => ?_) fun c hc => by simp [hrest c hc]
  rw [bne_iff_ne]
  rintro rfl
  exact hbody hc

/-! ### Runs of characters -/

/-- The text has a first character of one class, and all others are of a second one. -/
def IsRun (first more : Char → Prop) (w : List Char) : Prop :=
  ∃ c cs, w = c :: cs ∧ first c ∧ ∀ d ∈ cs, more d

/-- A run is the longest where a character follows that is not of its second class. -/
theorem longest_run (hw : IsRun first more w) (hrest : ∀ c ∈ rest.head?, ¬ more c) :
    Longest (IsRun first more) w rest := by
  refine longest_of_head hw fun c hc further hlonger => hrest c hc ?_
  obtain ⟨d, ds, rfl, -⟩ := hw
  obtain ⟨d', ds', heq, -, hds'⟩ := hlonger
  obtain ⟨-, rfl⟩ := List.cons.inj heq
  exact hds' c (by simp)

/-- A run may be continued by a character of its second class. -/
theorem IsRun.concat (h : IsRun first more w) {c : Char} (hc : more c) :
    IsRun first more (w ++ [c]) := by
  obtain ⟨d, ds, rfl, hd, hds⟩ := h
  exact ⟨d, ds ++ [c], rfl, hd, List.forall_mem_append.2 ⟨hds, List.forall_mem_singleton.2 hc⟩⟩

/-- A run goes on up to the first character that is not of the second class. -/
theorem longest_takeWhile {p : Char → Bool} (hp : ∀ c, p c = true ↔ more c) {c : Char}
    (hc : first c) (cs : List Char) :
    Longest (IsRun first more) (c :: cs.takeWhile p) (cs.dropWhile p) := by
  refine longest_run ⟨c, _, rfl, hc, fun d hd => ?_⟩ fun d hd hmore => ?_
  · exact (hp d).1 (List.all_eq_true.1 List.all_takeWhile d hd)
  · have hstop := forall_mem_head?_dropWhile p cs d hd
    rw [(hp d).2 hmore] at hstop
    exact absurd hstop.symm Bool.false_ne_true

/-- A run that is the longest is found by its second class. -/
theorem Longest.takeWhile_eq {p : Char → Bool} (hp : ∀ c, p c = true ↔ more c) {c : Char}
    {cs : List Char} (h : Longest (IsRun first more) (c :: cs) rest) :
    first c ∧ (cs ++ rest).takeWhile p = cs ∧ (cs ++ rest).dropWhile p = rest := by
  obtain ⟨c', cs', heq, hc, -⟩ := h.1
  obtain ⟨rfl, -⟩ := List.cons.inj heq
  obtain ⟨htake, hdrop⟩ := (longest_takeWhile hp hc (cs ++ rest)).unique h (by simp)
  exact ⟨hc, (List.cons.inj htake).2, hdrop⟩

/-- Letters, the underscore among them. -/
def IsLetter (c : Char) : Prop := c.isAlpha = true ∨ c = '_'

/-- A letter, with letters and digits behind it. -/
def IsWord : List Char → Prop := IsRun IsLetter fun c => IsLetter c ∨ c.isDigit = true

/-- A word starts with a letter. -/
theorem isWordStart_iff (c : Char) : isWordStart c = true ↔ IsLetter c := by
  simp [isWordStart, IsLetter]

/-- A word goes on over letters and digits. -/
theorem isWordChar_iff (c : Char) : isWordChar c = true ↔ IsLetter c ∨ c.isDigit = true := by
  simp [isWordChar, isWordStart_iff]

/-- Letters stand behind the digits, among the characters. -/
theorem toNat_of_isWordStart {c : Char} (h : isWordStart c = true) : 'A'.toNat ≤ c.toNat := by
  simp only [isWordStart, Char.isAlpha, Char.isUpper, Char.isLower, Bool.or_eq_true,
    Bool.and_eq_true, decide_eq_true_eq, beq_iff_eq, ge_iff_le, UInt32.le_iff_toNat_le,
    Char.toNat_val] at h
  rcases h with (⟨h, -⟩ | ⟨h, -⟩) | rfl
  · exact h
  · exact Nat.le_trans (by decide) h
  · decide

/-- A character that starts a word of letters belongs to no other class of words. -/
theorem isWordStart_cases {c : Char} (h : isWordStart c = true) :
    isGapBlank c = false ∧ c ≠ '"' ∧ c ≠ '/' ∧ c ≠ '=' ∧ c.isDigit = false := by
  have hle := toNat_of_isWordStart h
  have hne (d : Char) (hd : d.toNat < 'A'.toNat) : c ≠ d := by
    rintro rfl
    omega
  refine ⟨?_, hne '"' (by decide), hne '/' (by decide), hne '=' (by decide), ?_⟩
  · refine Bool.eq_false_iff.2 fun hblank => ?_
    rcases (isGapBlank_iff c).1 hblank with hc | hc | hc | hc <;>
      exact absurd hc (hne _ (by decide))
  · refine Bool.eq_false_iff.2 fun hdigit => ?_
    have hnine : c.toNat ≤ '9'.toNat := (Char.isDigit_iff_toNat.1 hdigit).2
    have hlt : '9'.toNat < 'A'.toNat := by decide
    omega

/-- A word has no blanks. -/
theorem IsWord.hasNoBlank (h : IsWord w) : HasNoBlank w := by
  obtain ⟨c, cs, rfl, hc, hcs⟩ := h
  have hall : ∀ d ∈ c :: cs, isWordChar d = true :=
    List.forall_mem_cons.2 ⟨(isWordChar_iff c).2 (.inl hc), fun d hd =>
      (isWordChar_iff d).2 (hcs d hd)⟩
  rintro d hd (rfl | rfl | rfl | rfl) <;> exact absurd (hall _ hd) (by decide)

/-- No comment starts inside a word. -/
theorem IsWord.slash_notMem (h : IsWord w) : '/' ∉ w := by
  obtain ⟨c, cs, rfl, hc, hcs⟩ := h
  refine fun hmem => (List.mem_cons.1 hmem).elim ?_ fun hslash => ?_
  · rintro rfl
    exact absurd ((isWordStart_iff '/').2 hc) (by decide)
  · exact absurd ((isWordChar_iff '/').2 (hcs '/' hslash)) (by decide)

/-- A keyword is a word of letters. -/
theorem isWord_spelling (k : Keyword) : IsWord k.spelling.toList := by
  -- The keywords are looked through one by one.
  have hword : k.spelling.toList.head?.any isWordStart = true ∧
      k.spelling.toList.tail.all isWordChar = true := by
    cases k <;> decide
  obtain ⟨hhead, htail⟩ := hword
  cases hchars : k.spelling.toList with
  | nil =>
    rw [hchars] at hhead
    exact absurd hhead Bool.false_ne_true
  | cons c cs =>
    rw [hchars] at hhead htail
    exact ⟨c, cs, rfl, (isWordStart_iff c).1 hhead, fun d hd =>
      (isWordChar_iff d).1 (List.all_eq_true.1 htail d hd)⟩

/-! ### Numerals -/

/-- Digits, one at least. -/
def IsDigits (w : List Char) : Prop := w ≠ [] ∧ ∀ c ∈ w, c.isDigit = true

/-- Digits, or digits on both sides of a point. -/
def IsNumeral (w : List Char) : Prop :=
  IsDigits w ∨ ∃ whole fraction, w = whole ++ '.' :: fraction ∧ IsDigits whole ∧ IsDigits fraction

/-- Where digits end is told by the text. -/
theorem digits_unique {whole whole' : List Char} (hwhole : IsDigits whole)
    (hwhole' : IsDigits whole') (hrest : ∀ c ∈ rest.head?, c.isDigit = false)
    (hrest' : ∀ c ∈ rest'.head?, c.isDigit = false) (h : whole ++ rest = whole' ++ rest') :
    whole = whole' ∧ rest = rest' := by
  obtain ⟨htake, hdrop⟩ := takeWhile_append hwhole.2 hrest
  obtain ⟨htake', hdrop'⟩ := takeWhile_append hwhole'.2 hrest'
  rw [h] at htake hdrop
  exact ⟨htake.symm.trans htake', hdrop.symm.trans hdrop'⟩

/-- Digits do not go on where none follows. -/
theorem eq_nil_of_isDigit {further : List Char} (hrest : ∀ c ∈ rest.head?, c.isDigit = false)
    (hbegin : further <+: rest) (hfurther : ∀ c ∈ further, c.isDigit = true) : further = [] := by
  obtain ⟨behind, rfl⟩ := hbegin
  cases further with
  | nil => rfl
  | cons c further =>
    have hc := hfurther c List.mem_cons_self
    rw [hrest c rfl] at hc
    exact absurd hc Bool.false_ne_true

/-- Digits are the longest numeral where neither a digit follows nor a point and a digit. -/
theorem longest_digits (hw : IsDigits w) (hrest : ∀ c ∈ rest.head?, c.isDigit = false)
    (hpoint : ∀ d behind, rest = '.' :: d :: behind → d.isDigit = false) :
    Longest IsNumeral w rest := by
  refine ⟨.inl hw, ?_⟩
  rintro further hbegin (hdigits | ⟨whole, fraction, heq, hwhole, hne, hfraction⟩)
  · exact eq_nil_of_isDigit hrest hbegin fun c hc => hdigits.2 c (List.mem_append_right _ hc)
  · obtain ⟨behind, rfl⟩ := hbegin
    have hhead : ∀ c ∈ further.head?, c.isDigit = false := by
      cases further with
      | nil => simp
      | cons c further => exact hrest
    -- What goes on into the rest is then the point, with a digit behind it.
    obtain ⟨-, rfl⟩ := digits_unique hw hwhole hhead (by simp) heq
    obtain ⟨d, fraction, rfl⟩ := List.exists_cons_of_ne_nil hne
    have hd := hfraction d List.mem_cons_self
    rw [hpoint d (fraction ++ behind) rfl] at hd
    exact absurd hd Bool.false_ne_true

/-- A fraction is the longest numeral where no digit follows. -/
theorem longest_fraction {whole fraction : List Char} (hwhole : IsDigits whole)
    (hfraction : IsDigits fraction) (hrest : ∀ c ∈ rest.head?, c.isDigit = false) :
    Longest IsNumeral (whole ++ '.' :: fraction) rest := by
  refine ⟨.inr ⟨whole, fraction, rfl, hwhole, hfraction⟩, ?_⟩
  rintro further hbegin (hdigits | ⟨whole', fraction', heq, hwhole', -, hfraction'⟩)
  · have hpoint := hdigits.2 '.' (by simp)
    exact absurd hpoint (by decide)
  · -- A longer numeral has the same digits up to the point, and more of them behind it.
    rw [List.append_assoc, List.cons_append] at heq
    obtain ⟨-, hpoint⟩ := digits_unique hwhole hwhole' (by simp) (by simp) heq
    obtain ⟨-, rfl⟩ := List.cons.inj hpoint
    exact eq_nil_of_isDigit hrest hbegin fun c hc => hfraction' c (List.mem_append_right _ hc)

/-- A numeral is the longest where neither a digit follows nor a point. -/
theorem longest_numeral (hw : IsNumeral w)
    (hrest : ∀ c ∈ rest.head?, c.isDigit = false ∧ c ≠ '.') : Longest IsNumeral w rest := by
  have hdigit : ∀ c ∈ rest.head?, c.isDigit = false := fun c hc => (hrest c hc).1
  rcases hw with hdigits | ⟨whole, fraction, rfl, hwhole, hfraction⟩
  · refine longest_digits hdigits hdigit ?_
    rintro d behind rfl
    exact absurd rfl (hrest '.' rfl).2
  · exact longest_fraction hwhole hfraction hdigit

/-- The digits at the front of a text, if it starts with one. -/
theorem isDigits_takeWhile {d : Char} (hd : d.isDigit = true) (cs : List Char) :
    IsDigits ((d :: cs).takeWhile Char.isDigit) := by
  refine ⟨?_, fun c hc => List.all_eq_true.1 List.all_takeWhile c hc⟩
  rw [List.takeWhile_cons_of_pos hd]
  exact List.cons_ne_nil _ _

/-- What is split off is the longest numeral. -/
theorem longest_splitNumeral {c : Char} (hc : c.isDigit = true) (cs : List Char) :
    Longest IsNumeral (splitNumeral (c :: cs)).1 (splitNumeral (c :: cs)).2 := by
  have hwhole := isDigits_takeWhile hc cs
  have hrest := forall_mem_head?_dropWhile Char.isDigit (c :: cs)
  unfold splitNumeral
  -- A point belongs to the numeral if a digit stands behind it.
  split
  · next d behind hdrop =>
    rw [hdrop] at hrest
    by_cases hd : d.isDigit = true
    · rw [if_pos hd]
      exact longest_fraction hwhole (isDigits_takeWhile hd behind) (forall_mem_head?_dropWhile _ _)
    · rw [if_neg hd]
      refine longest_digits hwhole hrest fun d' behind' h => ?_
      obtain ⟨rfl, -⟩ := List.cons.inj (List.cons.inj h).2
      exact Bool.eq_false_iff.2 hd
  · next hpoint => exact longest_digits hwhole hrest fun d behind h => absurd h (hpoint d behind)

/-- A digit starts no word of another class. -/
theorem isDigit_cases {c : Char} (h : c.isDigit = true) :
    isGapBlank c = false ∧ c ≠ '"' ∧ c ≠ '/' ∧ c ≠ '=' := by
  have hne (d : Char) (hd : d.isDigit = false) : c ≠ d := by
    rintro rfl
    rw [hd] at h
    exact absurd h Bool.false_ne_true
  refine ⟨?_, hne '"' rfl, hne '/' rfl, hne '=' rfl⟩
  refine Bool.eq_false_iff.2 fun hblank => ?_
  rcases (isGapBlank_iff c).1 hblank with hc | hc | hc | hc <;> exact absurd hc (hne _ rfl)

/-- A numeral starts with a digit. -/
theorem IsNumeral.exists_cons (h : IsNumeral w) : ∃ c cs, w = c :: cs ∧ c.isDigit = true := by
  rcases h with ⟨hne, hdigits⟩ | ⟨whole, fraction, rfl, ⟨hne, hdigits⟩, -⟩
  · obtain ⟨c, cs, rfl⟩ := List.exists_cons_of_ne_nil hne
    exact ⟨c, cs, rfl, hdigits c List.mem_cons_self⟩
  · obtain ⟨c, cs, rfl⟩ := List.exists_cons_of_ne_nil hne
    exact ⟨c, cs ++ '.' :: fraction, rfl, hdigits c List.mem_cons_self⟩

/-- A numeral has digits and points only. -/
theorem IsNumeral.isDigit_or_eq (h : IsNumeral w) : ∀ c ∈ w, c.isDigit = true ∨ c = '.' := by
  rcases h with hdigits | ⟨whole, fraction, rfl, hwhole, hfraction⟩
  · exact fun c hc => .inl (hdigits.2 c hc)
  · refine List.forall_mem_append.2 ⟨fun c hc => .inl (hwhole.2 c hc), ?_⟩
    exact List.forall_mem_cons.2 ⟨.inr rfl, fun c hc => .inl (hfraction.2 c hc)⟩

/-- A numeral has no blanks. -/
theorem IsNumeral.hasNoBlank (h : IsNumeral w) : HasNoBlank w := by
  rintro c hc (rfl | rfl | rfl | rfl) <;> exact absurd (h.isDigit_or_eq _ hc) (by decide)

/-- No comment starts inside a numeral. -/
theorem IsNumeral.slash_notMem (h : IsNumeral w) : '/' ∉ w :=
  fun hmem => absurd (h.isDigit_or_eq '/' hmem) (by decide)

/-- A numeral that is the longest is what is split off. -/
theorem Longest.splitNumeral_eq (h : Longest IsNumeral w rest) :
    splitNumeral (w ++ rest) = (w, rest) := by
  obtain ⟨c, cs, rfl, hc⟩ := h.1.exists_cons
  obtain ⟨hw, hrest⟩ := (longest_splitNumeral hc (cs ++ rest)).unique h (splitNumeral_append _)
  exact Prod.ext hw hrest

/-! ### Operators -/

/-- The characters of a symbol. -/
def IsOperator (w : List Char) : Prop := ∃ s : Symbol, w = s.chars

/-- A symbol has one character, or another one and a `=` behind it. -/
theorem Symbol.chars_cases (s : Symbol) :
    (∃ a, s.chars = [a]) ∨ ∃ a, s.chars = [a, '='] := by
  cases s <;> first | exact .inl ⟨_, rfl⟩ | exact .inr ⟨_, rfl⟩

/-- The first character of a symbol belongs to no other class of words. -/
theorem Symbol.chars_eq_cons (s : Symbol) :
    ∃ c cs, s.chars = c :: cs ∧ isGapBlank c = false ∧ c ≠ '"' ∧ c.isDigit = false ∧
      isWordStart c = false ∧ (c = '/' → cs = []) := by
  cases s <;> exact ⟨_, _, rfl, by decide⟩

/-- A symbol has no blanks. -/
theorem IsOperator.hasNoBlank (h : IsOperator w) : HasNoBlank w := by
  obtain ⟨s, rfl⟩ := h
  have hany : s.chars.any isGapBlank = false := by
    cases s <;> decide
  exact fun c hc hblank => List.any_eq_false.1 hany c hc ((isGapBlank_iff c).2 hblank)

/-- Symbols are told apart by their characters. -/
theorem Symbol.chars_injective {s s' : Symbol} (h : s.chars = s'.chars) : s = s' := by
  have hfront (s : Symbol) : Symbol.ofFront? s.chars = some s := by
    cases s <;> decide
  exact Option.some.inj ((hfront s).symm.trans (h ▸ hfront s'))

/-- The first character of a symbol is a symbol, too. -/
theorem Symbol.exists_chars_eq_take (s : Symbol) :
    ∃ s' ∈ Symbol.all, s'.chars = s.chars.take 1 := by
  cases s <;> decide

/-- The symbol that is found stands at the front. -/
theorem Symbol.isPrefix_of_ofFront? {s : Symbol} {cs : List Char}
    (h : Symbol.ofFront? cs = some s) : s.chars <+: cs := by
  simpa using List.find?_some h

/-- Only a `=` goes on with a symbol. -/
theorem Symbol.eq_of_isOperator_append {s : Symbol} {further : List Char}
    (h : IsOperator (s.chars ++ further)) : further = [] ∨ further = ['='] := by
  obtain ⟨s', hs'⟩ := h
  rcases s.chars_cases with ⟨a, ha⟩ | ⟨a, ha⟩ <;>
    rcases s'.chars_cases with ⟨b, hb⟩ | ⟨b, hb⟩ <;> simp [ha, hb] at hs'
  · exact .inl hs'.2
  · exact .inr hs'.2
  · exact .inl hs'.2

/-- Where no `=` follows, a symbol is the longest. -/
theorem longest_symbol (s : Symbol) (hrest : ∀ c ∈ rest.head?, c ≠ '=') :
    Longest IsOperator s.chars rest := by
  refine longest_of_head ⟨s, rfl⟩ fun c hc further hlonger => hrest c hc ?_
  rcases Symbol.eq_of_isOperator_append hlonger with hnil | hequal
  · exact absurd hnil (List.cons_ne_nil c further)
  · exact (List.cons.inj hequal).1

/-- A symbol of two characters is found whatever stands behind it. -/
theorem Symbol.ofFront?_of_length {s : Symbol} (h : s.chars.length = 2) (follow : List Char) :
    Symbol.ofFront? (s.chars ++ follow) = some s := by
  cases s <;> first | exact absurd h (by decide) | rfl

/-- The symbol that is found is the longest. -/
theorem longest_of_ofFront? {s : Symbol} (h : Symbol.ofFront? (s.chars ++ rest) = some s) :
    Longest IsOperator s.chars rest := by
  refine ⟨⟨s, rfl⟩, ?_⟩
  rintro further ⟨behind, rfl⟩ ⟨s', hs'⟩
  by_contra hne
  have hpos := List.length_pos_iff.2 hne
  have hlength := congrArg List.length hs'
  rw [List.length_append] at hlength
  have hle : s'.chars.length ≤ 2 := by
    cases s' <;> decide
  have hs := s.length_chars_pos
  -- A longer symbol has two characters, and these are looked for first.
  have htwo := Symbol.ofFront?_of_length (s := s') (by omega) behind
  rw [← hs', List.append_assoc, h] at htwo
  obtain rfl := Option.some.inj htwo
  omega

/-- A symbol that is the longest is found. -/
theorem Longest.ofFront?_eq {s : Symbol} (h : Longest IsOperator s.chars rest) :
    Symbol.ofFront? (s.chars ++ rest) = some s := by
  -- Some symbol is found, and it is the longest as well.
  cases hfront : Symbol.ofFront? (s.chars ++ rest) with
  | none =>
    have hnone := List.find?_eq_none.1 hfront s s.mem_all
    simp at hnone
  | some s' =>
    obtain ⟨rest', heq⟩ := Symbol.isPrefix_of_ofFront? hfront
    rw [← heq] at hfront
    have hchars := ((longest_of_ofFront? hfront).unique h heq).1
    rw [Symbol.chars_injective hchars]

/-! ### Unreadable words -/

/-- No gap, no string and no word of any other class starts with the character. -/
def StartsNothing (c : Char) : Prop :=
  ¬ IsBlank c ∧ c ≠ '"' ∧
    ∀ cs, ¬ IsWord (c :: cs) ∧ ¬ IsNumeral (c :: cs) ∧ ¬ IsOperator (c :: cs)

/-- A character that starts nothing, and all others up to the next white space. -/
def IsUnreadable : List Char → Prop := IsRun StartsNothing fun c => isWhiteSpace c = false

/-- An unreadable word ends at the next blank. -/
theorem IsUnreadable.hasNoBlank (h : IsUnreadable w) : HasNoBlank w := by
  obtain ⟨c, cs, rfl, hc, hcs⟩ := h
  refine List.forall_mem_cons.2 ⟨hc.1, ?_⟩
  rintro d hd (rfl | rfl | rfl | rfl) <;> exact absurd (hcs _ hd) (by decide)

/-- A look at the character and the text behind it tells whether it starts nothing. -/
theorem startsNothing_iff (c : Char) (cs : List Char) :
    StartsNothing c ↔ isGapBlank c = false ∧ c ≠ '"' ∧ c.isDigit = false ∧
      isWordStart c = false ∧ Symbol.ofFront? (c :: cs) = none := by
  constructor
  · rintro ⟨hblank, hquote, hstarts⟩
    obtain ⟨hword, hnumeral, -⟩ := hstarts []
    refine ⟨?_, hquote, ?_, ?_, ?_⟩
    · exact Bool.eq_false_iff.2 fun h => hblank ((isGapBlank_iff c).1 h)
    · exact Bool.eq_false_iff.2 fun h => hnumeral (.inl ⟨by simp, by simpa using h⟩)
    · exact Bool.eq_false_iff.2 fun h =>
        hword ⟨c, [], rfl, (isWordStart_iff c).1 h, by simp⟩
    · -- A symbol that is found would start with the character.
      refine Option.eq_none_iff_forall_ne_some.2 fun s hs => ?_
      obtain ⟨d, ds, hchars⟩ := List.exists_cons_of_length_pos s.length_chars_pos
      obtain ⟨behind, hbehind⟩ := Symbol.isPrefix_of_ofFront? hs
      rw [hchars] at hbehind
      obtain ⟨rfl, -⟩ := List.cons.inj hbehind
      exact (hstarts ds).2.2 ⟨s, hchars.symm⟩
  · rintro ⟨hblank, hquote, hdigit, hword, hfront⟩
    rw [Bool.eq_false_iff] at hblank hdigit hword
    refine ⟨fun h => hblank ((isGapBlank_iff c).2 h), hquote, fun ds => ⟨?_, fun h => ?_, ?_⟩⟩
    · -- Each class is told by its first character.
      rintro ⟨d, ds', heq, hd, -⟩
      obtain ⟨rfl, -⟩ := List.cons.inj heq
      exact hword ((isWordStart_iff c).2 hd)
    · obtain ⟨d, ds', heq, hd⟩ := h.exists_cons
      obtain ⟨rfl, -⟩ := List.cons.inj heq
      exact hdigit hd
    · rintro ⟨s, hs⟩
      -- Its first character alone is a symbol that the text starts with.
      obtain ⟨s', hmem, hs'⟩ := Symbol.exists_chars_eq_take s
      have hnone := List.find?_eq_none.1 hfront s' hmem
      rw [hs', ← hs] at hnone
      simp at hnone

end Lox
