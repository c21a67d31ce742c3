import Lox.Text.Blank
import Lox.Text.Line

namespace Lox

/-!
# Lines of a text, and white space around them

What cutting a text into lines yields, and what is cut off a line before it is run.

* `lines_append_lineFeed`, `lines_of_notMem` — the first line of a text, and the only one.
* `notMem_dropLast_of_mem_lines` — a line has a line feed at its end only.
* `IsCut.flatMap_lines` — a text has the lines of the texts that it is cut into.
* `exists_append_withoutLineEnd`, `exists_append_trimWhiteSpace` — what is cut off is white space.
-/

variable {body cs line : List Char}

/-! ### Cutting a text into lines -/

/-- The first line of a text ends with its first line feed. -/
theorem lines_append_lineFeed (h : '\n' ∉ body) (rest : List Char) :
    lines (body ++ '\n' :: rest) = (body ++ ['\n']) :: lines rest := by
  induction body with
  | nil => rfl
  | cons c body ih =>
    rw [List.mem_cons, not_or] at h
    rw [List.cons_append, lines, if_neg (Ne.symm h.1), ih h.2]
    rfl

/-- A text without a line feed is a single line, unless it is empty. -/
theorem lines_of_notMem (h : '\n' ∉ body) (hne : body ≠ []) : lines body = [body] := by
  induction body with
  | nil => exact absurd rfl hne
  | cons c body ih =>
    rw [List.mem_cons, not_or] at h
    rw [lines, if_neg (Ne.symm h.1)]
    cases body with
    | nil => rfl
    | cons d body => rw [ih h.2 (List.cons_ne_nil d body)]

/-- A text has no line feed, or a first one. -/
theorem notMem_or_exists_lineFeed (cs : List Char) :
    '\n' ∉ cs ∨ ∃ body rest, '\n' ∉ body ∧ cs = body ++ '\n' :: rest := by
  by_cases h : '\n' ∈ cs
  · obtain ⟨body, rest, rfl, hbody⟩ := List.eq_append_cons_of_mem h
    exact .inr ⟨body, rest, hbody, rfl⟩
  · exact .inl h

/-- Texts can be taken apart line by line. -/
theorem lines_induction {motive : List Char → Prop} (nil : motive [])
    (last : ∀ body, '\n' ∉ body → body ≠ [] → motive body)
    (line : ∀ body rest, '\n' ∉ body → motive rest → motive (body ++ '\n' :: rest))
    (cs : List Char) : motive cs := by
  induction hn : cs.length using Nat.strongRecOn generalizing cs with
  | _ n ih =>
    rcases notMem_or_exists_lineFeed cs with h | ⟨body, rest, hbody, rfl⟩
    · by_cases hne : cs = []
      · rw [hne]
        exact nil
      · exact last cs h hne
    · refine line body rest hbody (ih rest.length ?_ rest rfl)
      rw [← hn, List.length_append, List.length_cons]
      omega

/-- A line has a line feed at its end only. -/
theorem notMem_dropLast_of_mem_lines (h : line ∈ lines cs) : '\n' ∉ line.dropLast := by
  induction cs using lines_induction with
  | nil => exact absurd h List.not_mem_nil
  | last body hbody hne =>
    rw [lines_of_notMem hbody hne] at h
    rw [List.mem_singleton.1 h]
    exact fun hmem => hbody (List.dropLast_subset body hmem)
  | line body rest hbody ih =>
    rw [lines_append_lineFeed hbody] at h
    rcases List.mem_cons.1 h with rfl | h
    · rwa [List.dropLast_concat]
    · exact ih h

/-- A text that ends in a line feed can be put in front of another one. -/
theorem lines_append (h : ∀ c ∈ body.getLast?, c = '\n') (rest : List Char) :
    lines (body ++ rest) = lines body ++ lines rest := by
  induction body using lines_induction with
  | nil => rfl
  -- A text without a line feed does not end in one.
  | last body hbody hne =>
    rcases List.eq_nil_or_concat body with rfl | ⟨front, c, rfl⟩
    · exact absurd rfl hne
    · rw [List.concat_eq_append] at h hbody
      rw [h c (by simp)] at hbody
      exact absurd (List.mem_append_right _ (List.mem_singleton_self _)) hbody
  | line body behind hbody ih =>
    have hbehind : ∀ c ∈ behind.getLast?, c = '\n' := by
      intro c hc
      apply h c
      rw [List.getLast?_append, List.getLast?_cons, hc]
      rfl
    rw [List.append_assoc, List.cons_append, lines_append_lineFeed hbody, ih hbehind,
      lines_append_lineFeed hbody, List.cons_append]

/-- The texts that a text is cut into at line ends. -/
structure IsCut (text : String) (pieces : List String) : Prop where
  join : String.join pieces = text
  lineFeed : ∀ piece ∈ pieces.dropLast, ∀ c ∈ piece.toList.getLast?, c = '\n'

/-- A text is cut into itself. -/
theorem isCut_singleton (text : String) : IsCut text [text] := ⟨by simp, nofun⟩

/-- The lines of the pieces are the lines of the text. -/
theorem IsCut.flatMap_lines {text : String} {pieces : List String} (h : IsCut text pieces) :
    pieces.flatMap (lines ·.toList) = lines text.toList := by
  obtain ⟨rfl, hfeed⟩ := h
  induction pieces with
  | nil => rfl
  | cons piece rest ih =>
    rw [String.toList_join, List.flatMap_cons, List.flatMap_cons, ← String.toList_join]
    cases rest with
    | nil => simp
    | cons next rest =>
      rw [List.dropLast_cons_cons, List.forall_mem_cons] at hfeed
      rw [lines_append hfeed.1, ih hfeed.2]

/-! ### Cutting white space off a line -/

/-- What is cut off the end of a line is white space. -/
theorem exists_append_withoutLineEnd (line : List Char) :
    ∃ ending, line = withoutLineEnd line ++ ending ∧ ∀ c ∈ ending, isWhiteSpace c = true := by
  have hline := List.reverse_reverse line
  unfold withoutLineEnd
  split
  · next rest hreverse =>
    rw [hreverse] at hline
    exact ⟨['\r', '\n'], by rw [← hline]; simp,
      List.forall_mem_cons.2 ⟨rfl, List.forall_mem_singleton.2 rfl⟩⟩
  · next rest _ hreverse =>
    rw [hreverse] at hline
    exact ⟨['\n'], by rw [← hline]; simp, List.forall_mem_singleton.2 rfl⟩
  · exact ⟨[], (List.append_nil line).symm, nofun⟩

/-- What is cut off the two ends of a text is white space. -/
theorem exists_append_trimWhiteSpace (cs : List Char) :
    ∃ front behind, cs = front ++ (trimWhiteSpace cs ++ behind) ∧
      (∀ c ∈ front, isWhiteSpace c = true) ∧ ∀ c ∈ behind, isWhiteSpace c = true := by
  have hall (cs : List Char) : ∀ c ∈ cs.takeWhile isWhiteSpace, isWhiteSpace c = true :=
    fun c hc => List.all_eq_true.1 List.all_takeWhile c hc
  let front := cs.takeWhile isWhiteSpace
  let middle := (cs.dropWhile isWhiteSpace).reverse
  have hfront : cs = front ++ middle.reverse := by
    rw [List.reverse_reverse, List.takeWhile_append_dropWhile]
  have hmiddle : middle.reverse =
      trimWhiteSpace cs ++ (middle.takeWhile isWhiteSpace).reverse := by
    rw [trimWhiteSpace, ← List.reverse_append, List.takeWhile_append_dropWhile]
  refine ⟨front, (middle.takeWhile isWhiteSpace).reverse, ?_, hall cs, fun c hc => ?_⟩
  · rw [← hmiddle]
    exact hfront
  · exact hall middle c (List.mem_reverse.1 hc)

end Lox
