import Lox.Text.Cluster

namespace Lox

/-!
# Typed lines

The lines of a text that somebody typed, or that stands in for such a text. A backspace in a line
is not a character of it: it takes back what was typed before.

* `lines` — the lines of a text, with their ends.
* `withoutLineEnd` — a line without its end.
* `withoutBackspaces` — what a line says after its backspaces have been obeyed.
-/

/-! ### Line ends -/

/-- The lines of a text, each with the line feed that ends it. The last one may have none. -/
def lines : List Char → List (List Char)
  | [] => []
  | c :: cs =>
    if c = '\n' then [c] :: lines cs
    else
      match lines cs with
      | [] => [[c]]
      | first :: rest => (c :: first) :: rest

/-- A line without its end, which is a line feed with or without a carriage return in front of it.
    A carriage return alone does not end a line. -/
def withoutLineEnd (line : List Char) : List Char :=
  match line.reverse with
  | '\n' :: '\r' :: rest => rest.reverse
  | '\n' :: rest => rest.reverse
  | _ => line

/-! ### Backspaces -/

/-- The character that takes back the cluster in front of it. -/
def backspace : Char := '\x08'

/-- The number of bytes that a backspace takes back for a cluster. One byte is set aside for it, so
    the sizes of very long clusters are counted modulo 256. -/
def erasedSize (cluster : List Char) : Nat := (String.ofList cluster).utf8ByteSize % 256

/-- A text that is given backwards, without the characters that its last `size` bytes belong to. -/
def dropBytes : (size : Nat) → List Char → List Char
  | 0, cs => cs
  | _ + 1, [] => []
  | size + 1, c :: cs => dropBytes (size + 1 - c.utf8Size) cs

/-- Obeys the backspaces among the clusters of a line. `typed` is the text so far, backwards, and
    `sizes` are those of the clusters that can be taken back, the last one first. -/
def eraseFrom (typed : List Char) (sizes : List Nat) : List (List Char) → List Char
  | [] => typed.reverse
  | cluster :: rest =>
    if cluster = [backspace] then eraseFrom (dropBytes (sizes.headD 0) typed) sizes.tail rest
    else eraseFrom (cluster.reverse ++ typed) (erasedSize cluster :: sizes) rest

/-- What a line says: each backspace takes back the cluster typed last, if there is one. -/
def withoutBackspaces (line : List Char) : List Char := eraseFrom [] [] (clusters line)

theorem eraseFrom_of_notMem {typed : List Char} {sizes : List Nat} {parts : List (List Char)}
    (h : [backspace] ∉ parts) :
    eraseFrom typed sizes parts = typed.reverse ++ parts.flatten := by
  induction parts generalizing typed sizes with
  | nil => simp [eraseFrom]
  | cons cluster rest ih =>
    rw [List.mem_cons, not_or] at h
    rw [eraseFrom, if_neg (Ne.symm h.1), ih h.2]
    simp

/-- A line without backspaces says what stands in it. -/
theorem withoutBackspaces_of_notMem {line : List Char} (h : backspace ∉ line) :
    withoutBackspaces line = line := by
  have hparts : [backspace] ∉ clusters line := by
    intro hmem
    apply h
    rw [← flatten_clusters line]
    exact List.mem_flatten.2 ⟨_, hmem, by simp⟩
  simp [withoutBackspaces, eraseFrom_of_notMem hparts]

end Lox
