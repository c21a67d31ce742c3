import Lox.Token.Cursor

namespace Lox

/-!
# A stream of tokens

Tokens one by one. There are two ways to ask for the next one, and they share a cursor: `pull`
always answers, with the end token when nothing else is left; `next?` ends the stream once it has
handed out the end token itself.

* `Stream.ofText` — the stream of a text.
* `Stream.pull`, `Stream.next?` — the two ways to take a token.
-/

/-- A text being read token by token. -/
structure Stream where
  cursor : Cursor
  /-- Whether `next?` has handed out the end token. -/
  ended : Bool := false
deriving DecidableEq, Repr

namespace Stream

/-- The stream of all tokens of a text. -/
def ofText (source : String) : Stream := ⟨Cursor.start source, false⟩

/-- The next token; the end token forever when nothing else is left. -/
def pull (s : Stream) : Token × Stream :=
  match s.cursor.next with
  | (token, behind) => (token, { s with cursor := behind })

/-- The next token, or nothing once the end token has been handed out in this way. -/
def next? (s : Stream) : Option Token × Stream :=
  if s.ended then (none, s)
  else
    match s.pull with
    | (token, s) => (some token, { s with ended := token.kind == .eof })

@[simp] theorem next?_of_ended {s : Stream} (h : s.ended = true) : s.next? = (none, s) := by
  simp [next?, h]

@[simp] theorem ended_pull (s : Stream) : s.pull.2.ended = s.ended := rfl

end Stream

end Lox
