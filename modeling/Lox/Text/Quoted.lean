import Lox.Text.Invisible

namespace Lox

/-!
# Quoted texts

A text between double quotes, on one line, with escapes for what would not be seen or would end the
quotation.

* `escaped` — a character as it stands inside quotes.
* `quoted` — a text in quotes.
-/

/-- A character inside quotes. -/
def escaped (c : Char) : List Char :=
  match c with
  | '\x00' => ['\\', '0']
  | '\t' => ['\\', 't']
  | '\r' => ['\\', 'r']
  | '\n' => ['\\', 'n']
  | '"' => ['\\', '"']
  | '\\' => ['\\', '\\']
  | c =>
    if isInvisible c then '\\' :: 'u' :: '\x7b' :: Nat.toDigits 16 c.toNat ++ ['\x7d']
    else [c]

/-- A text in double quotes. -/
def quoted (s : String) : String := String.ofList ('"' :: s.toList.flatMap escaped ++ ['"'])

end Lox
