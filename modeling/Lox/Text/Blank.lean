namespace Lox

/-!
# White space

Two sets of blank characters occur in this library. Between tokens only four characters are
skipped (`Lox.Token.Cursor`); a run of unreadable characters, and the ends of a line typed at the
prompt, are cut at the wider Unicode set of this file.

* `isWhiteSpace` — membership in the Unicode property `White_Space`.
* `trimWhiteSpace` — a text without the white space at its two ends.
-/

/-- The Unicode property `White_Space`: the ASCII controls from tab to carriage return, the space,
    and the separators beyond ASCII. -/
def isWhiteSpace (c : Char) : Bool :=
  let n := c.toNat
  (0x9 ≤ n && n ≤ 0xD) || n == 0x20 || n == 0x85 || n == 0xA0 || n == 0x1680 ||
    (0x2000 ≤ n && n ≤ 0x200A) || n == 0x2028 || n == 0x2029 || n == 0x202F || n == 0x205F ||
    n == 0x3000

/-- A list of characters without the white space at its two ends. -/
def trimWhiteSpace (cs : List Char) : List Char :=
  ((cs.dropWhile isWhiteSpace).reverse.dropWhile isWhiteSpace).reverse

end Lox
