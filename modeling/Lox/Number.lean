import Lox.Number.Shortest

namespace Lox.Number

/-!
# Numbers and their texts

The numbers of the language are the floating-point numbers of 64 bits. Their texts are positional,
whatever the size of the number, and never have an exponent.

* `ofNumeral` — the number that a numeral in a program stands for.
* `text` — the text of a number.
-/

/-- The number nearest to a numeral, that is, to digits with at most one point among them. What
    is too large becomes infinity. -/
def ofNumeral (cs : List Char) : Float := ofMagnitude (Decimal.ofNumeral cs).nearest

/-- The text of a number: the shortest decimal that reads back, with the sign in front. Zero keeps
    its sign; what is not a number has none. -/
def text (x : Float) : String :=
  if x.isNaN then "NaN"
  else
    let unsigned :=
      if magnitude x = infinity then "inf" else (Decimal.shortest (magnitude x)).text
    if isNegative x then "-" ++ unsigned else unsigned

end Lox.Number
