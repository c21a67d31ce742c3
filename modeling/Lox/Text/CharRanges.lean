namespace Lox

/-!
# Ranges of characters

A class of characters, given by the runs of code points that it consists of. The tables of this
library hold the classes of Unicode 17.0.

* `CharRanges.contains` — membership of a character.
-/

/-- The first and the last code point of each run, in ascending order. -/
abbrev CharRanges := List (Nat × Nat)

/-- Whether a character lies in one of the runs. -/
def CharRanges.contains (ranges : CharRanges) (c : Char) : Bool :=
  ranges.any fun (first, last) => first ≤ c.toNat && c.toNat ≤ last

end Lox
