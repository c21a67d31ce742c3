namespace Lox

/-!
# Decimal fractions

A decimal fraction is a natural number scaled down by a power of ten. Numerals are read into
decimal fractions and numbers are printed from them; only the step between a decimal fraction and
a number rounds (`Lox.Number`).

* `Decimal.ofNumeral` — the value of digits with at most one point among them.
* `Decimal.text` — the numeral of a decimal fraction: all its integral digits, and its fractional
  digits up to the last one that is not zero.
-/

/-- The fraction `coefficient / 10 ^ places`. -/
structure Decimal where
  coefficient : Nat
  places : Nat
deriving DecidableEq, Repr

namespace Decimal

/-- The denominator of the fraction. -/
def scale (d : Decimal) : Nat := Nat.pow 10 d.places

theorem scale_pos (d : Decimal) : 0 < d.scale := Nat.pow_pos (by decide)

/-- The value of a numeral, that is, of digits with at most one point among them: the point does
    not count as a digit, and the characters after it give the number of places. -/
def ofNumeral (cs : List Char) : Decimal where
  coefficient := Nat.ofDigitChars 10 (cs.filter Char.isDigit) 0
  places := (cs.dropWhile (· != '.')).length - 1

/-- The fractional digits: as many as there are places, less the zeros at the end. -/
def fractionDigits (d : Decimal) : List Char :=
  let digits := Nat.toDigits 10 (d.coefficient % d.scale)
  let padded := List.replicate (d.places - digits.length) '0' ++ digits
  (padded.reverse.dropWhile (· == '0')).reverse

/-- The characters of the numeral. -/
def chars (d : Decimal) : List Char :=
  let whole := Nat.toDigits 10 (d.coefficient / d.scale)
  match d.fractionDigits with
  | [] => whole
  | digits => whole ++ '.' :: digits

/-- The numeral of a decimal fraction. -/
def text (d : Decimal) : String := String.ofList d.chars

end Decimal

end Lox
