import Lox.Decimal

namespace Lox

namespace Number

/-!
# The number nearest to a decimal fraction

Numbers are the binary floating-point numbers of 64 bits. The *magnitude* of a number is its bit
pattern without the sign, as a natural number. Every finite number is, up to sign, a multiple of
the least positive one, `2 ^ -1074`, so all that is said here about finite numbers is exact
arithmetic of natural numbers.

* `significand`, `exponent` — a finite magnitude `p` stands for
  `significand p * 2 ^ exponent p / 2 ^ 1074`.
* `nearest` — the magnitude that lies closest to a fraction; of two, the even one.
* `Decimal.nearest` — the same for a decimal fraction.
* `Decimal.exact` — the decimal fraction that a finite magnitude stands for.
-/

/-! ### Magnitudes -/

/-- The number of magnitudes that share an exponent, `2 ^ 52`. -/
def binade : Nat := 0x10000000000000

/-- The bit pattern of minus zero, `2 ^ 63`: what the sign adds to a magnitude. -/
def signBit : Nat := 0x8000000000000000

/-- The magnitude of infinity, the least that is not finite. -/
def infinity : Nat := 0x7FF * binade

/-- The bit pattern of a number without its sign. -/
def magnitude (x : Float) : Nat := x.toBits.toNat % signBit

/-- Whether the sign of a number is set. -/
def isNegative (x : Float) : Bool := signBit ≤ x.toBits.toNat

/-- The number of positive sign with a given magnitude. -/
def ofMagnitude (p : Nat) : Float := Float.ofBits p.toUInt64

/-- The integral significand of a finite magnitude. The magnitudes of the first binade are the
    subnormal ones; above them the leading bit is implied. -/
def significand (p : Nat) : Nat := if p < binade then p else p % binade + binade

/-- The exponent of two that goes with `significand`, counted from that of the least number. -/
def exponent (p : Nat) : Nat := p / binade - 1

/-- A significand of at most 53 bits and its exponent, as a magnitude. A carry out of the
    significand moves on to the next exponent by itself. -/
def compose (significand exponent : Nat) : Nat := exponent * binade + significand

theorem compose_significand_exponent (p : Nat) : compose (significand p) (exponent p) = p := by
  unfold compose significand exponent binade
  split <;> omega

/-! ### Rounding -/

/-- The integer nearest to `num / den`; of two, the even one. -/
def roundHalfEven (num den : Nat) : Nat :=
  let q := num / den
  let r := num % den
  if 2 * r < den ∨ (2 * r = den ∧ q % 2 = 0) then q else q + 1

@[simp] theorem roundHalfEven_mul_self (q : Nat) {den : Nat} (h : 0 < den) :
    roundHalfEven (q * den) den = q := by
  simp [roundHalfEven, h]

/-- The magnitude nearest to the fraction `num / den`. In units of the least number the fraction is
    `num * 2 ^ 1074 / den`; the exponent is the least that leaves the significand 53 bits. What is
    too large becomes infinity. -/
def nearest (num den : Nat) : Nat :=
  let units := num <<< 1074
  let e := (units / den).log2 - 52
  min (compose (roundHalfEven units (den <<< e)) e) infinity

end Number

/-- The magnitude nearest to a decimal fraction. -/
def Decimal.nearest (d : Decimal) : Nat := Number.nearest d.coefficient d.scale

/-- The decimal fraction that a finite magnitude stands for. Dividing by a power of two is
    multiplying by that power of five and moving the point. -/
def Decimal.exact (p : Nat) : Decimal where
  coefficient :=
    (Number.significand p <<< (Number.exponent p - 1074)) * Nat.pow 5 (1074 - Number.exponent p)
  places := 1074 - Number.exponent p

end Lox
