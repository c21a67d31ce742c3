import Lox.Proofs.Number.Numeral

namespace Lox.Number

/-!
# Fractions that are too large

The greatest finite number is `2 ^ 1024 - 2 ^ 971`. The next one would be `2 ^ 1024`, and half-way
between the two lies the least fraction that rounds to infinity: there the rounded significand is
carried over into the exponent that no finite number has. The point half-way itself goes up, since
the significand of the greatest finite number is odd.

* `overflow` — the least fraction that rounds to infinity.
* `div_le_roundHalfEven`, `roundHalfEven_le_div_add_one` — bounds on a rounded quotient.
* `lt_roundHalfEven_iff` — when a quotient is rounded up beyond an odd number.
* `nearest_eq_infinity_iff` — a fraction rounds to infinity if and only if it is as large as that.
-/

/-- The least fraction that rounds to infinity, half-way between the greatest finite number and
    `2 ^ 1024`. It is an integer. -/
def overflow : Nat := (2 ^ 54 - 1) * 2 ^ 970

variable {num den : Nat}

/-! ### Bounds on rounded quotients -/

/-- Rounding does not go below the quotient. -/
theorem div_le_roundHalfEven (num den : Nat) : num / den ≤ roundHalfEven num den := by
  unfold roundHalfEven
  dsimp only
  split
  · exact Nat.le_refl _
  · exact Nat.le_succ _

/-- Rounding goes up by one at most. -/
theorem roundHalfEven_le_div_add_one (num den : Nat) :
    roundHalfEven num den ≤ num / den + 1 := by
  unfold roundHalfEven
  dsimp only
  split
  · exact Nat.le_succ _
  · exact Nat.le_refl _

/-- A quotient is rounded up beyond an odd number from half-way on. -/
theorem lt_roundHalfEven_iff {q : Nat} (hq : q % 2 = 1) (hden : 0 < den) :
    q < roundHalfEven num den ↔ (2 * q + 1) * den ≤ 2 * num := by
  have hnum : den * (num / den) + num % den = num := Nat.div_add_mod num den
  have hmod : num % den < den := Nat.mod_lt num hden
  have hlow := div_le_roundHalfEven num den
  have hhigh := roundHalfEven_le_div_add_one num den
  rcases Nat.lt_trichotomy (num / den) q with hlt | rfl | hgt
  · -- The quotient lies below `q`, and the fraction half a unit at least below the bound.
    have hstep : den * (num / den + 1) ≤ den * q := Nat.mul_le_mul_left den hlt
    rw [Nat.mul_add, Nat.mul_one] at hstep
    have hbound : (2 * q + 1) * den = 2 * (den * q) + den := by ring
    omega
  · have hbound : (2 * (num / den) + 1) * den = 2 * (den * (num / den)) + den := by ring
    unfold roundHalfEven
    dsimp only
    split
    · omega
    · omega
  · have hstep : den * (q + 1) ≤ den * (num / den) := Nat.mul_le_mul_left den hgt
    rw [Nat.mul_add, Nat.mul_one] at hstep
    have hbound : (2 * q + 1) * den = 2 * (den * q) + den := by ring
    omega

/-! ### Overflow -/

section

variable {units e : Nat}

/-- In units of the least number, what has the exponent `e` is less than this. -/
theorem div_lt_of_exponent (he : e = (units / den).log2 - 52) : units / den < 2 ^ (e + 53) :=
  Nat.lt_of_lt_of_le Nat.lt_log2_self (Nat.pow_le_pow_right (by decide) (by omega))

/-- A significand has at most 53 bits, but for a carry. -/
theorem significand_le (he : e = (units / den).log2 - 52) :
    roundHalfEven units (den <<< e) ≤ 2 ^ 53 := by
  have hquotient : units / (den <<< e) < 2 ^ 53 := by
    rw [Nat.shiftLeft_eq, ← Nat.div_div_eq_div_mul, Nat.div_lt_iff_lt_mul (Nat.two_pow_pos e),
      ← Nat.pow_add, Nat.add_comm]
    exact div_lt_of_exponent he
  have hround := roundHalfEven_le_div_add_one units (den <<< e)
  omega

/-- With an exponent above the least one, the leading bit of the significand is set. -/
theorem le_significand (he : e = (units / den).log2 - 52) (hpos : 0 < e) :
    2 ^ (e + 52) ≤ units / den ∧ 2 ^ 52 ≤ roundHalfEven units (den <<< e) := by
  have hlog : (units / den).log2 = e + 52 := by omega
  have hne : units / den ≠ 0 := by
    intro hzero
    rw [hzero, Nat.log2_zero] at hlog
    omega
  have hlow : 2 ^ (e + 52) ≤ units / den := hlog ▸ Nat.log2_self_le hne
  refine ⟨hlow, Nat.le_trans ?_ (div_le_roundHalfEven _ _)⟩
  rw [Nat.shiftLeft_eq, ← Nat.div_div_eq_div_mul, Nat.le_div_iff_mul_le (Nat.two_pow_pos e),
    ← Nat.pow_add, Nat.add_comm]
  exact hlow

/-- The exponent of a magnitude that is not finite is 2046 at least. A carry leads there from the
    exponent below. -/
theorem infinity_le_compose_iff {k : Nat} (hk : k = 2044) (hden : 0 < den)
    (he : e = (units / den).log2 - 52) :
    infinity ≤ compose (roundHalfEven units (den <<< e)) e ↔
      (2 ^ 54 - 1) * 2 ^ k * den ≤ units := by
  rw [← Nat.le_div_iff_mul_le hden]
  have hhigh := significand_le he
  have hbelow := div_lt_of_exponent he
  rcases Nat.lt_trichotomy e (k + 1) with hlt | heq | hgt
  · -- Even with a carry the magnitude is finite.
    have hpow : 2 ^ (e + 53) ≤ 2 ^ 53 * 2 ^ k := by
      rw [← Nat.pow_add]
      exact Nat.pow_le_pow_right (by decide) (by omega)
    unfold infinity compose binade
    generalize 2 ^ k = p at hpow
    generalize 2 ^ (e + 53) = q at hpow hbelow
    omega
  · -- Only a carry leads to infinity.
    have hcompose : infinity ≤ compose (roundHalfEven units (den <<< e)) e ↔
        2 ^ 53 - 1 < roundHalfEven units (den <<< e) := by
      unfold infinity compose binade
      omega
    have hpos : 0 < den <<< e := by
      rw [Nat.shiftLeft_eq]
      exact Nat.mul_pos hden (Nat.two_pow_pos e)
    have hdouble : 2 ^ e = 2 * 2 ^ k := by rw [heq, Nat.pow_succ']
    rw [hcompose, lt_roundHalfEven_iff (by decide) hpos, Nat.le_div_iff_mul_le hden,
      Nat.shiftLeft_eq, hdouble]
    generalize 2 ^ k = p
    have hbound : (2 * (2 ^ 53 - 1) + 1) * (den * (2 * p)) = 2 * ((2 ^ 54 - 1) * p * den) := by
      ring
    rw [hbound, Nat.mul_le_mul_left_iff (by decide)]
  · -- No carry is needed, since the leading bit of the significand is set.
    obtain ⟨hlow, hsignificand⟩ := le_significand he (by omega)
    have hpow : 2 ^ 54 * 2 ^ k ≤ 2 ^ (e + 52) := by
      rw [← Nat.pow_add]
      exact Nat.pow_le_pow_right (by decide) (by omega)
    unfold infinity compose binade
    generalize 2 ^ k = p at hpow
    generalize 2 ^ (e + 52) = q at hpow hlow
    omega

end

/-- **A fraction rounds to infinity if and only if it is not below the bound.** -/
theorem nearest_eq_infinity_iff (hden : 0 < den) :
    nearest num den = infinity ↔ overflow * den ≤ num := by
  have hscale (j k : Nat) :
      (2 ^ 54 - 1) * 2 ^ (j + k) * den = (2 ^ 54 - 1) * 2 ^ j * den * 2 ^ k := by
    rw [Nat.pow_add]
    ring
  have hunits : (2 ^ 54 - 1) * 2 ^ (970 + 1074) * den = overflow * den * 2 ^ 1074 :=
    hscale 970 1074
  unfold nearest
  dsimp only
  rw [min_eq_right_iff, infinity_le_compose_iff (show 970 + 1074 = 2044 from rfl) hden rfl, hunits,
    Nat.shiftLeft_eq, Nat.mul_le_mul_right_iff (Nat.two_pow_pos _)]

end Lox.Number
