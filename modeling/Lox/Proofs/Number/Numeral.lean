import Lox.Proofs.Number.Bits

namespace Lox

/-!
# Numerals read back

The text of a finite number is a numeral, and the numeral stands for the number: the exact decimal
fraction of a number rounds to it, the shortest one that is printed in its place does so, too, and
leaving out the zeros at the end of a fraction does not change the fraction.

* `Number.nearest_mul` — rounding depends on the fraction only, not on how it is written.
* `Decimal.nearest_exact` — the exact fraction of a finite number rounds to the number.
* `Decimal.nearest_ofNumeral_chars` — a decimal fraction and its numeral round to the same number.
* `Decimal.chars_cases` — the form of a numeral.
* `Number.text_ofMagnitude` — the text of a finite number stands for it.
-/

namespace Number

/-! ### Rounding -/

/-- A factor may be taken out of a shift. -/
theorem mul_shiftLeft (a k n : Nat) : (a * k) <<< n = (a <<< n) * k := by
  rw [Nat.shiftLeft_eq, Nat.shiftLeft_eq, Nat.mul_right_comm]

/-- Rounding a quotient does not depend on a factor of numerator and denominator. -/
theorem roundHalfEven_mul (num den : Nat) {k : Nat} (h : 0 < k) :
    roundHalfEven (num * k) (den * k) = roundHalfEven num den := by
  have hlt : 2 * (num % den * k) < den * k ↔ 2 * (num % den) < den := by
    rw [← Nat.mul_assoc, Nat.mul_lt_mul_right h]
  have heq : 2 * (num % den * k) = den * k ↔ 2 * (num % den) = den := by
    rw [← Nat.mul_assoc, Nat.mul_left_inj (Nat.ne_of_gt h)]
  unfold roundHalfEven
  simp only [Nat.mul_div_mul_right num den h, Nat.mul_mod_mul_right, hlt, heq]

/-- Rounding depends on the fraction only, not on how it is written. -/
theorem nearest_mul (num den : Nat) {k : Nat} (h : 0 < k) :
    nearest (num * k) (den * k) = nearest num den := by
  unfold nearest
  simp only [mul_shiftLeft, Nat.mul_div_mul_right _ _ h, roundHalfEven_mul _ _ h]

/-- The exponent of a finite magnitude is the least that leaves its value 53 bits. -/
theorem log2_value (p : Nat) : (significand p * 2 ^ exponent p).log2 - 52 = exponent p := by
  by_cases hp : p < binade
  · have hexponent : exponent p = 0 := by
      unfold exponent
      rw [Nat.div_eq_of_lt hp]
    rw [hexponent, significand, if_pos hp, Nat.pow_zero, Nat.mul_one]
    by_cases hzero : p = 0
    · rw [hzero, Nat.log2_zero]
    · have hlog : p.log2 < 52 := (Nat.log2_lt hzero).2 hp
      omega
  · -- The leading bit is the implied one.
    have hlow : 2 ^ 52 ≤ significand p := by
      rw [significand, if_neg hp]
      exact Nat.le_add_left _ _
    have hhigh : significand p < 2 ^ 53 := by
      rw [significand, if_neg hp]
      have := Nat.mod_lt p (show 0 < binade by decide)
      unfold binade at *
      omega
    have hlog : (significand p * 2 ^ exponent p).log2 = 52 + exponent p := by
      have hpow : 0 < 2 ^ exponent p := Nat.two_pow_pos _
      refine (Nat.log2_eq_iff (Nat.ne_of_gt (Nat.mul_pos (by omega) hpow))).2 ⟨?_, ?_⟩
      · rw [Nat.pow_add]
        exact Nat.mul_le_mul_right _ hlow
      · rw [Nat.add_right_comm, Nat.pow_add]
        exact Nat.mul_lt_mul_of_pos_right hhigh hpow
    rw [hlog]
    omega

/-- A fraction that is the value of a finite magnitude rounds to it. -/
theorem nearest_of_eq {p num den : Nat} (hp : p < infinity) (hden : 0 < den)
    (h : num <<< 1074 = significand p * 2 ^ exponent p * den) : nearest num den = p := by
  unfold nearest
  simp only [h, Nat.mul_div_cancel _ hden, log2_value]
  have hround : significand p * 2 ^ exponent p * den = significand p * (den <<< exponent p) := by
    rw [Nat.shiftLeft_eq, Nat.mul_assoc, Nat.mul_comm (2 ^ exponent p)]
  have hpos : 0 < den <<< exponent p := by
    rw [Nat.shiftLeft_eq]
    exact Nat.mul_pos hden (Nat.two_pow_pos _)
  rw [hround, roundHalfEven_mul_self _ hpos, compose_significand_exponent]
  exact Nat.min_eq_left (Nat.le_of_lt hp)

end Number

namespace Decimal

open Number

/-- Dividing by a power of two is multiplying by that power of five and moving the point. -/
theorem mul_pow_five (s e n : Nat) (h : e ≤ n) :
    s * 5 ^ (n - e) * 2 ^ n = s * 2 ^ e * 10 ^ (n - e) := by
  obtain ⟨k, rfl⟩ := Nat.exists_eq_add_of_le h
  rw [Nat.add_sub_cancel_left, show (10 : Nat) = 2 * 5 from rfl, mul_pow]
  ring

/-- A power of two that is divided out may be put back. -/
theorem mul_pow_two (s e n : Nat) (h : n ≤ e) : s * 2 ^ (e - n) * 2 ^ n = s * 2 ^ e := by
  rw [Nat.mul_assoc, ← Nat.pow_add, Nat.sub_add_cancel h]

/-- The exact fraction of a finite number rounds to the number. -/
theorem nearest_exact {p : Nat} (h : p < infinity) : (exact p).nearest = p := by
  refine nearest_of_eq h (scale_pos _) ?_
  show ((significand p <<< (exponent p - 1074)) * 5 ^ (1074 - exponent p)) <<< 1074 =
    significand p * 2 ^ exponent p * 10 ^ (1074 - exponent p)
  generalize 1074 = n
  by_cases he : exponent p ≤ n
  · rw [Nat.sub_eq_zero_of_le he, Nat.shiftLeft_zero, Nat.shiftLeft_eq, mul_pow_five _ _ _ he]
  · have he' := Nat.le_of_not_le he
    rw [Nat.sub_eq_zero_of_le he', pow_zero, pow_zero, Nat.mul_one, Nat.mul_one,
      Nat.shiftLeft_eq, Nat.shiftLeft_eq, mul_pow_two _ _ _ he']

/-! ### Digits -/

/-- What is dropped at the end of a list are copies of one item. -/
theorem exists_append_replicate (a : Char) (l : List Char) :
    ∃ n, l = (l.reverse.dropWhile (· == a)).reverse ++ List.replicate n a := by
  refine ⟨(l.reverse.takeWhile (· == a)).length, ?_⟩
  have hcopies : l.reverse.takeWhile (· == a) =
      List.replicate (l.reverse.takeWhile (· == a)).length a :=
    List.eq_replicate_of_mem fun b hb => eq_of_beq (List.all_eq_true.1 List.all_takeWhile b hb)
  have hsplit := congrArg List.reverse
    (List.takeWhile_append_dropWhile (p := (· == a)) (l := l.reverse))
  rw [List.reverse_append, List.reverse_reverse, hcopies, List.reverse_replicate] at hsplit
  exact hsplit.symm

/-- A number is written with digits only. -/
theorem isDigit_toDigits {n : Nat} : ∀ c ∈ Nat.toDigits 10 n, c.isDigit = true :=
  fun _ hc => Nat.isDigit_of_mem_toDigits (by decide) (by decide) hc

/-- The fractional digits and the zeros left out behind them are as many as there are places, and
    they stand for the fractional part. -/
theorem exists_fractionDigits (d : Decimal) :
    ∃ z, d.fractionDigits.length + z = d.places ∧
      10 ^ z * Nat.ofDigitChars 10 d.fractionDigits 0 = d.coefficient % d.scale := by
  obtain ⟨coefficient, places⟩ := d
  cases places with
  | zero =>
    -- Without places there is a single digit, a zero, which is left out.
    have hscale : coefficient % Decimal.scale ⟨coefficient, 0⟩ = 0 := Nat.mod_one coefficient
    have hnone : fractionDigits ⟨coefficient, 0⟩ = [] := by
      unfold fractionDigits
      rw [hscale]
      rfl
    rw [hnone, hscale]
    exact ⟨0, rfl, rfl⟩
  | succ places =>
    have hlt : coefficient % Decimal.scale ⟨coefficient, places + 1⟩ < 10 ^ (places + 1) :=
      Nat.mod_lt _ (scale_pos _)
    unfold fractionDigits
    dsimp only
    generalize coefficient % Decimal.scale ⟨coefficient, places + 1⟩ = fraction at hlt
    have hlength : (Nat.toDigits 10 fraction).length ≤ places + 1 :=
      (Nat.length_toDigits_le_iff (by decide) (Nat.succ_pos _)).2 hlt
    obtain ⟨z, hz⟩ := exists_append_replicate '0'
      (List.replicate (places + 1 - (Nat.toDigits 10 fraction).length) '0' ++
        Nat.toDigits 10 fraction)
    refine ⟨z, ?_, ?_⟩
    · have h := congrArg List.length hz
      rw [List.length_append, List.length_append, List.length_replicate, List.length_replicate] at h
      omega
    · rw [← Nat.ofDigitChars_replicate_zero, ← Nat.ofDigitChars_append, ← hz,
        Nat.ofDigitChars_append, Nat.ofDigitChars_replicate_zero, Nat.mul_zero,
        Nat.ofDigitChars_ten_toDigits]

/-- The fractional part is written with digits only. -/
theorem isDigit_fractionDigits (d : Decimal) : ∀ c ∈ d.fractionDigits, c.isDigit = true := by
  intro c hc
  unfold fractionDigits at hc
  have hpadded := (List.dropWhile_sublist _).mem (List.mem_reverse.1 hc)
  rcases List.mem_append.1 (List.mem_reverse.1 hpadded) with hzero | hdigit
  · rw [(List.mem_replicate.1 hzero).2]
    rfl
  · exact isDigit_toDigits c hdigit

/-! ### Numerals -/

/-- The digits in front of the point. -/
def wholeDigits (d : Decimal) : List Char := Nat.toDigits 10 (d.coefficient / d.scale)

/-- A numeral has a point only if there are digits behind it. -/
theorem chars_cases (d : Decimal) :
    (d.fractionDigits = [] ∧ d.chars = d.wholeDigits) ∨
      (d.fractionDigits ≠ [] ∧ d.chars = d.wholeDigits ++ '.' :: d.fractionDigits) := by
  unfold chars
  split
  · next h => exact .inl ⟨h, rfl⟩
  · next h => exact .inr ⟨h, rfl⟩

/-- The search for a point passes over digits. -/
theorem dropWhile_digits {cs : List Char} (h : ∀ c ∈ cs, c.isDigit = true) (rest : List Char) :
    (cs ++ rest).dropWhile (· != '.') = rest.dropWhile (· != '.') := by
  refine List.dropWhile_append_of_pos fun c hc => ?_
  rw [bne_iff_ne]
  rintro rfl
  exact absurd (h _ hc) (by decide)

/-- What a numeral stands for: its digits, with as many places as there are digits behind the
    point. -/
theorem ofNumeral_chars (d : Decimal) :
    ofNumeral d.chars =
      ⟨Nat.ofDigitChars 10 (d.wholeDigits ++ d.fractionDigits) 0, d.fractionDigits.length⟩ := by
  have hwhole : ∀ c ∈ d.wholeDigits, c.isDigit = true := isDigit_toDigits
  unfold ofNumeral
  rcases d.chars_cases with ⟨hnone, hchars⟩ | ⟨-, hchars⟩
  · have hdrop := dropWhile_digits hwhole []
    rw [List.append_nil] at hdrop
    rw [hchars, hnone, List.append_nil, List.filter_eq_self.2 hwhole, hdrop]
    rfl
  · rw [hchars, List.filter_append, List.filter_cons_of_neg (by decide),
      List.filter_eq_self.2 hwhole, List.filter_eq_self.2 d.isDigit_fractionDigits,
      dropWhile_digits hwhole, List.dropWhile_cons_of_neg (by decide)]
    rfl

/-- A decimal fraction and its numeral round to the same number. -/
theorem nearest_ofNumeral_chars (d : Decimal) : (ofNumeral d.chars).nearest = d.nearest := by
  obtain ⟨z, hplaces, hfraction⟩ := d.exists_fractionDigits
  -- The zeros that are left out make up for the places that are missing.
  have hscale : 10 ^ d.fractionDigits.length * 10 ^ z = d.scale := by
    rw [← Nat.pow_add, hplaces]
    rfl
  have hvalue : Nat.ofDigitChars 10 (d.wholeDigits ++ d.fractionDigits) 0 * 10 ^ z =
      d.coefficient :=
    calc Nat.ofDigitChars 10 (d.wholeDigits ++ d.fractionDigits) 0 * 10 ^ z
        = (10 ^ d.fractionDigits.length * (d.coefficient / d.scale) +
            Nat.ofDigitChars 10 d.fractionDigits 0) * 10 ^ z := by
          rw [Nat.ofDigitChars_append, Nat.ofDigitChars_eq_ofDigitChars_zero, wholeDigits,
            Nat.ofDigitChars_ten_toDigits]
      _ = 10 ^ d.fractionDigits.length * 10 ^ z * (d.coefficient / d.scale) +
            10 ^ z * Nat.ofDigitChars 10 d.fractionDigits 0 := by
          rw [Nat.add_mul, Nat.mul_right_comm, Nat.mul_comm (10 ^ z)]
      _ = d.coefficient := by rw [hscale, hfraction, Nat.div_add_mod]
  rw [ofNumeral_chars]
  show Number.nearest _ (10 ^ d.fractionDigits.length) = Number.nearest d.coefficient d.scale
  rw [← hscale, ← nearest_mul _ _ (Nat.pow_pos (n := z) (by decide : 0 < 10)), hvalue]

end Decimal

namespace Number

/-- **The text of a finite number is a numeral that stands for it.** -/
theorem text_ofMagnitude {p : Nat} (h : p < infinity) :
    text (ofMagnitude p) = (Decimal.shortest p).text ∧
      ofNumeral (Decimal.shortest p).chars = ofMagnitude p := by
  have hle := Nat.le_of_lt h
  constructor
  · unfold text
    rw [isNaN_ofMagnitude hle, isNegative_ofMagnitude hle, magnitude_ofMagnitude hle]
    simp only [Bool.false_eq_true, if_false, Nat.ne_of_lt h]
  · unfold ofNumeral
    rw [Decimal.nearest_ofNumeral_chars, Decimal.nearest_shortest (Decimal.nearest_exact h)]

end Number

end Lox
