import Lox.Number
import Mathlib

namespace Lox.Number

/-!
# Numbers and their bits

A number is made from the bits of its magnitude, and its magnitude is read from its bits. Bits that
stand for what is not a number may come back changed; all others are kept.

* `pack_unpack_of_isNumber` — a bit pattern that stands for a number is kept.
* `magnitude_ofMagnitude` — so a number has the magnitude that it is made from.
* `isNaN_ofMagnitude`, `isNegative_ofMagnitude` — it is a number, and its sign is not set.
-/

open Float.Model Float.Model.UnpackedFloat

/-- The stored exponent of a bit pattern. -/
abbrev storedExponent (b : BitVec 64) : BitVec 11 := @unpackExponent Format.binary64 b

/-- The stored mantissa of a bit pattern, without the implied bit. -/
abbrev storedMantissa (b : BitVec 64) : BitVec 52 := @unpackMantissa Format.binary64 b

/-- The sign of a bit pattern. -/
abbrev storedSign (b : BitVec 64) : Sign := Sign.ofBitVec (@unpackSign Format.binary64 b)

/-- The stored exponent is what stands above the mantissa, without the sign. -/
theorem toNat_storedExponent (b : BitVec 64) :
    (storedExponent b).toNat = b.toNat / 2 ^ 52 % 2 ^ 11 := by
  show (BitVec.cast _ (BitVec.extractLsb 62 52 b)).toNat = _
  rw [BitVec.toNat_cast, BitVec.extractLsb_toNat, Nat.shiftRight_eq_div_pow]

/-- The stored mantissa is what the lower bits make. -/
theorem toNat_storedMantissa (b : BitVec 64) :
    (storedMantissa b).toNat = b.toNat % 2 ^ 52 := by
  show (BitVec.cast _ (BitVec.extractLsb 51 0 b)).toNat = _
  rw [BitVec.toNat_cast, BitVec.extractLsb_toNat, Nat.shiftRight_zero]

/-- A bit pattern is made of its sign, its exponent and its mantissa. -/
theorem packComponents_stored (b : BitVec 64) :
    packComponents Format.binary64 (storedSign b) (storedExponent b) (storedMantissa b) = b := by
  have hsign (v : BitVec 1) : (Sign.ofBitVec v).toBitVec = v := by
    revert v
    decide
  unfold packComponents
  rw [hsign]
  apply BitVec.eq_of_getLsbD_eq
  intro i hi
  have hi' : i < 64 := hi
  simp only [unpackSign, unpackExponent, unpackMantissa, BitVec.getLsbD_append,
    BitVec.getLsbD_cast, BitVec.getLsbD_extractLsb]
  split
  · rw [decide_eq_true (by omega), Bool.true_and, Nat.zero_add]
  split
  · rw [decide_eq_true (by omega), Bool.true_and, show 52 + (i - 52) = i by omega]
  · rw [decide_eq_true (by omega), Bool.true_and, show 52 + 11 + (i - 52 - 11) = i by omega]

/-- A mantissa alone is too short to be taken for one with an implied bit. -/
theorem pack_subnormal (s : Sign) (m : BitVec 52) {e : Int} (he : e = -1074) (h : 0 < m.toNat) :
    UnpackedFloat.pack Format.binary64 (.finite s m.toNat e h) =
      packComponents Format.binary64 s 0#11 m := by
  subst he
  have hlog : m.toNat.log2 < 52 := (Nat.log2_lt (Nat.ne_of_gt h)).2 m.isLt
  have hshort : ¬ m.toNat.log2 + 1 = Format.binary64.mantissaBits := by
    show ¬ m.toNat.log2 + 1 = 53
    omega
  unfold UnpackedFloat.pack
  dsimp only
  rw [if_neg (by decide), if_neg hshort, BitVec.ofNat_toNat, BitVec.setWidth_eq]

/-- The implied bit is the leading one and is left out; the exponent is stored with its bias. -/
theorem pack_normal (s : Sign) {e : BitVec 11} (m : BitVec 52) (hinf : e ≠ -1#11)
    (h : 0 < (1#1 ++ m).toNat) :
    UnpackedFloat.pack Format.binary64 (.finite s (1#1 ++ m).toNat (e.toNat - 1075) h) =
      packComponents Format.binary64 s e m := by
  have hm : m.toNat < 2 ^ 52 := m.isLt
  have he : e.toNat < 2 ^ 11 := e.isLt
  have hlead : (1#1 ++ m).toNat = 2 ^ 52 + m.toNat := by
    rw [BitVec.toNat_append, ← Nat.shiftLeft_add_eq_or_of_lt hm]
    rfl
  have hlog : (1#1 ++ m).toNat.log2 = 52 := by
    rw [hlead]
    exact (Nat.log2_eq_iff (by omega)).2 ⟨by omega, by omega⟩
  have hbiased : ((e.toNat - 1075 : Int) + Format.binary64.exponentBias + (52 : Nat)).toNat =
      e.toNat := by
    show ((e.toNat - 1075 : Int) + 1023 + 52).toNat = e.toNat
    omega
  have hfinite : ¬ 2 ^ 11 ≤ e.toNat + 1 := by
    intro hle
    refine hinf (BitVec.eq_of_toNat_eq ?_)
    show e.toNat = 2 ^ 11 - 1
    omega
  unfold UnpackedFloat.pack
  dsimp only
  rw [hbiased, if_neg hfinite, if_pos (by rw [hlog]; rfl), BitVec.ofNat_toNat, BitVec.setWidth_eq]
  congr 1
  apply BitVec.eq_of_toNat_eq
  rw [BitVec.toNat_ofNat, hlead]
  omega

/-- A bit pattern that does not stand for what is not a number: with the greatest exponent there
    is only infinity. -/
def IsNumber (b : BitVec 64) : Prop := storedExponent b = -1#11 → storedMantissa b = 0#52

/-- Taking a number apart and putting it together again leaves its bits as they are. -/
theorem pack_unpack_of_isNumber {b : BitVec 64} (h : IsNumber b) :
    UnpackedFloat.pack Format.binary64 (UnpackedFloat.unpack Format.binary64 b) = b := by
  refine Eq.trans ?_ (packComponents_stored b)
  -- Infinity, what has the least exponent, and all others are taken apart in different ways.
  unfold UnpackedFloat.unpack
  dsimp only
  split
  · next he =>
    rw [if_pos (h he), show storedExponent b = _ from he, h he]
    rfl
  split
  · next he =>
    rw [show storedExponent b = _ from he]
    split
    · next hm =>
      rw [show storedMantissa b = _ from hm]
      rfl
    · refine pack_subnormal (storedSign b) (storedMantissa b) ?_ _
      rw [he]
      rfl
  · next hne _ => exact pack_normal (storedSign b) (storedMantissa b) hne _

/-! ### Magnitudes -/

/-- A magnitude fits into a bit pattern. -/
theorem toNat_toBitVec_toUInt64 {p : Nat} (h : p ≤ infinity) : p.toUInt64.toBitVec.toNat = p := by
  show p % 2 ^ 64 = p
  unfold infinity binade at h
  omega

/-- What is not a number has a greater magnitude than infinity. -/
theorem isNumber_of_le {p : Nat} (h : p ≤ infinity) : IsNumber p.toUInt64.toBitVec := by
  intro he
  have hexponent := congrArg BitVec.toNat he
  rw [toNat_storedExponent, toNat_toBitVec_toUInt64 h] at hexponent
  apply BitVec.eq_of_toNat_eq
  rw [toNat_storedMantissa, toNat_toBitVec_toUInt64 h]
  show p % 2 ^ 52 = 0
  have hexponent' : p / 2 ^ 52 % 2 ^ 11 = 2 ^ 11 - 1 := hexponent
  unfold infinity binade at h
  omega

/-- The bits of a number are those of the magnitude that it is made from. -/
theorem toBits_ofMagnitude {p : Nat} (h : p ≤ infinity) :
    (ofMagnitude p).toBits = p.toUInt64 := by
  show UInt64.ofBitVec (UnpackedFloat.pack Format.binary64
    (UnpackedFloat.unpack Format.binary64 p.toUInt64.toBitVec)) = _
  rw [pack_unpack_of_isNumber (isNumber_of_le h)]

/-- A number has the magnitude that it is made from. -/
theorem magnitude_ofMagnitude {p : Nat} (h : p ≤ infinity) : magnitude (ofMagnitude p) = p := by
  unfold magnitude
  rw [toBits_ofMagnitude h]
  show p.toUInt64.toBitVec.toNat % signBit = p
  rw [toNat_toBitVec_toUInt64 h]
  unfold infinity binade at h
  unfold signBit
  omega

/-- A number that is made from a magnitude is not negative. -/
theorem isNegative_ofMagnitude {p : Nat} (h : p ≤ infinity) :
    isNegative (ofMagnitude p) = false := by
  unfold isNegative
  rw [toBits_ofMagnitude h]
  show decide (signBit ≤ p.toUInt64.toBitVec.toNat) = false
  rw [toNat_toBitVec_toUInt64 h, decide_eq_false_iff_not]
  unfold infinity binade at h
  unfold signBit
  omega

/-- What is made from a magnitude up to infinity is a number. -/
theorem isNaN_ofMagnitude {p : Nat} (h : p ≤ infinity) : (ofMagnitude p).isNaN = false := by
  show (UnpackedFloat.unpack Format.binary64 (ofMagnitude p).toBits.toBitVec).isNaN = false
  rw [toBits_ofMagnitude h]
  have hnumber := isNumber_of_le h
  generalize p.toUInt64.toBitVec = b at hnumber
  unfold UnpackedFloat.unpack
  dsimp only
  split
  · -- With the greatest exponent, the mantissa is zero, which is infinity.
    next he =>
    rw [if_pos (hnumber he)]
    rfl
  split
  · split <;> rfl
  · rfl

end Lox.Number
