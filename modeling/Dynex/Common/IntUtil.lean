import Dynex.Lib.WideArithmetic

/-!
# Wide multiplication and division

`Common/int-util.h`: `mul128` forms the 128-bit product of two 64-bit words from the products
of their 32-bit halves, and `div128_32` divides a 128-bit number by a 32-bit one by long
division in base `2 ^ 32`, one half-word at a time. Both compute exactly what they are for
(`mul128_toNat`, `div128_32_toNat`). A division by zero has no meaning in the source; the
lemmas about the division assume a nonzero divisor.
-/

set_option autoImplicit false

namespace Dynex.IntUtil

open WideArithmetic

def hi_dword (val : UInt64) : UInt64 := val >>> 32

def lo_dword (val : UInt64) : UInt64 := val &&& 0xFFFFFFFF

/-- `mul128(multiplier, multiplicand, &product_hi)`: the low word of the product, and the high
word it writes through `product_hi`. -/
def mul128 (multiplier multiplicand : UInt64) : UInt64 × UInt64 :=
  let a := hi_dword multiplier
  let b := lo_dword multiplier
  let c := hi_dword multiplicand
  let d := lo_dword multiplicand
  let ac := a * c
  let ad := a * d
  let bc := b * c
  let bd := b * d
  let adbc := ad + bc
  let adbc_carry : UInt64 := if adbc < ad then 1 else 0
  let product_lo := bd + (adbc <<< 32)
  let product_lo_carry : UInt64 := if product_lo < bd then 1 else 0
  let product_hi := ac + (adbc >>> 32) + (adbc_carry <<< 32) + product_lo_carry
  (product_lo, product_hi)

def div_with_reminder (dividend : UInt64) (divisor remainder : UInt32) : UInt64 × UInt32 :=
  let dividend := dividend ||| (remainder.toUInt64 <<< 32)
  (dividend / divisor.toUInt64, (dividend % divisor.toUInt64).toUInt32)

/-- `div128_32(dividend_hi, dividend_lo, divisor, &quotient_hi, &quotient_lo)`: the remainder,
and the two quotient words it writes. -/
def div128_32 (dividend_hi dividend_lo : UInt64) (divisor : UInt32) : UInt32 × UInt64 × UInt64 :=
  let step3 := div_with_reminder (hi_dword dividend_hi) divisor 0
  let step2 := div_with_reminder (lo_dword dividend_hi) divisor step3.2
  let step1 := div_with_reminder (hi_dword dividend_lo) divisor step2.2
  let step0 := div_with_reminder (lo_dword dividend_lo) divisor step1.2
  (step0.2, (step3.1 <<< 32) ||| step2.1, (step1.1 <<< 32) ||| step0.1)

@[simp] theorem toNat_hi_dword (val : UInt64) : (hi_dword val).toNat = val.toNat / 2 ^ 32 :=
  toNat_shiftRight_32 val

@[simp] theorem toNat_lo_dword (val : UInt64) : (lo_dword val).toNat = val.toNat % 2 ^ 32 :=
  toNat_and_low val

/-! ## The product -/

/-- `mul128` is the product, split into its low and high words. -/
theorem mul128_toNat (multiplier multiplicand : UInt64) :
    (mul128 multiplier multiplicand).1.toNat = multiplier.toNat * multiplicand.toNat % 2 ^ 64 ∧
      (mul128 multiplier multiplicand).2.toNat = multiplier.toNat * multiplicand.toNat / 2 ^ 64 := by
  have whole := mul_eq_halves multiplier.toNat multiplicand.toNat
  have fitsX := multiplier.toNat_lt
  have fitsY := multiplicand.toNat_lt
  have highX : multiplier.toNat / 2 ^ 32 < 2 ^ 32 := by omega
  have lowX : multiplier.toNat % 2 ^ 32 < 2 ^ 32 := by omega
  have highY : multiplicand.toNat / 2 ^ 32 < 2 ^ 32 := by omega
  have lowY : multiplicand.toNat % 2 ^ 32 < 2 ^ 32 := by omega
  have ac : (hi_dword multiplier * hi_dword multiplicand).toNat =
      multiplier.toNat / 2 ^ 32 * (multiplicand.toNat / 2 ^ 32) := by
    rw [UInt64.toNat_mul, toNat_hi_dword, toNat_hi_dword,
      Nat.mod_eq_of_lt (mul_lt_of_halves highX highY)]
  have ad : (hi_dword multiplier * lo_dword multiplicand).toNat =
      multiplier.toNat / 2 ^ 32 * (multiplicand.toNat % 2 ^ 32) := by
    rw [UInt64.toNat_mul, toNat_hi_dword, toNat_lo_dword,
      Nat.mod_eq_of_lt (mul_lt_of_halves highX lowY)]
  have bc : (lo_dword multiplier * hi_dword multiplicand).toNat =
      multiplier.toNat % 2 ^ 32 * (multiplicand.toNat / 2 ^ 32) := by
    rw [UInt64.toNat_mul, toNat_lo_dword, toNat_hi_dword,
      Nat.mod_eq_of_lt (mul_lt_of_halves lowX highY)]
  have bd : (lo_dword multiplier * lo_dword multiplicand).toNat =
      multiplier.toNat % 2 ^ 32 * (multiplicand.toNat % 2 ^ 32) := by
    rw [UInt64.toNat_mul, toNat_lo_dword, toNat_lo_dword,
      Nat.mod_eq_of_lt (mul_lt_of_halves lowX lowY)]
  have acSmall := mul_lt_of_halves highX highY
  have adSmall := mul_lt_of_halves highX lowY
  have bcSmall := mul_lt_of_halves lowX highY
  have bdSmall := mul_lt_of_halves lowX lowY
  have wide : multiplier.toNat * multiplicand.toNat < 2 ^ 128 :=
    calc multiplier.toNat * multiplicand.toNat < 2 ^ 64 * 2 ^ 64 := Nat.mul_lt_mul'' fitsX fitsY
      _ = 2 ^ 128 := by norm_num
  simp only [mul128, UInt64.lt_iff_toNat_lt, UInt64.toNat_add, ac, ad, bc, bd, toNat_shiftLeft_32,
    toNat_shiftRight_32]
  generalize multiplier.toNat / 2 ^ 32 * (multiplicand.toNat / 2 ^ 32) = high at *
  generalize multiplier.toNat / 2 ^ 32 * (multiplicand.toNat % 2 ^ 32) = outer at *
  generalize multiplier.toNat % 2 ^ 32 * (multiplicand.toNat / 2 ^ 32) = inner at *
  generalize multiplier.toNat % 2 ^ 32 * (multiplicand.toNat % 2 ^ 32) = low at *
  generalize multiplier.toNat * multiplicand.toNat = product at *
  split_ifs <;> simp only [UInt64.toNat_one, UInt64.toNat_zero] <;> omega

theorem hi_dword_mul_le_mul128 (multiplier multiplicand : UInt64) :
    hi_dword multiplier * hi_dword multiplicand ≤ (mul128 multiplier multiplicand).2 := by
  have highX : multiplier.toNat / 2 ^ 32 < 2 ^ 32 := by have := multiplier.toNat_lt; omega
  have highY : multiplicand.toNat / 2 ^ 32 < 2 ^ 32 := by have := multiplicand.toNat_lt; omega
  have ac : (hi_dword multiplier * hi_dword multiplicand).toNat =
      multiplier.toNat / 2 ^ 32 * (multiplicand.toNat / 2 ^ 32) := by
    rw [UInt64.toNat_mul, toNat_hi_dword, toNat_hi_dword,
      Nat.mod_eq_of_lt (mul_lt_of_halves highX highY)]
  rw [UInt64.le_iff_toNat_le, ac, (mul128_toNat multiplier multiplicand).2]
  apply (Nat.le_div_iff_mul_le (by norm_num)).mpr
  rw [mul_eq_halves multiplier.toNat multiplicand.toNat]
  exact Nat.le_add_right_of_le (Nat.le_add_right _ _)

theorem mul128_hi_lo (multiplier multiplicand : UInt64) :
    (mul128 multiplier multiplicand).2.toNat * 2 ^ 64 + (mul128 multiplier multiplicand).1.toNat =
      multiplier.toNat * multiplicand.toNat := by
  obtain ⟨low, high⟩ := mul128_toNat multiplier multiplicand
  rw [low, high, Nat.div_add_mod']

/-! ## The division -/

theorem toNat_pos_of_ne_zero {divisor : UInt32} (nonzero : divisor ≠ 0) : 0 < divisor.toNat := by
  rcases Nat.eq_zero_or_pos divisor.toNat with zero | positive
  · exact absurd (UInt32.toNat_inj.mp zero) nonzero
  · exact positive

theorem div_with_reminder_toNat {dividend : UInt64} {divisor remainder : UInt32}
    (digit : dividend.toNat < 2 ^ 32) (below : remainder.toNat < divisor.toNat) :
    (div_with_reminder dividend divisor remainder).1.toNat =
        (remainder.toNat * 2 ^ 32 + dividend.toNat) / divisor.toNat ∧
      (div_with_reminder dividend divisor remainder).2.toNat =
        (remainder.toNat * 2 ^ 32 + dividend.toNat) % divisor.toNat := by
  have joined : (dividend ||| (remainder.toUInt64 <<< 32)).toNat =
      remainder.toNat * 2 ^ 32 + dividend.toNat := by
    rw [UInt64.or_comm, toNat_shiftLeft_or _ _ digit, UInt32.toNat_toUInt64,
      Nat.mod_eq_of_lt remainder.toNat_lt]
  have small : (remainder.toNat * 2 ^ 32 + dividend.toNat) % divisor.toNat < 2 ^ 32 :=
    lt_trans (Nat.mod_lt _ (by omega)) divisor.toNat_lt
  simp only [div_with_reminder, UInt64.toNat_div, UInt64.toNat_mod, UInt64.toNat_toUInt32,
    UInt32.toNat_toUInt64, joined, Nat.mod_eq_of_lt small, and_self]

/-- `div128_32` by a nonzero divisor is the quotient, in two words, and the remainder. -/
theorem div128_32_toNat (dividend_hi dividend_lo : UInt64) {divisor : UInt32}
    (nonzero : divisor ≠ 0) :
    (div128_32 dividend_hi dividend_lo divisor).2.1.toNat * 2 ^ 64 +
        (div128_32 dividend_hi dividend_lo divisor).2.2.toNat =
      (dividend_hi.toNat * 2 ^ 64 + dividend_lo.toNat) / divisor.toNat ∧
    (div128_32 dividend_hi dividend_lo divisor).1.toNat =
      (dividend_hi.toNat * 2 ^ 64 + dividend_lo.toNat) % divisor.toNat := by
  have positive := toNat_pos_of_ne_zero nonzero
  have fitsHi := dividend_hi.toNat_lt
  have fitsLo := dividend_lo.toNat_lt
  simp only [div128_32]
  generalize step3 : div_with_reminder (hi_dword dividend_hi) divisor 0 = s3
  generalize step2 : div_with_reminder (lo_dword dividend_hi) divisor s3.2 = s2
  generalize step1 : div_with_reminder (hi_dword dividend_lo) divisor s2.2 = s1
  generalize step0 : div_with_reminder (lo_dword dividend_lo) divisor s1.2 = s0
  obtain ⟨q3, r3⟩ := div_with_reminder_toNat (show (hi_dword dividend_hi).toNat < 2 ^ 32 by simp; omega)
    (show (0 : UInt32).toNat < divisor.toNat by simpa using positive)
  rw [step3] at q3 r3
  simp only [toNat_hi_dword, UInt32.toNat_zero, Nat.zero_mul, Nat.zero_add] at q3 r3
  obtain ⟨q2, r2⟩ := div_with_reminder_toNat (show (lo_dword dividend_hi).toNat < 2 ^ 32 by simp; omega)
    (show s3.2.toNat < divisor.toNat by rw [r3]; exact Nat.mod_lt _ positive)
  rw [step2, r3] at q2 r2
  simp only [toNat_lo_dword] at q2 r2
  obtain ⟨q1, r1⟩ := div_with_reminder_toNat (show (hi_dword dividend_lo).toNat < 2 ^ 32 by simp; omega)
    (show s2.2.toNat < divisor.toNat by rw [r2]; exact Nat.mod_lt _ positive)
  rw [step1, r2] at q1 r1
  simp only [toNat_hi_dword] at q1 r1
  obtain ⟨q0, r0⟩ := div_with_reminder_toNat (show (lo_dword dividend_lo).toNat < 2 ^ 32 by simp; omega)
    (show s1.2.toNat < divisor.toNat by rw [r1]; exact Nat.mod_lt _ positive)
  rw [step0, r1] at q0 r0
  simp only [toNat_lo_dword] at q0 r0
  have digit3 : s3.1.toNat < 2 ^ 32 := by rw [q3]; exact lt_of_le_of_lt (Nat.div_le_self _ _) (by omega)
  have digit2 : s2.1.toNat < 2 ^ 32 := by rw [q2]; exact div_digit_lt (Nat.mod_lt _ positive) (by omega)
  have digit1 : s1.1.toNat < 2 ^ 32 := by rw [q1]; exact div_digit_lt (Nat.mod_lt _ positive) (by omega)
  have digit0 : s0.1.toNat < 2 ^ 32 := by rw [q0]; exact div_digit_lt (Nat.mod_lt _ positive) (by omega)
  rw [toNat_shiftLeft_or _ _ digit2, toNat_shiftLeft_or _ _ digit0, Nat.mod_eq_of_lt digit3,
    Nat.mod_eq_of_lt digit1, q3, q2, q1, q0, r0]
  have digits : dividend_hi.toNat * 2 ^ 64 + dividend_lo.toNat =
      ((dividend_hi.toNat / 2 ^ 32 * 2 ^ 32 + dividend_hi.toNat % 2 ^ 32) * 2 ^ 32 +
        dividend_lo.toNat / 2 ^ 32) * 2 ^ 32 + dividend_lo.toNat % 2 ^ 32 := by omega
  rw [digits]
  generalize dividend_hi.toNat / 2 ^ 32 = d3
  generalize dividend_hi.toNat % 2 ^ 32 = d2
  generalize dividend_lo.toNat / 2 ^ 32 = d1
  generalize dividend_lo.toNat % 2 ^ 32 = d0
  generalize divisor.toNat = D
  rw [div_append_digit (2 ^ 32) ((d3 * 2 ^ 32 + d2) * 2 ^ 32 + d1) d0 D,
    mod_append_digit (2 ^ 32) ((d3 * 2 ^ 32 + d2) * 2 ^ 32 + d1) d0 D,
    div_append_digit (2 ^ 32) (d3 * 2 ^ 32 + d2) d1 D, mod_append_digit (2 ^ 32) (d3 * 2 ^ 32 + d2) d1 D,
    div_append_digit (2 ^ 32) d3 d2 D, mod_append_digit (2 ^ 32) d3 d2 D]
  exact ⟨by ring, rfl⟩

theorem div128_32_div_add_mod (dividend_hi dividend_lo : UInt64) {divisor : UInt32}
    (nonzero : divisor ≠ 0) :
    ((div128_32 dividend_hi dividend_lo divisor).2.1.toNat * 2 ^ 64 +
        (div128_32 dividend_hi dividend_lo divisor).2.2.toNat) * divisor.toNat +
      (div128_32 dividend_hi dividend_lo divisor).1.toNat =
        dividend_hi.toNat * 2 ^ 64 + dividend_lo.toNat ∧
    (div128_32 dividend_hi dividend_lo divisor).1 < divisor := by
  obtain ⟨quotient, remainder⟩ := div128_32_toNat dividend_hi dividend_lo nonzero
  refine ⟨?_, ?_⟩
  · rw [quotient, remainder, Nat.div_add_mod']
  · rw [UInt32.lt_iff_toNat_lt, remainder]
    exact Nat.mod_lt _ (toNat_pos_of_ne_zero nonzero)

/-- Both helpers are exact: `mul128` returns the product in two words, with its assertion true,
and `div128_32` by any nonzero divisor returns a quotient and a remainder below the divisor that
give back the dividend. -/
theorem mul128_div128_32_exact (multiplier multiplicand dividend_hi dividend_lo : UInt64)
    {divisor : UInt32} (nonzero : divisor ≠ 0) :
    ((mul128 multiplier multiplicand).2.toNat * 2 ^ 64 + (mul128 multiplier multiplicand).1.toNat =
        multiplier.toNat * multiplicand.toNat ∧
      hi_dword multiplier * hi_dword multiplicand ≤ (mul128 multiplier multiplicand).2) ∧
    (((div128_32 dividend_hi dividend_lo divisor).2.1.toNat * 2 ^ 64 +
          (div128_32 dividend_hi dividend_lo divisor).2.2.toNat) * divisor.toNat +
        (div128_32 dividend_hi dividend_lo divisor).1.toNat =
          dividend_hi.toNat * 2 ^ 64 + dividend_lo.toNat ∧
      (div128_32 dividend_hi dividend_lo divisor).1 < divisor) :=
  ⟨⟨mul128_hi_lo multiplier multiplicand, hi_dword_mul_le_mul128 multiplier multiplicand⟩,
    div128_32_div_add_mod dividend_hi dividend_lo nonzero⟩

/-- At the largest words and the largest divisor, where every carry and every quotient digit is
at its bound. -/
theorem mul128_div128_32_at_max_words :
    (0xFFFFFFFF : UInt32) ≠ 0 ∧
    ((mul128 0xFFFFFFFFFFFFFFFF 0xFFFFFFFFFFFFFFFF).2.toNat * 2 ^ 64 +
          (mul128 0xFFFFFFFFFFFFFFFF 0xFFFFFFFFFFFFFFFF).1.toNat =
        (0xFFFFFFFFFFFFFFFF : UInt64).toNat * (0xFFFFFFFFFFFFFFFF : UInt64).toNat ∧
      hi_dword 0xFFFFFFFFFFFFFFFF * hi_dword 0xFFFFFFFFFFFFFFFF ≤
        (mul128 0xFFFFFFFFFFFFFFFF 0xFFFFFFFFFFFFFFFF).2) ∧
    (((div128_32 0xFFFFFFFFFFFFFFFF 0xFFFFFFFFFFFFFFFF 0xFFFFFFFF).2.1.toNat * 2 ^ 64 +
          (div128_32 0xFFFFFFFFFFFFFFFF 0xFFFFFFFFFFFFFFFF 0xFFFFFFFF).2.2.toNat) *
          (0xFFFFFFFF : UInt32).toNat +
        (div128_32 0xFFFFFFFFFFFFFFFF 0xFFFFFFFFFFFFFFFF 0xFFFFFFFF).1.toNat =
          (0xFFFFFFFFFFFFFFFF : UInt64).toNat * 2 ^ 64 + (0xFFFFFFFFFFFFFFFF : UInt64).toNat ∧
      (div128_32 0xFFFFFFFFFFFFFFFF 0xFFFFFFFFFFFFFFFF 0xFFFFFFFF).1 < 0xFFFFFFFF) :=
  ⟨by decide, mul128_div128_32_exact 0xFFFFFFFFFFFFFFFF 0xFFFFFFFFFFFFFFFF 0xFFFFFFFFFFFFFFFF
    0xFFFFFFFFFFFFFFFF (by decide)⟩

end Dynex.IntUtil
