import Mathlib

/-!
# Arithmetic wider than a word

Code without a 128-bit type builds wide arithmetic from 64-bit words. It forms the product of
two words from the products of their 32-bit halves. It detects the carry out of an addition by
comparing the wrapped sum with an operand. It divides a wide number by a half-word, one
half-word digit at a time. This file gives the facts those constructions rest on, stated about
`UInt64` and `Nat`.
-/

set_option autoImplicit false

namespace WideArithmetic

/-! ## Halves of a word -/

theorem toNat_shiftRight_32 (a : UInt64) : (a >>> 32).toNat = a.toNat / 2 ^ 32 := by
  simp [UInt64.toNat_shiftRight, Nat.shiftRight_eq_div_pow]

theorem toNat_and_low (a : UInt64) : (a &&& 0xFFFFFFFF).toNat = a.toNat % 2 ^ 32 := by
  rw [UInt64.toNat_and]
  have mask : (0xFFFFFFFF : UInt64).toNat = 2 ^ 32 - 1 := rfl
  rw [mask, Nat.and_two_pow_sub_one_eq_mod]

theorem toNat_shiftLeft_32 (a : UInt64) : (a <<< 32).toNat = a.toNat % 2 ^ 32 * 2 ^ 32 := by
  simp [UInt64.toNat_shiftLeft, Nat.shiftLeft_eq]
  omega

theorem toNat_shiftLeft_or (high low : UInt64) (small : low.toNat < 2 ^ 32) :
    ((high <<< 32) ||| low).toNat = high.toNat % 2 ^ 32 * 2 ^ 32 + low.toNat := by
  rw [UInt64.toNat_or, toNat_shiftLeft_32, Nat.mul_comm, ← Nat.two_pow_add_eq_or_of_lt small]

/-! ## Carries -/

theorem add_lt_left_iff (a b : UInt64) : a + b < a ↔ 2 ^ 64 ≤ a.toNat + b.toNat := by
  rw [UInt64.lt_iff_toNat_lt, UInt64.toNat_add]
  have := a.toNat_lt
  have := b.toNat_lt
  omega

theorem carry_iff (a b : UInt64) (carry : Bool) :
    (a + b < a || (carry && a + b == -1)) = true ↔
      2 ^ 64 ≤ a.toNat + b.toNat + carry.toNat := by
  have := a.toNat_lt
  have := b.toNat_lt
  cases carry <;> simp [UInt64.lt_iff_toNat_lt, UInt64.toNat_add, UInt64.ext_iff] <;> omega

/-! ## Products from halves -/

theorem mul_eq_halves (x y : Nat) :
    x * y = x / 2 ^ 32 * (y / 2 ^ 32) * 2 ^ 64 +
      (x / 2 ^ 32 * (y % 2 ^ 32) + x % 2 ^ 32 * (y / 2 ^ 32)) * 2 ^ 32 +
      x % 2 ^ 32 * (y % 2 ^ 32) := by
  have high := Nat.div_add_mod x (2 ^ 32)
  have low := Nat.div_add_mod y (2 ^ 32)
  calc x * y = (2 ^ 32 * (x / 2 ^ 32) + x % 2 ^ 32) * (2 ^ 32 * (y / 2 ^ 32) + y % 2 ^ 32) := by
        rw [high, low]
    _ = _ := by ring

theorem mul_lt_of_halves {x y : Nat} (smallX : x < 2 ^ 32) (smallY : y < 2 ^ 32) :
    x * y < 2 ^ 64 :=
  calc x * y < 2 ^ 32 * 2 ^ 32 := Nat.mul_lt_mul'' smallX smallY
    _ = 2 ^ 64 := by norm_num

/-! ## Long division by a digit

In base `base`, a number with one more digit below it is divided by dividing the number, then
the remainder with the digit below it. -/

theorem div_append_digit (base x digit divisor : Nat) :
    (x * base + digit) / divisor = x / divisor * base + (x % divisor * base + digit) / divisor := by
  rcases Nat.eq_zero_or_pos divisor with rfl | positive
  · simp
  · conv_lhs => rw [← Nat.div_add_mod x divisor]
    rw [Nat.add_mul, Nat.add_assoc, Nat.mul_assoc, Nat.mul_add_div positive]

theorem mod_append_digit (base x digit divisor : Nat) :
    (x * base + digit) % divisor = (x % divisor * base + digit) % divisor := by
  conv_lhs => rw [← Nat.div_add_mod x divisor]
  rw [Nat.add_mul, Nat.add_assoc, Nat.mul_assoc, Nat.mul_add_mod]

theorem div_digit_lt {base remainder digit divisor : Nat} (below : remainder < divisor)
    (small : digit < base) : (remainder * base + digit) / divisor < base := by
  apply Nat.div_lt_of_lt_mul
  calc remainder * base + digit < remainder * base + base := by omega
    _ = (remainder + 1) * base := by ring
    _ ≤ divisor * base := Nat.mul_le_mul_right base below

end WideArithmetic
