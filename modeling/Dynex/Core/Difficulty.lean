import Dynex.Core.Currency
import Dynex.Crypto.Types
import Dynex.Lib.ByteCodec
import Dynex.Common.IntUtil

/-!
# The proof-of-work target test

`DynexCNCore/Difficulty.cpp`: `check_hash` accepts a hash when the hash, read as a 256-bit
little-endian number, times the difficulty stays below `2 ^ 256`. It multiplies each of the
hash's four words by the difficulty with `mul`, looks only at the words of the product from the
fourth up, and carries between them with `cadd` and `cadc`. `mul` is the compiler's 128-bit
product where there is one (`mulInt128`) and `mul128` of `int-util.h` where there is not
(`mulPortable`). Both return the two words of the exact product (`IsWideProduct`), and the test
is exact over any such `mul` (`check_hashWith_iff`).
-/

set_option autoImplicit false

namespace Dynex

open Codec WideArithmetic

def mulInt128 (a b : UInt64) : UInt64 × UInt64 :=
  let res := a.toNat * b.toNat
  (UInt64.ofNat res, UInt64.ofNat (res >>> 64))

def mulPortable (a b : UInt64) : UInt64 × UInt64 := IntUtil.mul128 a b

def cadd (a b : UInt64) : Bool := a + b < a

def cadc (a b : UInt64) (c : Bool) : Bool := a + b < a || (c && a + b == -1)

def hashWord (hash : Crypto.Hash) (index : Nat) : UInt64 :=
  UInt64.ofNat (leValue ((hash.pod.bytes.drop (8 * index)).take 8))

/-- `check_hash(hash, difficulty)`, over the `mul` the build selects. -/
def check_hashWith (mul : UInt64 → UInt64 → UInt64 × UInt64) (hash : Crypto.Hash)
    (difficulty : UInt64) : Bool :=
  -- First check the highest word, this will most likely fail for a random hash.
  let (top, high) := mul (hashWord hash 3) difficulty
  if high != 0 then false
  else
    let (_, cur) := mul (hashWord hash 0) difficulty
    let (low, high) := mul (hashWord hash 1) difficulty
    let carry := cadd cur low
    let cur := high
    let (low, high) := mul (hashWord hash 2) difficulty
    let carry := cadc cur low carry
    let carry := cadc high top carry
    !carry

def check_hash (hash : Crypto.Hash) (difficulty : UInt64) : Bool :=
  check_hashWith mulInt128 hash difficulty

/-! ## Products of two words -/

def IsWideProduct (mul : UInt64 → UInt64 → UInt64 × UInt64) : Prop :=
  ∀ a b, (mul a b).1.toNat = a.toNat * b.toNat % 2 ^ 64 ∧
    (mul a b).2.toNat = a.toNat * b.toNat / 2 ^ 64

theorem mul128_wide : IsWideProduct mul128 := by
  intro a b
  have small : a.toNat * b.toNat / 2 ^ 64 < 2 ^ 64 := by
    apply Nat.div_lt_of_lt_mul
    exact Nat.mul_lt_mul'' a.toNat_lt b.toNat_lt
  simp only [mul128, UInt64.toNat_ofNat', Nat.mod_eq_of_lt small, and_self]

theorem mulInt128_wide : IsWideProduct mulInt128 := by
  have same : mulInt128 = mul128 := by
    funext a b
    simp only [mulInt128, mul128, Nat.shiftRight_eq_div_pow]
  rw [same]
  exact mul128_wide

theorem mulPortable_wide : IsWideProduct mulPortable := IntUtil.mul128_toNat

theorem IsWideProduct.eq {mul other : UInt64 → UInt64 → UInt64 × UInt64}
    (wide : IsWideProduct mul) (otherWide : IsWideProduct other) : mul = other := by
  funext a b
  obtain ⟨low, high⟩ := wide a b
  obtain ⟨otherLow, otherHigh⟩ := otherWide a b
  exact Prod.ext (UInt64.toNat_inj.mp (low.trans otherLow.symm))
    (UInt64.toNat_inj.mp (high.trans otherHigh.symm))

theorem mul128_eq_mul128 : IntUtil.mul128 = mul128 := mulPortable_wide.eq mul128_wide

/-! ## The hash as a number -/

def hashValue (hash : Crypto.Hash) : Nat := leValue hash.pod.bytes

theorem toNat_hashWord (hash : Crypto.Hash) (index : Nat) :
    (hashWord hash index).toNat = leValue ((hash.pod.bytes.drop (8 * index)).take 8) := by
  have short : ((hash.pod.bytes.drop (8 * index)).take 8).length ≤ 8 := List.length_take_le _ _
  have small : leValue ((hash.pod.bytes.drop (8 * index)).take 8) < 2 ^ 64 :=
    calc _ < 256 ^ ((hash.pod.bytes.drop (8 * index)).take 8).length := leValue_lt _
      _ ≤ 256 ^ 8 := Nat.pow_le_pow_right (by norm_num) short
      _ = 2 ^ 64 := by norm_num
  rw [hashWord, UInt64.toNat_ofNat', Nat.mod_eq_of_lt small]

theorem leValue_drop_hashWord (hash : Crypto.Hash) {index : Nat} (below : index < 4) :
    leValue (hash.pod.bytes.drop (8 * index)) =
      (hashWord hash index).toNat + 2 ^ 64 * leValue (hash.pod.bytes.drop (8 * index + 8)) := by
  have long : 8 ≤ (hash.pod.bytes.drop (8 * index)).length := by
    rw [List.length_drop, hash.pod.length_eq]
    omega
  rw [leValue_eq_take_add_drop _ long, toNat_hashWord, List.drop_drop]
  norm_num

theorem hashValue_eq_words (hash : Crypto.Hash) :
    hashValue hash = (hashWord hash 0).toNat + (hashWord hash 1).toNat * 2 ^ 64 +
      (hashWord hash 2).toNat * 2 ^ 128 + (hashWord hash 3).toNat * 2 ^ 192 := by
  have first := leValue_drop_hashWord hash (show 0 < 4 by omega)
  have second := leValue_drop_hashWord hash (show 1 < 4 by omega)
  have third := leValue_drop_hashWord hash (show 2 < 4 by omega)
  have fourth := leValue_drop_hashWord hash (show 3 < 4 by omega)
  have past : hash.pod.bytes.drop (8 * 3 + 8) = [] :=
    List.drop_eq_nil_of_le (by rw [hash.pod.length_eq])
  rw [past] at fourth
  norm_num at first second third fourth
  rw [hashValue, first, second, third, fourth, leValue]
  ring

/-! ## The carries -/

theorem cadd_iff (a b : UInt64) : cadd a b = true ↔ 2 ^ 64 ≤ a.toNat + b.toNat := by
  rw [cadd, decide_eq_true_iff, add_lt_left_iff]

theorem cadc_iff (a b : UInt64) (c : Bool) :
    cadc a b c = true ↔ 2 ^ 64 ≤ a.toNat + b.toNat + c.toNat :=
  carry_iff a b c

/-! ## The test is exact -/

theorem hashValue_mul (hash : Crypto.Hash) (difficulty : Nat) :
    hashValue hash * difficulty =
      (hashWord hash 0).toNat * difficulty + (hashWord hash 1).toNat * difficulty * 2 ^ 64 +
        (hashWord hash 2).toNat * difficulty * 2 ^ 128 +
        (hashWord hash 3).toNat * difficulty * 2 ^ 192 := by
  rw [hashValue_eq_words]
  ring

/-- Over any `mul` that returns the exact product, `check_hash` accepts exactly the hashes whose
product with the difficulty is below `2 ^ 256`. -/
theorem check_hashWith_iff {mul : UInt64 → UInt64 → UInt64 × UInt64} (product : IsWideProduct mul)
    (hash : Crypto.Hash) (difficulty : UInt64) :
    check_hashWith mul hash difficulty = true ↔ hashValue hash * difficulty.toNat < 2 ^ 256 := by
  obtain ⟨low0, high0⟩ := product (hashWord hash 0) difficulty
  obtain ⟨low1, high1⟩ := product (hashWord hash 1) difficulty
  obtain ⟨low2, high2⟩ := product (hashWord hash 2) difficulty
  obtain ⟨low3, high3⟩ := product (hashWord hash 3) difficulty
  rw [hashValue_mul, check_hashWith]
  generalize mul (hashWord hash 0) difficulty = word0 at low0 high0 ⊢
  generalize mul (hashWord hash 1) difficulty = word1 at low1 high1 ⊢
  generalize mul (hashWord hash 2) difficulty = word2 at low2 high2 ⊢
  generalize mul (hashWord hash 3) difficulty = word3 at low3 high3 ⊢
  generalize (hashWord hash 0).toNat * difficulty.toNat = product0 at *
  generalize (hashWord hash 1).toNat * difficulty.toNat = product1 at *
  generalize (hashWord hash 2).toNat * difficulty.toNat = product2 at *
  generalize (hashWord hash 3).toNat * difficulty.toNat = product3 at *
  obtain ⟨lo0, hi0⟩ := word0
  obtain ⟨lo1, hi1⟩ := word1
  obtain ⟨lo2, hi2⟩ := word2
  obtain ⟨top, high⟩ := word3
  dsimp only at *
  have wordHi0 := hi0.toNat_lt
  have wordHi1 := hi1.toNat_lt
  have wordHi2 := hi2.toNat_lt
  by_cases zero : high = 0
  · have small : product3 < 2 ^ 64 := by
      have none : high.toNat = 0 := by rw [zero]; rfl
      omega
    have first := cadd_iff hi0 lo1
    have second := cadc_iff hi1 lo2 (cadd hi0 lo1)
    have third := cadc_iff hi2 top (cadc hi1 lo2 (cadd hi0 lo1))
    rw [if_neg (by simp [zero])]
    generalize cadd hi0 lo1 = carry1 at first second third ⊢
    generalize cadc hi1 lo2 carry1 = carry2 at second third ⊢
    generalize cadc hi2 top carry2 = carry3 at third ⊢
    cases carry1 <;> cases carry2 <;> cases carry3 <;> simp at first second third ⊢ <;> omega
  · have large : 2 ^ 64 ≤ product3 := by
      have some : high.toNat ≠ 0 := fun none => zero (UInt64.toNat_inj.mp none)
      omega
    rw [if_pos (by simpa using zero)]
    simp only [Bool.false_eq_true, false_iff, not_lt]
    omega

/-- `check_hash` accepts a hash exactly when the hash, read as a little-endian 256-bit number,
times the difficulty is below `2 ^ 256`; so does the variant with the portable 64-bit product. -/
theorem check_hash_iff_product_lt (hash : Crypto.Hash) (difficulty : UInt64) :
    (check_hash hash difficulty = true ↔ hashValue hash * difficulty.toNat < 2 ^ 256) ∧
      (check_hashWith mulPortable hash difficulty = true ↔
        hashValue hash * difficulty.toNat < 2 ^ 256) :=
  ⟨check_hashWith_iff mulInt128_wide hash difficulty,
    check_hashWith_iff mulPortable_wide hash difficulty⟩

end Dynex
