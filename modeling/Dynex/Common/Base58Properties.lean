import Dynex.Common.Base58

/-!
# Base58 round trips

A block of `n` bytes is the number they spell big-endian, below `256 ^ n`, and its encoding is
the `encoded_block_sizes[n]` base-58 digits of that number; the table is chosen so that the
digits hold every such number. The decoder's overflow checks refuse exactly the digit strings
whose value does not fit the block. So each block is read back, and every block the decoder
accepts is the encoding of what it decodes to; the same holds of whole strings, cut into
blocks at the same places (`base58_round_trip_canonical`).
-/

set_option autoImplicit false

namespace Dynex.Tools.Base58

open FixedWidthDigits

/-! ## The tables -/

def digitOf (letter : UInt8) : Option Nat :=
  if reverse_alphabet letter < 0 then none else some (reverse_alphabet letter).toNat

theorem digitOf_alphabet : ∀ digit < 58, digitOf (alphabet.getD digit 0) = some digit := by
  decide +kernel

private theorem digitOf_table : ∀ code < 256, (digitOf code.toUInt8).all
    (fun digit => decide (digit < 58) && alphabet.getD digit 0 == code.toUInt8) = true := by
  decide +kernel

theorem alphabet_of_digitOf {letter : UInt8} {digit : Nat} (read : digitOf letter = some digit) :
    digit < 58 ∧ alphabet.getD digit 0 = letter := by
  have table := digitOf_table letter.toNat letter.toNat_lt
  rw [Nat.toUInt8_eq, UInt8.ofNat_toNat, read] at table
  simpa using table

theorem decoded_block_sizes_encoded :
    ∀ size ≤ 8, decoded_block_sizes (encoded_block_sizes.getD size 0) = size := by
  decide

theorem encoded_block_sizes_decoded :
    ∀ encoded ≤ 11, 0 ≤ decoded_block_sizes encoded →
      (decoded_block_sizes encoded).toNat ≤ 8 ∧
        encoded_block_sizes.getD (decoded_block_sizes encoded).toNat 0 = encoded := by
  decide

theorem encoded_block_sizes_lt : ∀ size < 8, encoded_block_sizes.getD size 0 < 11 := by
  decide

theorem encoded_block_sizes_le : ∀ size ≤ 8, encoded_block_sizes.getD size 0 ≤ 11 := by
  decide

theorem block_fits_digits :
    ∀ size ≤ 8, 256 ^ size ≤ 58 ^ encoded_block_sizes.getD size 0 := by
  decide

theorem encoded_block_sizes_pos :
    ∀ size ≤ 8, 0 < encoded_block_sizes.getD size 0 ↔ 0 < size := by
  decide

theorem decoded_block_sizes_short :
    ∀ encoded < 11, 0 ≤ decoded_block_sizes encoded → decoded_block_sizes encoded < 8 := by
  decide

/-! ## Numbers and bytes -/

theorem shift_or_byte (res : Nat) (byte : UInt8) : res <<< 8 ||| byte.toNat = res * 256 + byte.toNat := by
  rw [← Nat.shiftLeft_add_eq_or_of_lt byte.toNat_lt, Nat.shiftLeft_eq]

theorem uint_8be_to_64_eq (data : List UInt8) :
    uint_8be_to_64 data = Nat.ofDigits 256 (data.reverse.map UInt8.toNat) := by
  simp only [uint_8be_to_64, shift_or_byte]
  rw [← @List.foldl_map _ _ _ UInt8.toNat (fun value digit => value * 256 + digit), foldl_mul_add,
    List.map_reverse]
  simp

theorem toUInt8_eq_of_mod (number : Nat) : number.toUInt8 = (number % 256).toUInt8 := by
  apply UInt8.toNat_inj.mp
  simp [Nat.toUInt8_eq, UInt8.toNat_ofNat']

theorem uint_64_to_8be_eq (num : Nat) {size : Nat} (small : size ≤ 8) :
    uint_64_to_8be num size = (fixedDigits 256 size num).reverse.map Nat.toUInt8 := by
  apply List.ext_getElem?
  intro j
  rw [uint_64_to_8be, List.getElem?_drop, List.getElem?_map, List.getElem?_map]
  by_cases within : j < size
  · rw [List.getElem?_range (by omega), List.getElem?_reverse (by simpa using within),
      length_fixedDigits, getElem?_fixedDigits num (by omega)]
    simp only [Option.map_some, Option.some.injEq]
    rw [Nat.shiftRight_eq_div_pow, show 8 * (7 - (8 - size + j)) = 8 * (size - 1 - j) by omega,
      Nat.pow_mul, toUInt8_eq_of_mod]
  · rw [List.getElem?_eq_none (by simp; omega), List.getElem?_eq_none (by simp; omega)]
    rfl

theorem length_uint_64_to_8be (num : Nat) {size : Nat} (small : size ≤ 8) :
    (uint_64_to_8be num size).length = size := by
  simp only [uint_64_to_8be, List.length_drop, List.length_map, List.length_range]
  omega

theorem lt_of_mem_map_toNat {bytes : List UInt8} {digit : Nat}
    (member : digit ∈ bytes.map UInt8.toNat) : digit < 256 := by
  obtain ⟨byte, _, rfl⟩ := List.mem_map.mp member
  exact byte.toNat_lt

theorem uint_8be_to_64_lt (block : List UInt8) : uint_8be_to_64 block < 256 ^ block.length := by
  have below := Nat.ofDigits_lt_base_pow_length (by decide)
    fun _ member => @lt_of_mem_map_toNat block.reverse _ member
  rw [List.length_map, List.length_reverse] at below
  rwa [uint_8be_to_64_eq]

theorem uint_64_to_8be_uint_8be_to_64 {block : List UInt8} (short : block.length ≤ 8) :
    uint_64_to_8be (uint_8be_to_64 block) block.length = block := by
  have digits := fixedDigits_ofDigits (block.reverse.map UInt8.toNat)
    fun _ member => lt_of_mem_map_toNat member
  rw [List.length_map, List.length_reverse] at digits
  rw [uint_64_to_8be_eq _ short, uint_8be_to_64_eq, digits, ← List.map_reverse,
    List.reverse_reverse, List.map_map]
  conv_rhs => rw [← List.map_id block]
  apply List.map_congr_left
  intro byte _
  simp [Nat.toUInt8_eq]

theorem uint_8be_to_64_uint_64_to_8be {num size : Nat} (small : size ≤ 8)
    (fits : num < 256 ^ size) : uint_8be_to_64 (uint_64_to_8be num size) = num := by
  have bytes : ∀ digit ∈ fixedDigits 256 size num, (UInt8.toNat ∘ Nat.toUInt8) digit = id digit := by
    intro digit member
    have below := lt_of_mem_fixedDigits (by decide) member
    simp [Nat.toUInt8_eq, UInt8.toNat_ofNat', Nat.mod_eq_of_lt below]
  rw [uint_8be_to_64_eq, uint_64_to_8be_eq _ small, ← List.map_reverse, List.reverse_reverse,
    List.map_map, List.map_congr_left bytes, List.map_id, ofDigits_fixedDigits,
    Nat.mod_eq_of_lt fits]

/-! ## Blocks -/

def lettersOf (digits : List Nat) : List UInt8 := digits.map fun digit => alphabet.getD digit 0

theorem set_last_place (places : Nat) (filler letter : UInt8) (done : List UInt8) :
    (List.replicate (places + 1) filler ++ done).set places letter =
      List.replicate places filler ++ letter :: done := by
  rw [List.replicate_succ', List.append_assoc, List.set_append_right _ _ (by simp),
    List.length_replicate, Nat.sub_self]
  rfl

theorem encodeBlockLoop_eq :
    ∀ (places num : Nat) (done : List UInt8),
      encodeBlockLoop places num ((places : Int) - 1)
          (List.replicate places (alphabet.getD 0 0) ++ done) =
        lettersOf (fixedDigits 58 places num).reverse ++ done
  | 0, _, done => by simp [encodeBlockLoop, fixedDigits, lettersOf]
  | places + 1, num, done => by
      by_cases positive : 0 < num
      · have index : (((places + 1 : Nat) : Int) - 1).toNat = places := by omega
        have next : ((places + 1 : Nat) : Int) - 1 - 1 = (places : Int) - 1 := by omega
        rw [encodeBlockLoop, if_pos positive, index, next, set_last_place,
          encodeBlockLoop_eq places (num / alphabet_size)]
        simp [fixedDigits, lettersOf, alphabet_size]
      · obtain rfl : num = 0 := by omega
        rw [encodeBlockLoop, if_neg positive, fixedDigits_zero]
        simp [lettersOf]

theorem encode_block_eq (block : List UInt8) :
    encode_block block =
      lettersOf (fixedDigits 58 (encoded_block_sizes.getD block.length 0)
        (uint_8be_to_64 block)).reverse := by
  have placed := encodeBlockLoop_eq (encoded_block_sizes.getD block.length 0)
    (uint_8be_to_64 block) []
  rw [List.append_nil, List.append_nil] at placed
  exact placed

theorem mapM_lettersOf :
    ∀ (digits : List Nat), (∀ digit ∈ digits, digit < 58) →
      (lettersOf digits).mapM digitOf = some digits
  | [], _ => rfl
  | digit :: digits, small =>
      mapM_cons_eq_some.mpr ⟨digit, digits, digitOf_alphabet digit (small digit List.mem_cons_self),
        mapM_lettersOf digits fun other member => small other (List.mem_cons_of_mem _ member), rfl⟩

theorem lettersOf_of_mapM :
    ∀ {letters : List UInt8} {digits : List Nat}, letters.mapM digitOf = some digits →
      lettersOf digits = letters ∧ ∀ digit ∈ digits, digit < 58
  | [], digits, read => by
      cases read
      exact ⟨rfl, by simp⟩
  | letter :: later, _, read => by
      obtain ⟨digit, laterDigits, own, rest, rfl⟩ := mapM_cons_eq_some.mp read
      obtain ⟨small, letterIs⟩ := alphabet_of_digitOf own
      obtain ⟨lettersIs, smalls⟩ := lettersOf_of_mapM rest
      refine ⟨?_, List.forall_mem_cons.mpr ⟨small, smalls⟩⟩
      show alphabet.getD digit 0 :: lettersOf laterDigits = letter :: later
      rw [letterIs, lettersIs]

/-- One round of the decoder's loop at the `k`-th letter from the right, where `order` is
`58 ^ k`: it goes on exactly when the digit's share, added to `res_num`, fits in 64 bits, and
then holds that sum. -/
theorem decode_round {k : Nat} (near : k ≤ 10) {order : UInt64}
    (ordered : order.toNat = 58 ^ k % 2 ^ 64) (res : UInt64) {digit : Nat} (small : digit < 58) :
    (¬(res + (IntUtil.mul128 order digit.toUInt64).1 < res ∨
        (IntUtil.mul128 order digit.toUInt64).2 ≠ 0) ↔
      res.toNat + 58 ^ k * digit < 2 ^ 64) ∧
    (res.toNat + 58 ^ k * digit < 2 ^ 64 →
      (res + (IntUtil.mul128 order digit.toUInt64).1).toNat = res.toNat + 58 ^ k * digit) := by
  have orderFits : 58 ^ k < 2 ^ 64 :=
    lt_of_le_of_lt (Nat.pow_le_pow_right (by decide) near) (by decide)
  have orderValue : order.toNat = 58 ^ k := by rw [ordered, Nat.mod_eq_of_lt orderFits]
  have digitValue : digit.toUInt64.toNat = digit := Tools.toUInt64_toNat (by omega)
  obtain ⟨low, high⟩ := IntUtil.mul128_toNat order digit.toUInt64
  rw [orderValue, digitValue] at low high
  have sum := UInt64.toNat_add res (IntUtil.mul128 order digit.toUInt64).1
  have carry := WideArithmetic.add_lt_left_iff res (IntUtil.mul128 order digit.toUInt64).1
  have highZero : (IntUtil.mul128 order digit.toUInt64).2 = 0 ↔ 58 ^ k * digit < 2 ^ 64 := by
    rw [← UInt64.toNat_inj, high, UInt64.toNat_zero, Nat.div_eq_zero_iff_lt (by decide)]
  constructor
  · rw [not_or, not_not, highZero, carry, low]
    constructor
    · rintro ⟨fits, productFits⟩
      rw [Nat.mod_eq_of_lt productFits] at fits
      omega
    · intro fits
      have productFits : 58 ^ k * digit < 2 ^ 64 := by omega
      rw [Nat.mod_eq_of_lt productFits]
      omega
  · intro fits
    have productFits : 58 ^ k * digit < 2 ^ 64 := by omega
    rw [sum, low, Nat.mod_eq_of_lt productFits, Nat.mod_eq_of_lt fits]

theorem digitOf_eq_some {letter : UInt8} {digit : Nat} :
    digitOf letter = some digit ↔
      ¬reverse_alphabet letter < 0 ∧ (reverse_alphabet letter).toNat = digit := by
  unfold digitOf
  split <;> simp_all

/-- Letters whose digits' value, added to what the loop holds at the `k`-th letter from the
right, fits in 64 bits are accepted with that sum. -/
theorem decodeBlockLoop_of_digits :
    ∀ (letters : List UInt8) (digits : List Nat) (k : Nat) (res order : UInt64),
      letters.mapM digitOf = some digits → k + letters.length ≤ 11 →
      order.toNat = 58 ^ k % 2 ^ 64 → res.toNat + 58 ^ k * Nat.ofDigits 58 digits < 2 ^ 64 →
        decodeBlockLoop letters res order =
          some (res.toNat + 58 ^ k * Nat.ofDigits 58 digits).toUInt64
  | [], digits, _, res, _, read, _, _, _ => by
      cases read
      simp [decodeBlockLoop]
  | letter :: later, digits, k, res, order, read, short, ordered, fits => by
      obtain ⟨digit, laterDigits, own, rest, rfl⟩ := mapM_cons_eq_some.mp read
      obtain ⟨valid, value⟩ := digitOf_eq_some.mp own
      have small := (alphabet_of_digitOf own).1
      have near : k ≤ 10 := by simp at short; omega
      obtain ⟨goesOn, sum⟩ := decode_round near ordered res small
      have share : res.toNat + 58 ^ k * digit < 2 ^ 64 := by
        rw [Nat.ofDigits_cons] at fits
        have : 58 ^ k * digit ≤ 58 ^ k * (digit + 58 * Nat.ofDigits 58 laterDigits) :=
          Nat.mul_le_mul_left _ (by omega)
        omega
      have nextOrder : (order * alphabet_size.toUInt64).toNat = 58 ^ (k + 1) % 2 ^ 64 := by
        rw [UInt64.toNat_mul, ordered, Nat.pow_succ, Nat.mul_mod, Nat.mod_mod, ← Nat.mul_mod]
        rfl
      have total : (res + (IntUtil.mul128 order digit.toUInt64).1).toNat +
          58 ^ (k + 1) * Nat.ofDigits 58 laterDigits =
            res.toNat + 58 ^ k * Nat.ofDigits 58 (digit :: laterDigits) := by
        rw [sum share, Nat.ofDigits_cons, Nat.pow_succ]
        ring
      rw [decodeBlockLoop]
      simp only [valid, if_false, value]
      rw [if_neg (goesOn.mpr share), decodeBlockLoop_of_digits later laterDigits (k + 1) _ _ rest
        (by simp at short; omega) nextOrder (by rw [total]; exact fits), total]

/-- What the decoder's loop accepts are letters of the alphabet, and it returns their digits'
value added to what it held. -/
theorem digits_of_decodeBlockLoop :
    ∀ (letters : List UInt8) (k : Nat) (res order value : UInt64),
      decodeBlockLoop letters res order = some value → k + letters.length ≤ 11 →
      order.toNat = 58 ^ k % 2 ^ 64 →
        ∃ digits, letters.mapM digitOf = some digits ∧
          value.toNat = res.toNat + 58 ^ k * Nat.ofDigits 58 digits
  | [], _, res, _, value, accepted, _, _ => by
      cases accepted
      exact ⟨[], rfl, by simp⟩
  | letter :: later, k, res, order, value, accepted, short, ordered => by
      have near : k ≤ 10 := by simp at short; omega
      rw [decodeBlockLoop] at accepted
      by_cases invalid : reverse_alphabet letter < 0
      · simp only [invalid, if_true] at accepted
        cases accepted
      simp only [invalid, if_false] at accepted
      have own : digitOf letter = some (reverse_alphabet letter).toNat :=
        digitOf_eq_some.mpr ⟨invalid, rfl⟩
      have small := (alphabet_of_digitOf own).1
      obtain ⟨goesOn, sum⟩ := decode_round near ordered res small
      by_cases stopped : res + (IntUtil.mul128 order (reverse_alphabet letter).toNat.toUInt64).1 < res ∨
          (IntUtil.mul128 order (reverse_alphabet letter).toNat.toUInt64).2 ≠ 0
      · rw [if_pos stopped] at accepted
        cases accepted
      rw [if_neg stopped] at accepted
      have share := goesOn.mp stopped
      have nextOrder : (order * alphabet_size.toUInt64).toNat = 58 ^ (k + 1) % 2 ^ 64 := by
        rw [UInt64.toNat_mul, ordered, Nat.pow_succ, Nat.mul_mod, Nat.mod_mod, ← Nat.mul_mod]
        rfl
      obtain ⟨laterDigits, rest, later⟩ := digits_of_decodeBlockLoop later (k + 1) _ _ value
        accepted (by simp at short; omega) nextOrder
      refine ⟨(reverse_alphabet letter).toNat :: laterDigits,
        mapM_cons_eq_some.mpr ⟨_, _, own, rest, rfl⟩, ?_⟩
      rw [later, sum share, Nat.ofDigits_cons, Nat.pow_succ]
      ring

/-- What `decode_block` accepts: letters whose count has a positive decoded size, which the loop
reads as a number that fits a block of that size; it returns the number's bytes. -/
theorem decode_block_eq_some {letters bytes : List UInt8} :
    decode_block letters = some bytes ↔
      ∃ (size : Nat) (num : UInt64), decoded_block_sizes letters.length = size ∧ 0 < size ∧
        decodeBlockLoop letters.reverse 0 1 = some num ∧
        ¬(size < full_block_size ∧ 2 ^ (8 * size) ≤ num.toNat) ∧
        bytes = uint_64_to_8be num.toNat size := by
  unfold decode_block
  by_cases empty : decoded_block_sizes letters.length ≤ 0
  · rw [if_pos empty]
    simp only [reduceCtorEq, false_iff, not_exists, not_and]
    intro size _ sizeIs positive
    omega
  obtain ⟨size, sizeIs⟩ : ∃ size : Nat, decoded_block_sizes letters.length = size :=
    ⟨_, (Int.toNat_of_nonneg (by omega)).symm⟩
  rw [if_neg empty, sizeIs, Int.toNat_natCast]
  cases loop : decodeBlockLoop letters.reverse 0 1 with
  | none => simp
  | some num =>
      by_cases tooBig : size < full_block_size ∧ 2 ^ (8 * size) ≤ num.toNat
      · simp only [if_pos tooBig, reduceCtorEq, false_iff, not_exists]
        rintro _ _ ⟨same, _, found, notTooBig, _⟩
        cases found
        cases Int.ofNat_inj.mp same
        exact notTooBig tooBig
      · simp only [if_neg tooBig, Option.some.injEq]
        constructor
        · rintro rfl
          exact ⟨size, num, rfl, by omega, rfl, tooBig, rfl⟩
        · rintro ⟨_, _, same, _, found, _, rfl⟩
          cases found
          cases Int.ofNat_inj.mp same
          rfl

theorem two_pow_bytes (size : Nat) : 2 ^ (8 * size) = 256 ^ size := by
  rw [Nat.pow_mul]

theorem length_encode_block (block : List UInt8) :
    (encode_block block).length = encoded_block_sizes.getD block.length 0 := by
  simp [encode_block_eq, lettersOf]

/-- A block of one to eight bytes is read back from its letters. -/
theorem decode_block_encode_block {block : List UInt8} (nonempty : block ≠ [])
    (short : block.length ≤ 8) : decode_block (encode_block block) = some block := by
  set digits := fixedDigits 58 (encoded_block_sizes.getD block.length 0) (uint_8be_to_64 block)
    with digitsIs
  have fits : uint_8be_to_64 block < 58 ^ encoded_block_sizes.getD block.length 0 :=
    lt_of_lt_of_le (uint_8be_to_64_lt block) (block_fits_digits _ short)
  have wordFits : uint_8be_to_64 block < 2 ^ 64 :=
    calc uint_8be_to_64 block < 256 ^ block.length := uint_8be_to_64_lt block
      _ ≤ 256 ^ 8 := Nat.pow_le_pow_right (by decide) short
      _ = 2 ^ 64 := by norm_num
  have value : Nat.ofDigits 58 digits = uint_8be_to_64 block := by
    rw [digitsIs, ofDigits_fixedDigits, Nat.mod_eq_of_lt fits]
  have small : ∀ digit ∈ digits, digit < 58 := fun _ member =>
    lt_of_mem_fixedDigits (by decide) member
  have loop : decodeBlockLoop (encode_block block).reverse 0 1 =
      some (uint_8be_to_64 block).toUInt64 := by
    have accepted := decodeBlockLoop_of_digits (lettersOf digits) digits 0 0 1
      (mapM_lettersOf digits small)
      (by simpa [lettersOf, digits] using encoded_block_sizes_le _ short) rfl
      (by simpa [value] using wordFits)
    simp only [UInt64.toNat_zero, pow_zero, one_mul, zero_add, value] at accepted
    have letters : (encode_block block).reverse = lettersOf digits := by
      rw [encode_block_eq, lettersOf, lettersOf, ← List.map_reverse, List.reverse_reverse]
    rw [letters, accepted]
  have number : (uint_8be_to_64 block).toUInt64.toNat = uint_8be_to_64 block :=
    toUInt64_toNat wordFits
  refine decode_block_eq_some.mpr ⟨block.length, _, ?_, List.length_pos_of_ne_nil nonempty, loop,
    ?_, ?_⟩
  · rw [length_encode_block]
    exact decoded_block_sizes_encoded _ short
  · rw [number, two_pow_bytes]
    exact fun ⟨_, tooBig⟩ => absurd (uint_8be_to_64_lt block) (Nat.not_lt.mpr tooBig)
  · rw [number, uint_64_to_8be_uint_8be_to_64 short]

theorem encode_block_decode_block {letters bytes : List UInt8} (short : letters.length ≤ 11)
    (decoded : decode_block letters = some bytes) :
    encode_block bytes = letters ∧ (bytes.length : Int) = decoded_block_sizes letters.length := by
  obtain ⟨size, num, sizeIs, positive, loop, fits, rfl⟩ := decode_block_eq_some.mp decoded
  obtain ⟨within, placesIs⟩ := encoded_block_sizes_decoded _ short (by omega)
  rw [sizeIs, Int.toNat_natCast] at within placesIs
  obtain ⟨digits, read, value⟩ := digits_of_decodeBlockLoop letters.reverse 0 0 1 num loop
    (by simpa using short) rfl
  rw [UInt64.toNat_zero, pow_zero, one_mul, zero_add] at value
  obtain ⟨lettersIs, small⟩ := lettersOf_of_mapM read
  have numFits : num.toNat < 256 ^ size := by
    by_cases full : size < full_block_size
    · rw [← two_pow_bytes]
      exact Nat.lt_of_not_le fun tooBig => fits ⟨full, tooBig⟩
    · obtain rfl : size = 8 := by simp only [full_block_size] at full; omega
      exact num.toNat_lt
  have length : (uint_64_to_8be num.toNat size).length = size := length_uint_64_to_8be _ within
  have sameLength : digits.length = letters.length := by
    rw [← @List.length_reverse _ letters, ← lettersIs, lettersOf, List.length_map]
  refine ⟨?_, by rw [length, sizeIs]⟩
  rw [encode_block_eq, length, placesIs, uint_8be_to_64_uint_64_to_8be within numFits, value,
    ← sameLength, fixedDigits_ofDigits digits small, lettersOf, List.map_reverse]
  rw [lettersOf] at lettersIs
  rw [lettersIs, List.reverse_reverse]

/-! ## Strings -/

theorem encode_eq (data : List UInt8) :
    encode data = ((blocks 8 (data.length / 8) data).map encode_block).flatten ++
      encode_block (data.drop (data.length / 8 * 8)) := by
  unfold encode
  by_cases empty : data = []
  · subst empty
    rfl
  simp only [if_neg empty, List.flatMap_def]
  by_cases hasRest : 0 < data.length % full_block_size
  · rw [if_pos hasRest]
    rfl
  · have rest : data.drop (data.length / 8 * 8) = [] := by
      rw [← List.length_eq_zero_iff, List.length_drop]
      simp only [full_block_size] at hasRest
      omega
    rw [if_neg hasRest, rest]
    rfl

theorem decode_eq (enc : List UInt8) :
    decode enc =
      (if decoded_block_sizes (enc.length % 11) < 0 then none
      else do
        let full ← (blocks 11 (enc.length / 11) enc).mapM decode_block
        let last ← (if 0 < enc.length % 11 then decode_block (enc.drop (enc.length / 11 * 11))
          else some [] : Option (List UInt8))
        pure (full.flatten ++ last)) := by
  unfold decode
  by_cases empty : enc = []
  · subst empty
    rfl
  · rw [if_neg empty]
    rfl

theorem decode_eq_some {enc data : List UInt8} :
    decode enc = some data ↔
      ∃ full last, 0 ≤ decoded_block_sizes (enc.length % 11) ∧
        (blocks 11 (enc.length / 11) enc).mapM decode_block = some full ∧
        (if 0 < enc.length % 11 then decode_block (enc.drop (enc.length / 11 * 11))
          else some []) = some last ∧
        data = full.flatten ++ last := by
  rw [decode_eq]
  by_cases invalid : decoded_block_sizes (enc.length % 11) < 0
  · simp only [if_pos invalid, reduceCtorEq, false_iff, not_exists, not_and]
    intro _ _ valid
    omega
  simp only [if_neg invalid, Option.bind_eq_bind, Option.bind_eq_some_iff, Option.pure_def,
    Option.some.injEq]
  constructor
  · rintro ⟨full, fullRead, last, lastRead, rfl⟩
    exact ⟨full, last, by omega, fullRead, lastRead, rfl⟩
  · rintro ⟨full, last, _, fullRead, lastRead, rfl⟩
    exact ⟨full, fullRead, last, lastRead, rfl⟩

theorem length_encode (data : List UInt8) :
    (encode data).length =
      11 * (data.length / 8) + encoded_block_sizes.getD (data.length % 8) 0 := by
  have enough : data.length / 8 * 8 ≤ data.length := Nat.div_mul_le_self _ _
  have sized : ∀ piece ∈ (blocks 8 (data.length / 8) data).map encode_block, piece.length = 11 := by
    intro piece member
    obtain ⟨block, within, rfl⟩ := List.mem_map.mp member
    rw [length_encode_block, length_of_mem_blocks 8 enough within]
    rfl
  have rest : data.length - data.length / 8 * 8 = data.length % 8 := by omega
  rw [encode_eq, List.length_append, length_flatten_of_sized 11 sized, length_encode_block,
    List.length_drop, rest, List.length_map, length_blocks, Nat.mul_comm (data.length / 8) 11]

/-- Every byte string is read back from its encoding. -/
theorem decode_encode (data : List UInt8) : decode (encode data) = some data := by
  set count := data.length / 8
  set rest := data.drop (count * 8) with restIs
  have enough : count * 8 ≤ data.length := Nat.div_mul_le_self _ _
  have restLength : rest.length = data.length % 8 := by
    rw [restIs, List.length_drop]
    omega
  have restShort : rest.length < 8 := by
    rw [restLength]
    exact Nat.mod_lt _ (by decide)
  have sized : ∀ piece ∈ (blocks 8 count data).map encode_block, piece.length = 11 := by
    intro piece member
    obtain ⟨block, within, rfl⟩ := List.mem_map.mp member
    rw [length_encode_block, length_of_mem_blocks 8 enough within]
    rfl
  have lastShort : (encode_block rest).length < 11 := by
    rw [length_encode_block]
    exact encoded_block_sizes_lt _ restShort
  have cut := blocks_flatten 11 ((blocks 8 count data).map encode_block) (encode_block rest) sized
  rw [List.length_map, length_blocks] at cut
  have encLength : (encode data).length = 11 * count + (encode_block rest).length := by
    rw [length_encode, length_encode_block, restLength]
  have countIs : (encode data).length / 11 = count := by omega
  have lastIs : (encode data).length % 11 = (encode_block rest).length := by omega
  have encIs : encode data = ((blocks 8 count data).map encode_block).flatten ++ encode_block rest :=
    encode_eq data
  refine decode_eq_some.mpr ⟨blocks 8 count data, rest, ?_, ?_, ?_, (flatten_blocks 8 count data enough).symm⟩
  · rw [lastIs, length_encode_block, decoded_block_sizes_encoded _ (by omega)]
    omega
  · have each : ∀ block ∈ blocks 8 count data, (decode_block ∘ encode_block) block = some (id block) :=
      fun block within =>
        have sized := length_of_mem_blocks 8 enough within
        decode_block_encode_block (List.ne_nil_of_length_pos (by omega)) (by omega)
    rw [countIs, encIs, cut.1, List.mapM_map, mapM_eq_some_map _ each, List.map_id]
  · rw [lastIs, countIs, encIs, cut.2]
    by_cases hasRest : 0 < (encode_block rest).length
    · have restPositive : 0 < rest.length := by
        rw [length_encode_block] at hasRest
        exact (encoded_block_sizes_pos _ (by omega)).mp hasRest
      rw [if_pos hasRest, decode_block_encode_block (List.ne_nil_of_length_pos restPositive) (by omega)]
    · have restEmpty : rest = [] := by
        rw [length_encode_block] at hasRest
        have := (encoded_block_sizes_pos rest.length (by omega)).not.mp hasRest
        exact List.eq_nil_of_length_eq_zero (by omega)
      rw [if_neg hasRest, restEmpty]

/-- Every string the decoder accepts is the encoding of what it decodes to. -/
theorem encode_decode {enc data : List UInt8} (decoded : decode enc = some data) :
    encode data = enc := by
  obtain ⟨full, last, valid, fullRead, lastRead, rfl⟩ := decode_eq_some.mp decoded
  set count := enc.length / 11
  set rest := enc.drop (count * 11) with restIs
  have enough : count * 11 ≤ enc.length := Nat.div_mul_le_self _ _
  have restLength : rest.length = enc.length % 11 := by
    rw [restIs, List.length_drop]
    omega
  obtain ⟨fullEncoded, fullSized⟩ := @map_of_mapM_eq_some _ _ _ encode_block
    (fun result => result.length = 8) _ _
    (fun piece member result read => by
      have pieceLength := length_of_mem_blocks 11 enough member
      obtain ⟨encoded, resultLength⟩ := encode_block_decode_block (by omega) read
      rw [pieceLength, (by decide : decoded_block_sizes 11 = 8)] at resultLength
      exact ⟨encoded, by omega⟩)
    fullRead
  have lastFacts : encode_block last = rest ∧ last.length < 8 := by
    by_cases hasRest : 0 < enc.length % 11
    · rw [if_pos hasRest] at lastRead
      obtain ⟨encoded, lastLength⟩ := encode_block_decode_block (by omega) lastRead
      have short := decoded_block_sizes_short _ (Nat.mod_lt _ (by decide)) valid
      rw [restLength] at lastLength
      exact ⟨encoded, by omega⟩
    · rw [if_neg hasRest] at lastRead
      cases lastRead
      have restEmpty : rest = [] := List.eq_nil_of_length_eq_zero (by omega)
      exact ⟨by rw [restEmpty]; rfl, by decide⟩
  have dataCount : (full.flatten ++ last).length / 8 = full.length := by
    rw [List.length_append, length_flatten_of_sized 8 fullSized]
    omega
  have cut := blocks_flatten 8 full last fullSized
  rw [encode_eq, dataCount, cut.1, cut.2, fullEncoded, lastFacts.1]
  exact flatten_blocks 11 count enc enough

/-- Base58 is a bijection from byte strings onto the strings the decoder accepts: every byte
string is read back from its encoding, which has eleven letters a full block and the table's
number for the rest, and every string the decoder accepts is the encoding of what it reads. -/
theorem base58_round_trip_canonical :
    (∀ data : List UInt8, decode (encode data) = some data ∧
      (encode data).length =
        11 * (data.length / 8) + encoded_block_sizes.getD (data.length % 8) 0) ∧
    (∀ enc data : List UInt8, decode enc = some data → encode data = enc) :=
  ⟨fun data => ⟨decode_encode data, length_encode data⟩, fun _ _ decoded => encode_decode decoded⟩

/-! ## Addresses -/

section Addresses

variable (hash : List UInt8 → Crypto.Hash)

theorem length_checksum (payload : List UInt8) :
    ((hash payload).pod.bytes.take addr_checksum_size).length = addr_checksum_size := by
  rw [List.length_take, (hash payload).pod.length_eq]
  rfl

/-- What `decode_addr` accepts: a string that decodes to a nonempty payload followed by the
payload's checksum, where the varint reader reads a positive count of the payload's bytes; it
returns the varint's value and the bytes after them. -/
theorem decode_addr_eq_some {addr : List UInt8} {tag : UInt64} {data : List UInt8} :
    decode_addr hash addr = some (tag, data) ↔
      ∃ payload, payload ≠ [] ∧
        decode addr = some (payload ++ (hash payload).pod.bytes.take addr_checksum_size) ∧
        0 < (read_varint 64 payload).1 ∧ tag = (read_varint 64 payload).2.toUInt64 ∧
        data = payload.drop (read_varint 64 payload).1.toNat := by
  unfold decode_addr
  simp only [Option.bind_eq_bind, Option.bind_eq_some_iff]
  constructor
  · rintro ⟨addr_data, decoded, accepted⟩
    by_cases short : addr_data.length ≤ addr_checksum_size
    · simp only [if_pos short, reduceCtorEq] at accepted
    simp only [if_neg short] at accepted
    set payload := addr_data.take (addr_data.length - addr_checksum_size)
    by_cases mismatch : (hash payload).pod.bytes.take addr_checksum_size ≠
        addr_data.drop (addr_data.length - addr_checksum_size)
    · simp only [if_pos mismatch, reduceCtorEq] at accepted
    simp only [if_neg mismatch] at accepted
    by_cases empty : (read_varint 64 payload).1 ≤ 0
    · simp only [if_pos empty, reduceCtorEq] at accepted
    simp only [if_neg empty, Option.some.injEq, Prod.mk.injEq] at accepted
    refine ⟨payload, ?_, ?_, by omega, accepted.1.symm, accepted.2.symm⟩
    · rw [← List.length_pos_iff, List.length_take]
      omega
    · rw [decoded, not_not.mp mismatch, List.take_append_drop]
  · rintro ⟨payload, nonempty, decoded, positive, rfl, rfl⟩
    refine ⟨_, decoded, ?_⟩
    have length : (payload ++ (hash payload).pod.bytes.take addr_checksum_size).length -
        addr_checksum_size = payload.length := by
      rw [List.length_append, length_checksum]
      omega
    have long : ¬(payload ++ (hash payload).pod.bytes.take addr_checksum_size).length ≤
        addr_checksum_size := by
      have := List.length_pos_of_ne_nil nonempty
      rw [List.length_append, length_checksum]
      omega
    simp only [if_neg long, length, List.take_left' rfl, List.drop_left' rfl, ne_eq,
      not_true_eq_false, if_false, if_neg (Int.not_le.mpr positive)]

theorem decode_addr_encode_addr (tag : UInt64) (data : List UInt8) :
    decode_addr hash (encode_addr hash tag data) = some (tag, data) := by
  have read : read_varint 64 (write_varint tag.toNat ++ data) =
      (((write_varint tag.toNat).length : Int), tag.toNat) :=
    read_varint_write_varint (Nat.le_refl 64) tag.toNat_lt data
  have written := List.length_pos_of_ne_nil (write_varint_ne_nil tag.toNat)
  refine (decode_addr_eq_some hash).mpr ⟨write_varint tag.toNat ++ data, ?_, decode_encode _, ?_, ?_, ?_⟩
  · exact List.append_ne_nil_of_left_ne_nil (write_varint_ne_nil tag.toNat) data
  · rw [read]
    exact Int.natCast_pos.mpr written
  · rw [read, Nat.toUInt64_eq, UInt64.ofNat_toNat]
  · rw [read, Int.toNat_natCast, List.drop_left]

theorem encode_addr_of_decode_addr {addr : List UInt8} {tag : UInt64} {data : List UInt8}
    (accepted : decode_addr hash addr = some (tag, data)) :
    encode_addr hash tag data = addr ∨
      (data = [] ∧ ∃ payload, payload ≠ [] ∧ (∀ byte ∈ payload, 128 ≤ byte.toNat) ∧
        addr = encode (payload ++ (hash payload).pod.bytes.take addr_checksum_size)) := by
  obtain ⟨payload, nonempty, decoded, positive, rfl, rfl⟩ := (decode_addr_eq_some hash).mp accepted
  have read : read_varint 64 payload =
      ((read_varint 64 payload).1, (read_varint 64 payload).2) := rfl
  rcases read_varint_accepts (Nat.le_refl 64) read positive with ⟨fits, canonical⟩ | ⟨all, continued⟩
  · left
    have payloadIs : write_varint (read_varint 64 payload).2.toUInt64.toNat ++
        payload.drop (read_varint 64 payload).1.toNat = payload := by
      rw [toUInt64_toNat fits, ← canonical, List.take_append_drop]
    rw [encode_addr, payloadIs]
    exact encode_decode decoded
  · right
    refine ⟨?_, payload, nonempty, continued, (encode_decode decoded).symm⟩
    rw [all, Int.toNat_natCast, List.drop_length]

/-- Addresses are read back with their tag and data, and whatever `decode_addr` accepts is the
address of what it returns, except a payload of continuation bytes only, from which it returns
no data. -/
theorem decode_addr_round_trip_or_cut_varint :
    (∀ tag data, decode_addr hash (encode_addr hash tag data) = some (tag, data)) ∧
    (∀ addr tag data, decode_addr hash addr = some (tag, data) →
      encode_addr hash tag data = addr ∨
        (data = [] ∧ ∃ payload, payload ≠ [] ∧ (∀ byte ∈ payload, 128 ≤ byte.toNat) ∧
          addr = encode (payload ++ (hash payload).pod.bytes.take addr_checksum_size))) :=
  ⟨decode_addr_encode_addr hash, fun _ _ _ accepted => encode_addr_of_decode_addr hash accepted⟩

theorem decode_addr_cut_varint :
    decode_addr hash (encode ([0x80] ++ (hash [0x80]).pod.bytes.take addr_checksum_size)) =
        some (0, []) ∧
      encode_addr hash 0 [] ≠ encode ([0x80] ++ (hash [0x80]).pod.bytes.take addr_checksum_size) := by
  constructor
  · exact (decode_addr_eq_some hash).mpr
      ⟨[0x80], List.cons_ne_nil _ _, decode_encode _, by decide, by decide, by decide⟩
  · intro same
    have decoded := congrArg decode same
    simp only [encode_addr, decode_encode, Option.some.injEq] at decoded
    have heads := congrArg List.head? decoded
    rw [show write_varint (UInt64.toNat 0) = [0] from rfl] at heads
    simp at heads

end Addresses

/-- With the hash that is `NULL_HASH` for every input, the lone byte `0x80` and four zero bytes
of checksum make an address accepted with tag `0` and no data, which is not that address. -/
theorem cut_varint_address_accepted :
    decode_addr (fun _ => Crypto.NULL_HASH)
        (encode ([0x80] ++ Crypto.NULL_HASH.pod.bytes.take addr_checksum_size)) = some (0, []) ∧
      encode_addr (fun _ => Crypto.NULL_HASH) 0 [] ≠
        encode ([0x80] ++ Crypto.NULL_HASH.pod.bytes.take addr_checksum_size) :=
  decode_addr_cut_varint fun _ => Crypto.NULL_HASH

end Dynex.Tools.Base58
