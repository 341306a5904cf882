import Dynex.Common.Base64

/-!
# Base64 decodes the standard encoding; the encoder only writes it for ASCII data

`base64Decode` inverts the standard Base64 encoding (`standardLetters` with its `=` padding) of
every byte string. `encode` writes exactly that encoding, of length `4 * ceil(n / 3)`, when every
byte is below 128, and reads past `encodingTable` as soon as one byte is not: the signed `char`
is widened to a number just below `2 ^ 64`, and each of its shifts is far past the 64 letters.

The letters are computed on six-bit indices; the masks and shifts of the source are turned into
divisions and remainders once (`index1_eq`, `index2_eq`), and `decodeQuad_group` is the
arithmetic of one group in both directions.
-/

set_option autoImplicit false

namespace Dynex

open Tools.Base64 Common

/-! ## The standard encoding -/

def letterAt (index : Nat) : UInt8 := base64Letters.getD index 0

/-- The standard Base64 letters of a byte string, bytes read unsigned, without padding: four
letters per three bytes, two for a last single byte and three for a last pair. -/
def standardLetters : List UInt8 → List UInt8
  | [] => []
  | [x] => [letterAt (x.toNat / 4), letterAt (x.toNat % 4 * 16)]
  | [x, y] =>
      [letterAt (x.toNat / 4), letterAt (x.toNat % 4 * 16 + y.toNat / 16),
        letterAt (y.toNat % 16 * 4)]
  | x :: y :: z :: rest =>
      letterAt (x.toNat / 4) :: letterAt (x.toNat % 4 * 16 + y.toNat / 16) ::
        letterAt (y.toNat % 16 * 4 + z.toNat / 64) :: letterAt (z.toNat % 64) :: standardLetters rest

def paddingCount (length : Nat) : Nat := (3 - length % 3) % 3

theorem length_standardLetters (data : List UInt8) :
    (standardLetters data).length + paddingCount data.length = 4 * ((data.length + 2) / 3) := by
  induction data using standardLetters.induct with
  | case1 => rfl
  | case2 => simp [standardLetters, paddingCount]
  | case3 => simp [standardLetters, paddingCount]
  | case4 x y z rest ih =>
      simp only [standardLetters, List.length_cons, paddingCount] at ih ⊢
      omega

/-! ## The table -/

theorem length_base64Letters : base64Letters.length = 64 := rfl

theorem tableAt_of_lt {index : Nat} (inside : index < 64) : tableAt index = some (letterAt index) := by
  rw [tableAt, letterAt, List.getD_eq_getElem?_getD,
    List.getElem?_eq_getElem (by rw [length_base64Letters]; exact inside)]
  rfl

theorem tableAt_of_ge {index : Nat} (outside : 64 ≤ index) : tableAt index = none :=
  List.getElem?_eq_none (by rw [length_base64Letters]; exact outside)

theorem findLetter_letterAt : ∀ index < 64, findLetter (letterAt index) = index.toUInt8 := by
  decide

theorem letterAt_readable :
    ∀ index < 64, letterAt index ≠ paddingLetter ∧ is_base64 (letterAt index) = true := by
  decide

/-! ## Index arithmetic -/

theorem and_three (x : Nat) : x &&& 3 = x % 4 := Nat.and_two_pow_sub_one_eq_mod x 2

theorem and_fifteen (x : Nat) : x &&& 15 = x % 16 := Nat.and_two_pow_sub_one_eq_mod x 4

theorem and_sixtyThree (x : Nat) : x &&& 63 = x % 64 := Nat.and_two_pow_sub_one_eq_mod x 6

theorem and_0x30_shiftRight : ∀ x < 64, (x &&& 0x30) >>> 4 = x / 16 := by decide

theorem and_0x3c_shiftRight : ∀ x < 64, (x &&& 0x3c) >>> 2 = x / 4 := by decide

theorem index1_eq (a : Nat) {b : Nat} (byte : b < 256) :
    ((a &&& 0x3) <<< 4) ||| (b >>> 4) = a % 4 * 16 + b / 16 := by
  have high : b >>> 4 < 2 ^ 4 := by
    rw [Nat.shiftRight_eq_div_pow]
    omega
  rw [← Nat.shiftLeft_add_eq_or_of_lt high, and_three, Nat.shiftLeft_eq, Nat.shiftRight_eq_div_pow]

theorem index2_eq (b : Nat) {c : Nat} (byte : c < 256) :
    ((b &&& 0xF) <<< 2) ||| (c >>> 6) = b % 16 * 4 + c / 64 := by
  have high : c >>> 6 < 2 ^ 2 := by
    rw [Nat.shiftRight_eq_div_pow]
    omega
  rw [← Nat.shiftLeft_add_eq_or_of_lt high, and_fifteen, Nat.shiftLeft_eq, Nat.shiftRight_eq_div_pow]

theorem decodeQuad_group (x y z : Nat) (hx : x < 256) (hy : y < 256) (hz : z < 256) :
    decodeQuad [(x / 4).toUInt8, (x % 4 * 16 + y / 16).toUInt8, (y % 16 * 4 + z / 64).toUInt8,
      (z % 64).toUInt8] = [x.toUInt8, y.toUInt8, z.toUInt8] := by
  have index1 : (x % 4 * 16 + y / 16) % 256 < 64 := by omega
  have index2 : (y % 16 * 4 + z / 64) % 256 < 64 := by omega
  simp only [decodeQuad, List.getD_cons_zero, List.getD_cons_succ, List.cons.injEq, and_true]
  refine ⟨?_, ?_, ?_⟩ <;> apply UInt8.toNat_inj.mp <;>
    simp [Nat.shiftLeft_eq, and_0x30_shiftRight _ index1, and_0x3c_shiftRight _ index2, and_three,
      and_fifteen] <;> omega


/-! ## The encoder -/

theorem sizeOfChar_of_lt {c : UInt8} (ascii : c.toNat < 128) : sizeOfChar c = c.toNat :=
  if_pos ascii

theorem sizeOfChar_of_ge {c : UInt8} (high : 128 ≤ c.toNat) : 2 ^ 64 - 128 ≤ sizeOfChar c := by
  rw [sizeOfChar, if_neg (by omega)]
  omega

theorem past_table_of_ge {c : UInt8} (high : 128 ≤ c.toNat) {shift : Nat} (small : shift ≤ 6) :
    64 ≤ sizeOfChar c >>> shift := by
  have widened := sizeOfChar_of_ge high
  have divisor : 2 ^ shift ≤ 64 :=
    calc 2 ^ shift ≤ 2 ^ 6 := Nat.pow_le_pow_right (by decide) small
      _ = 64 := by decide
  rw [Nat.shiftRight_eq_div_pow]
  calc 64 ≤ (2 ^ 64 - 128) / 64 := by decide
    _ ≤ sizeOfChar c / 64 := Nat.div_le_div_right widened
    _ ≤ sizeOfChar c / 2 ^ shift := Nat.div_le_div_left divisor (Nat.two_pow_pos shift)

theorem encodeGroup_three {x y z : UInt8} (hx : x.toNat < 128) (hy : y.toNat < 128)
    (hz : z.toNat < 128) :
    encodeGroup x (some y) (some z) =
      some [letterAt (x.toNat / 4), letterAt (x.toNat % 4 * 16 + y.toNat / 16),
        letterAt (y.toNat % 16 * 4 + z.toNat / 64), letterAt (z.toNat % 64)] := by
  simp only [encodeGroup, sizeOfChar_of_lt hx, sizeOfChar_of_lt hy, sizeOfChar_of_lt hz,
    Option.map_some, Option.getD_some, Option.isSome_some, if_true]
  rw [index1_eq _ (by omega), index2_eq _ (by omega), and_sixtyThree, Nat.shiftRight_eq_div_pow,
    tableAt_of_lt (by omega), tableAt_of_lt (by omega), tableAt_of_lt (by omega),
    tableAt_of_lt (by omega)]
  rfl

theorem encodeGroup_two {x y : UInt8} (hx : x.toNat < 128) (hy : y.toNat < 128) :
    encodeGroup x (some y) none =
      some [letterAt (x.toNat / 4), letterAt (x.toNat % 4 * 16 + y.toNat / 16),
        letterAt (y.toNat % 16 * 4)] := by
  simp only [encodeGroup, sizeOfChar_of_lt hx, sizeOfChar_of_lt hy, Option.map_some,
    Option.map_none, Option.getD_some, Option.getD_none, Option.isSome_some, Option.isSome_none,
    Bool.false_eq_true, if_true, if_false]
  rw [index1_eq _ (by omega), index2_eq _ (by omega), Nat.shiftRight_eq_div_pow,
    tableAt_of_lt (by omega), tableAt_of_lt (by omega), tableAt_of_lt (by omega)]
  rfl

theorem encodeGroup_one {x : UInt8} (hx : x.toNat < 128) :
    encodeGroup x none none = some [letterAt (x.toNat / 4), letterAt (x.toNat % 4 * 16)] := by
  simp only [encodeGroup, sizeOfChar_of_lt hx, Option.map_none, Option.getD_none,
    Option.isSome_none, Bool.false_eq_true, if_false]
  rw [index1_eq _ (by omega), Nat.shiftRight_eq_div_pow, tableAt_of_lt (by omega),
    tableAt_of_lt (by omega)]
  rfl

theorem encodeGroup_of_high_first {x : UInt8} (high : 128 ≤ x.toNat) (second third : Option UInt8) :
    encodeGroup x second third = none := by
  simp only [encodeGroup]
  rw [tableAt_of_ge (past_table_of_ge high (by decide))]
  rfl

theorem encodeGroup_of_high_second (x : UInt8) {y : UInt8} (high : 128 ≤ y.toNat)
    (third : Option UInt8) : encodeGroup x (some y) third = none := by
  simp only [encodeGroup, Option.map_some, Option.getD_some]
  rw [tableAt_of_ge (Nat.le_trans (past_table_of_ge high (by decide)) Nat.right_le_or)]
  cases tableAt (sizeOfChar x >>> 2) <;> rfl

theorem encodeGroup_of_high_third (x y : UInt8) {z : UInt8} (high : 128 ≤ z.toNat) :
    encodeGroup x (some y) (some z) = none := by
  simp only [encodeGroup, Option.map_some, Option.getD_some, Option.isSome_some, if_true]
  rw [tableAt_of_ge (Nat.le_trans (past_table_of_ge high (by decide)) Nat.right_le_or)]
  cases tableAt (sizeOfChar x >>> 2) <;> cases tableAt ((sizeOfChar x &&& 3) <<< 4 ||| sizeOfChar y >>> 4) <;> rfl

theorem encodeLoop_of_ascii {data : List UInt8} (ascii : ∀ byte ∈ data, byte.toNat < 128) :
    encodeLoop data = some (standardLetters data) := by
  induction data using encodeLoop.induct with
  | case1 => rfl
  | case2 x => exact encodeGroup_one (ascii x (by simp))
  | case3 x y => exact encodeGroup_two (ascii x (by simp)) (ascii y (by simp))
  | case4 x y z rest ih =>
      rw [encodeLoop, encodeGroup_three (ascii x (by simp)) (ascii y (by simp)) (ascii z (by simp)),
        ih (fun byte member => ascii byte (by simp [member]))]
      rfl

theorem encodeLoop_of_high {data : List UInt8} (high : ∃ byte ∈ data, 128 ≤ byte.toNat) :
    encodeLoop data = none := by
  induction data using encodeLoop.induct with
  | case1 => simp at high
  | case2 x =>
      obtain ⟨byte, member, past⟩ := high
      rw [List.mem_singleton] at member
      subst member
      exact encodeGroup_of_high_first past _ _
  | case3 x y =>
      obtain ⟨byte, member, past⟩ := high
      simp only [List.mem_cons, List.not_mem_nil, or_false] at member
      rcases member with rfl | rfl
      · exact encodeGroup_of_high_first past _ _
      · exact encodeGroup_of_high_second _ past _
  | case4 x y z rest ih =>
      obtain ⟨byte, member, past⟩ := high
      simp only [List.mem_cons] at member
      rw [encodeLoop]
      rcases member with rfl | rfl | rfl | later
      · rw [encodeGroup_of_high_first past]
        rfl
      · rw [encodeGroup_of_high_second _ past]
        rfl
      · rw [encodeGroup_of_high_third _ _ past]
        rfl
      · rw [ih ⟨byte, later, past⟩]
        cases encodeGroup x (some y) (some z) <;> rfl

theorem encode_of_ascii {data : List UInt8} (ascii : ∀ byte ∈ data, byte.toNat < 128) :
    encode data =
      some (standardLetters data ++ List.replicate (paddingCount data.length) paddingLetter) := by
  have lengths := length_standardLetters data
  have padding : 4 * ((data.length + 2) / 3) - (standardLetters data).length =
      paddingCount data.length := by omega
  rw [encode, encodeLoop_of_ascii ascii]
  show some (standardLetters data ++
    List.replicate (4 * ((data.length + 2) / 3) - (standardLetters data).length) paddingLetter) = _
  rw [padding]

theorem encode_of_high {data : List UInt8} (high : ∃ byte ∈ data, 128 ≤ byte.toNat) :
    encode data = none := by
  simp [encode, encodeLoop_of_high high]

/-! ## The decoder -/

/-- What `base64Decode` does after its loop, from the pending letters and the bytes. -/
def finishDecode (state : List UInt8 × List UInt8) : List UInt8 :=
  if state.1.length = 0 then state.2
  else
    state.2 ++ (decodeQuad ((state.1 ++ List.replicate (4 - state.1.length) 0).map findLetter)).take
      (state.1.length - 1)

theorem base64Decode_eq (encoded : List UInt8) :
    base64Decode encoded = finishDecode (decodeLoop [] [] encoded) := rfl

theorem decodeLoop_quad {i0 i1 i2 i3 : Nat} (h0 : i0 < 64) (h1 : i1 < 64) (h2 : i2 < 64)
    (h3 : i3 < 64) (ret rest : List UInt8) :
    decodeLoop [] ret (letterAt i0 :: letterAt i1 :: letterAt i2 :: letterAt i3 :: rest) =
      decodeLoop [] (ret ++ decodeQuad [i0.toUInt8, i1.toUInt8, i2.toUInt8, i3.toUInt8]) rest := by
  obtain ⟨notPadding0, letter0⟩ := letterAt_readable i0 h0
  obtain ⟨notPadding1, letter1⟩ := letterAt_readable i1 h1
  obtain ⟨notPadding2, letter2⟩ := letterAt_readable i2 h2
  obtain ⟨notPadding3, letter3⟩ := letterAt_readable i3 h3
  simp [decodeLoop, notPadding0, notPadding1, notPadding2, notPadding3, letter0, letter1, letter2,
    letter3, findLetter_letterAt _ h0, findLetter_letterAt _ h1, findLetter_letterAt _ h2,
    findLetter_letterAt _ h3]

theorem take_decodeQuad_one (a b c d c' d' : UInt8) :
    (decodeQuad [a, b, c, d]).take 1 = (decodeQuad [a, b, c', d']).take 1 := rfl

theorem take_decodeQuad_two (a b c d d' : UInt8) :
    (decodeQuad [a, b, c, d]).take 2 = (decodeQuad [a, b, c, d']).take 2 := rfl

theorem finishDecode_two (first second : UInt8) (ret : List UInt8) :
    finishDecode ([first, second], ret) =
      ret ++ (decodeQuad [findLetter first, findLetter second, findLetter 0, findLetter 0]).take 1 :=
  rfl

theorem finishDecode_three (first second third : UInt8) (ret : List UInt8) :
    finishDecode ([first, second, third], ret) =
      ret ++ (decodeQuad [findLetter first, findLetter second, findLetter third,
        findLetter 0]).take 2 :=
  rfl

theorem decode_padded_single (x : UInt8) (ret : List UInt8) :
    finishDecode (decodeLoop [] ret
      [letterAt (x.toNat / 4), letterAt (x.toNat % 4 * 16), paddingLetter, paddingLetter]) =
      ret ++ [x] := by
  have byte := UInt8.toNat_lt x
  have h0 : x.toNat / 4 < 64 := by omega
  have h1 : x.toNat % 4 * 16 < 64 := by omega
  obtain ⟨notPadding0, letter0⟩ := letterAt_readable _ h0
  obtain ⟨notPadding1, letter1⟩ := letterAt_readable _ h1
  have loop : decodeLoop [] ret
      [letterAt (x.toNat / 4), letterAt (x.toNat % 4 * 16), paddingLetter, paddingLetter] =
      ([letterAt (x.toNat / 4), letterAt (x.toNat % 4 * 16)], ret) := by
    simp [decodeLoop, notPadding0, letter0, notPadding1, letter1]
  have group := decodeQuad_group x.toNat 0 0 byte (by decide) (by decide)
  simp only [Nat.zero_div, Nat.add_zero, Nat.zero_mod, Nat.zero_mul, UInt8.ofNat_toNat] at group
  rw [loop, finishDecode_two, findLetter_letterAt _ h0, findLetter_letterAt _ h1,
    take_decodeQuad_one _ _ _ _ (Nat.toUInt8 0) (Nat.toUInt8 0), group]
  rfl

theorem decode_padded_pair (x y : UInt8) (ret : List UInt8) :
    finishDecode (decodeLoop [] ret
      [letterAt (x.toNat / 4), letterAt (x.toNat % 4 * 16 + y.toNat / 16),
        letterAt (y.toNat % 16 * 4), paddingLetter]) = ret ++ [x, y] := by
  have byteX := UInt8.toNat_lt x
  have byteY := UInt8.toNat_lt y
  have h0 : x.toNat / 4 < 64 := by omega
  have h1 : x.toNat % 4 * 16 + y.toNat / 16 < 64 := by omega
  have h2 : y.toNat % 16 * 4 < 64 := by omega
  obtain ⟨notPadding0, letter0⟩ := letterAt_readable _ h0
  obtain ⟨notPadding1, letter1⟩ := letterAt_readable _ h1
  obtain ⟨notPadding2, letter2⟩ := letterAt_readable _ h2
  have loop : decodeLoop [] ret
      [letterAt (x.toNat / 4), letterAt (x.toNat % 4 * 16 + y.toNat / 16),
        letterAt (y.toNat % 16 * 4), paddingLetter] =
      ([letterAt (x.toNat / 4), letterAt (x.toNat % 4 * 16 + y.toNat / 16),
        letterAt (y.toNat % 16 * 4)], ret) := by
    simp [decodeLoop, notPadding0, letter0, notPadding1, letter1, notPadding2, letter2]
  have group := decodeQuad_group x.toNat y.toNat 0 byteX byteY (by decide)
  simp only [Nat.zero_div, Nat.add_zero, Nat.zero_mod, UInt8.ofNat_toNat] at group
  rw [loop, finishDecode_three, findLetter_letterAt _ h0, findLetter_letterAt _ h1,
    findLetter_letterAt _ h2, take_decodeQuad_two _ _ _ _ (Nat.toUInt8 0), group]
  rfl

theorem decode_standardLetters (data : List UInt8) (ret : List UInt8) :
    finishDecode (decodeLoop [] ret
      (standardLetters data ++ List.replicate (paddingCount data.length) paddingLetter)) =
      ret ++ data := by
  induction data using standardLetters.induct generalizing ret with
  | case1 => simp [standardLetters, paddingCount, decodeLoop, finishDecode]
  | case2 x => exact decode_padded_single x ret
  | case3 x y => exact decode_padded_pair x y ret
  | case4 x y z rest ih =>
      have padding : paddingCount (x :: y :: z :: rest).length = paddingCount rest.length := by
        simp only [paddingCount, List.length_cons]
        omega
      have byteX := UInt8.toNat_lt x
      have byteY := UInt8.toNat_lt y
      have byteZ := UInt8.toNat_lt z
      have group := decodeQuad_group x.toNat y.toNat z.toNat byteX byteY byteZ
      simp only [UInt8.ofNat_toNat] at group
      rw [padding, standardLetters, List.cons_append, List.cons_append, List.cons_append,
        List.cons_append, decodeLoop_quad (by omega) (by omega) (by omega) (by omega), group, ih]
      simp

theorem base64Decode_standard (data : List UInt8) :
    base64Decode (standardLetters data ++ List.replicate (paddingCount data.length) paddingLetter) =
      data := by
  rw [base64Decode_eq, decode_standardLetters, List.nil_append]

/-! ## The encoder against the decoder -/

/-- `encode` stays within `encodingTable` exactly on data whose bytes are below 128. There it
writes the standard encoding, `4 * ceil(n / 3)` letters with `=` padding, which `base64Decode`
reads back; and `base64Decode` inverts the standard encoding of every byte string. -/
theorem base64_encode_in_table_only_for_ascii :
    (∀ data : List UInt8,
      (Tools.Base64.encode data).isSome = true ↔ ∀ byte ∈ data, byte.toNat < 128) ∧
    (∀ data : List UInt8, (∀ byte ∈ data, byte.toNat < 128) →
      ∃ encoded, Tools.Base64.encode data = some encoded ∧
        encoded.length = 4 * ((data.length + 2) / 3) ∧
        encoded = standardLetters data ++ List.replicate (paddingCount data.length) paddingLetter ∧
        Common.base64Decode encoded = data) ∧
    ∀ data : List UInt8, Common.base64Decode
      (standardLetters data ++ List.replicate (paddingCount data.length) paddingLetter) = data := by
  refine ⟨fun data => ⟨fun encoded => ?_, fun ascii => ?_⟩, fun data ascii => ?_,
    base64Decode_standard⟩
  · intro byte member
    by_contra high
    rw [encode_of_high ⟨byte, member, by omega⟩] at encoded
    cases encoded
  · rw [encode_of_ascii ascii]
    rfl
  · refine ⟨_, encode_of_ascii ascii, ?_, rfl, base64Decode_standard data⟩
    rw [List.length_append, List.length_replicate, length_standardLetters]

/-- The byte `0x80`, which the amounts and keys `getSpendableOutputs` encodes may hold, widens to
`2 ^ 64 - 128`, and its first index is `2 ^ 62 - 32`. -/
theorem high_byte_reads_past_encoding_table :
    sizeOfChar 0x80 >>> 2 = 2 ^ 62 - 32 ∧ Tools.Base64.encode [0x80] = none :=
  ⟨by decide, encode_of_high ⟨0x80, List.mem_singleton_self _, by decide⟩⟩

end Dynex
