import Dynex.Lib.ByteCodec

/-!
# Stream varints

`Common::readVarint` and `Common::writeVarint` of `StreamTools.cpp`: seven bits a byte, low
group first, the high bit set on every byte but the last. The reader rejects a value that does
not fit its type and a trailing zero group, and these two checks make it accept exactly the
writer's bytes: `readVarint_writeVarint` and `readVarint_canonical`.
-/

set_option autoImplicit false

namespace Dynex.Common

open Codec

def read (count : Nat) : Reader (List UInt8) := takeBytes "Failed to read from IInputStream" count

def readByte : Reader UInt8 := takeByte "Failed to read from IInputStream"

@[simp] theorem readByte_cons (byte : UInt8) (rest : List UInt8) :
    readByte (byte :: rest) = .ok (byte, rest) := rfl

/-- The loop of `readVarint` for an unsigned type of `bits` bits, at group offset `shift` with
the bits gathered so far in `temp`. -/
def readVarintLoop (bits : Nat) : Nat → Nat → List UInt8 → Except String (Nat × List UInt8)
  | _, _, [] => .error "Failed to read from IInputStream"
  | shift, temp, piece :: rest =>
      if shift ≥ bits - 7 ∧ piece.toNat ≥ 1 <<< (bits - shift) then
        .error "readVarint, value overflow"
      else
        let temp := temp ||| (piece.toNat &&& 0x7f) <<< shift
        if piece.toNat &&& 0x80 = 0 then
          if piece = 0 ∧ shift ≠ 0 then .error "readVarint, invalid value representation"
          else .ok (temp, rest)
        else readVarintLoop bits (shift + 7) temp rest

def readVarint (bits : Nat) : Reader Nat := readVarintLoop bits 0 0

/-- The loop of `writeVarint`: while the value is at least `0x80`, emit its low seven bits with
the high bit set and shift it right by seven. Ten rounds exhaust any 64-bit value, so the
`fuel` of `writeVarint` never runs out. -/
def writeVarintLoop : Nat → Nat → List UInt8
  | 0, value => [value.toUInt8]
  | fuel + 1, value =>
      if value ≥ 0x80 then (value ||| 0x80).toUInt8 :: writeVarintLoop fuel (value >>> 7)
      else [value.toUInt8]

def writeVarint (value : UInt64) : List UInt8 := writeVarintLoop 10 value.toNat

/-! ## Arithmetic form of the bit operations -/

set_option maxRecDepth 4000 in
private theorem or_0x80_table : ∀ low, low < 256 → (low ||| 0x80) = low % 128 + 128 := by
  decide

set_option maxRecDepth 4000 in
private theorem and_0x80_table : ∀ low, low < 256 → ((low &&& 0x80 = 0) ↔ low < 128) := by
  decide

theorem byte_or_0x80 (value : Nat) : (value ||| 0x80).toUInt8 = (value % 128 + 128).toUInt8 := by
  apply UInt8.toNat_inj.mp
  have low : (value ||| 0x80) % 2 ^ 8 = value % 2 ^ 8 ||| 0x80 % 2 ^ 8 := Nat.or_mod_two_pow
  have table := or_0x80_table (value % 2 ^ 8) (Nat.mod_lt _ (by decide))
  simp only [Nat.toUInt8_eq, UInt8.toNat_ofNat']
  rw [low, show (0x80 : Nat) % 2 ^ 8 = 0x80 by rfl, table]
  omega

theorem byte_toNat_and_0x80 (piece : UInt8) : (piece.toNat &&& 0x80 = 0) ↔ piece.toNat < 128 :=
  and_0x80_table _ piece.toNat_lt

theorem low_or_shifted {temp shift : Nat} (small : temp < 2 ^ shift) (group : Nat) :
    temp ||| group <<< shift = temp + group * 2 ^ shift := by
  rw [Nat.or_comm, ← Nat.shiftLeft_add_eq_or_of_lt small, Nat.shiftLeft_eq, Nat.add_comm]

theorem one_shiftLeft (exponent : Nat) : 1 <<< exponent = 2 ^ exponent := by
  rw [Nat.shiftLeft_eq, Nat.one_mul]

theorem byte_and_0x7f (piece : Nat) : piece &&& 0x7f = piece % 128 :=
  Nat.and_two_pow_sub_one_eq_mod piece 7

theorem toUInt8_toNat_of_lt {value : Nat} (small : value < 256) : value.toUInt8.toNat = value := by
  simp [Nat.toUInt8_eq, UInt8.toNat_ofNat', Nat.mod_eq_of_lt small]

theorem writeVarintLoop_of_lt {value : Nat} (small : value < 0x80) :
    ∀ fuel, writeVarintLoop fuel value = [value.toUInt8]
  | 0 => rfl
  | fuel + 1 => by simp [writeVarintLoop, Nat.not_le.mpr small]

theorem writeVarintLoop_succ_of_ge {value : Nat} (large : 0x80 ≤ value) (fuel : Nat) :
    writeVarintLoop (fuel + 1) value =
      (value % 128 + 128).toUInt8 :: writeVarintLoop fuel (value / 128) := by
  rw [writeVarintLoop, if_pos large, byte_or_0x80, Nat.shiftRight_eq_div_pow]

theorem readVarintLoop_cons {bits shift temp : Nat} (small : temp < 2 ^ shift) (piece : UInt8)
    (rest : List UInt8) :
    readVarintLoop bits shift temp (piece :: rest) =
      if shift ≥ bits - 7 ∧ piece.toNat ≥ 2 ^ (bits - shift) then .error "readVarint, value overflow"
      else if piece.toNat < 128 then
        if piece = 0 ∧ shift ≠ 0 then .error "readVarint, invalid value representation"
        else .ok (temp + piece.toNat % 128 * 2 ^ shift, rest)
      else readVarintLoop bits (shift + 7) (temp + piece.toNat % 128 * 2 ^ shift) rest := by
  simp only [readVarintLoop, one_shiftLeft, byte_and_0x7f, low_or_shifted small,
    byte_toNat_and_0x80]

theorem gathered_lt_next {temp shift : Nat} (small : temp < 2 ^ shift) (group : Nat) :
    temp + group % 128 * 2 ^ shift < 2 ^ (shift + 7) := by
  have bounded : group % 128 * 2 ^ shift ≤ 127 * 2 ^ shift :=
    Nat.mul_le_mul_right _ (by have := Nat.mod_lt group (show 0 < 128 by decide); omega)
  rw [Nat.pow_add]
  omega

/-! ## Reading back what was written -/

private theorem readVarintLoop_final {bits shift temp group : Nat} (small : temp < 2 ^ shift)
    (final : group < 0x80) (nonzero : group ≠ 0 ∨ shift = 0)
    (fits : temp + group * 2 ^ shift < 2 ^ bits) (rest : List UInt8) :
    readVarintLoop bits shift temp (group.toUInt8 :: rest) = .ok (temp + group * 2 ^ shift, rest) := by
  have byte : group.toUInt8.toNat = group := toUInt8_toNat_of_lt (by omega)
  have inRange : ¬(shift ≥ bits - 7 ∧ group ≥ 2 ^ (bits - shift)) := by
    rintro ⟨-, tooLarge⟩
    rcases nonzero with nonzero | rfl
    · have grows : 2 ^ (bits - shift) * 2 ^ shift ≤ group * 2 ^ shift := Nat.mul_le_mul_right _ tooLarge
      by_cases below : shift ≤ bits
      · rw [← Nat.pow_add, Nat.sub_add_cancel below] at grows
        omega
      · have : 2 ^ bits < 2 ^ shift := Nat.pow_lt_pow_right (by decide) (by omega)
        have : 2 ^ shift ≤ group * 2 ^ shift := Nat.le_mul_of_pos_left _ (by omega)
        omega
    · simp only [Nat.sub_zero, Nat.pow_zero] at tooLarge fits
      omega
  have canonical : ¬(group.toUInt8 = 0 ∧ shift ≠ 0) := by
    rintro ⟨zero, moved⟩
    have : group = 0 := by rw [← byte, zero]; rfl
    omega
  rw [readVarintLoop_cons small, byte, if_neg inRange, if_pos final, if_neg canonical,
    Nat.mod_eq_of_lt final]

/-- The reader consumes exactly the writer's groups and adds them onto what it has gathered. -/
theorem readVarintLoop_writeVarintLoop (bits : Nat) :
    ∀ (fuel value shift temp : Nat), temp < 2 ^ shift → value < 2 ^ (7 * (fuel + 1)) →
      (value ≠ 0 ∨ shift = 0) → temp + value * 2 ^ shift < 2 ^ bits → ∀ rest,
        readVarintLoop bits shift temp (writeVarintLoop fuel value ++ rest) =
          .ok (temp + value * 2 ^ shift, rest)
  | 0, value, shift, temp, small, bounded, nonzero, fits, rest => by
      rw [writeVarintLoop_of_lt (by simpa using bounded)]
      exact readVarintLoop_final small (by simpa using bounded) nonzero fits rest
  | fuel + 1, value, shift, temp, small, bounded, nonzero, fits, rest => by
      by_cases large : 0x80 ≤ value
      · have byte : (value % 128 + 128).toUInt8.toNat = value % 128 + 128 :=
          toUInt8_toNat_of_lt (by omega)
        have grows : 2 ^ (shift + 7) ≤ value * 2 ^ shift := by
          rw [Nat.pow_add, Nat.mul_comm (2 ^ shift)]
          exact Nat.mul_le_mul_right _ large
        have room : shift + 7 < bits := by
          by_contra tooFar
          have : 2 ^ bits ≤ 2 ^ (shift + 7) := Nat.pow_le_pow_right (by decide) (by omega)
          omega
        have inRange : ¬(shift ≥ bits - 7 ∧ value % 128 + 128 ≥ 2 ^ (bits - shift)) := by
          rintro ⟨far, -⟩; omega
        have nextSmall := gathered_lt_next small value
        have split : temp + value % 128 * 2 ^ shift + value / 128 * 2 ^ (shift + 7) =
            temp + value * 2 ^ shift := by
          have digits := Nat.mod_add_div value 128
          rw [Nat.pow_add, show (2 : Nat) ^ 7 = 128 by rfl, Nat.add_assoc]
          rw [show value / 128 * (2 ^ shift * 128) = 128 * (value / 128) * 2 ^ shift by
            rw [Nat.mul_comm (2 ^ shift) 128, ← Nat.mul_assoc, Nat.mul_comm (value / 128) 128],
            ← Nat.add_mul, digits]
        have quotient : value / 128 < 2 ^ (7 * (fuel + 1)) := by
          rw [Nat.div_lt_iff_lt_mul (by decide)]
          have expand : 2 ^ (7 * (fuel + 1 + 1)) = 2 ^ (7 * (fuel + 1)) * 128 := by
            rw [show 7 * (fuel + 1 + 1) = 7 * (fuel + 1) + 7 by omega, Nat.pow_add]
          rw [← expand]
          exact bounded
        have next := readVarintLoop_writeVarintLoop bits fuel (value / 128) (shift + 7)
          (temp + value % 128 * 2 ^ shift) nextSmall quotient (Or.inl (by omega))
          (by rw [split]; exact fits) rest
        rw [split] at next
        rw [writeVarintLoop_succ_of_ge large, List.cons_append, readVarintLoop_cons small, byte,
          if_neg inRange, if_neg (by omega), Nat.add_mod_right, Nat.mod_mod, next]
      · rw [writeVarintLoop_of_lt (by omega)]
        exact readVarintLoop_final small (by omega) nonzero fits rest

/-! ## Canonical encodings -/

private theorem final_fits {bits shift temp : Nat} (small : temp < 2 ^ shift) {piece : Nat}
    (inRange : ¬(shift ≥ bits - 7 ∧ piece ≥ 2 ^ (bits - shift))) (final : piece < 128)
    (nonzero : piece ≠ 0 ∨ shift = 0) : temp + piece * 2 ^ shift < 2 ^ bits := by
  by_cases far : shift ≥ bits - 7
  · have below : piece < 2 ^ (bits - shift) := by omega
    by_cases within : shift ≤ bits
    · have : (piece + 1) * 2 ^ shift ≤ 2 ^ (bits - shift) * 2 ^ shift := Nat.mul_le_mul_right _ below
      rw [← Nat.pow_add, Nat.sub_add_cancel within, Nat.add_mul, Nat.one_mul] at this
      omega
    · rw [show bits - shift = 0 by omega, Nat.pow_zero] at below
      omega
  · have : piece * 2 ^ shift ≤ 127 * 2 ^ shift := Nat.mul_le_mul_right _ (by omega)
    have : 2 ^ (shift + 7) ≤ 2 ^ bits := Nat.pow_le_pow_right (by decide) (by omega)
    rw [Nat.pow_add] at this
    omega

/-- Whatever the loop accepts is the writer's encoding of the groups it gathered: the range
check bounds the value and the representation check forbids a trailing zero group. -/
theorem readVarintLoop_canonical (bits : Nat) :
    ∀ (input : List UInt8) (fuel shift temp value : Nat) (rest : List UInt8),
      temp < 2 ^ shift → bits ≤ shift + 7 * (fuel + 1) →
      readVarintLoop bits shift temp input = .ok (value, rest) →
        ∃ group, value = temp + group * 2 ^ shift ∧ value < 2 ^ bits ∧ (group ≠ 0 ∨ shift = 0) ∧
          input = writeVarintLoop fuel group ++ rest
  | [], _, _, _, _, _, _, _, accepted => by cases accepted
  | piece :: later, fuel, shift, temp, value, rest, small, enough, accepted => by
      have pieceSmall := piece.toNat_lt
      rw [readVarintLoop_cons small] at accepted
      by_cases tooLarge : shift ≥ bits - 7 ∧ piece.toNat ≥ 2 ^ (bits - shift)
      · rw [if_pos tooLarge] at accepted; cases accepted
      rw [if_neg tooLarge] at accepted
      by_cases final : piece.toNat < 128
      · rw [if_pos final] at accepted
        by_cases zero : piece = 0 ∧ shift ≠ 0
        · rw [if_pos zero] at accepted; cases accepted
        rw [if_neg zero, Nat.mod_eq_of_lt final, Except.ok.injEq, Prod.mk.injEq] at accepted
        obtain ⟨rfl, rfl⟩ := accepted
        have nonzero : piece.toNat ≠ 0 ∨ shift = 0 := by
          by_cases moved : shift = 0
          · exact Or.inr moved
          · exact Or.inl (fun isZero => zero ⟨UInt8.toNat_inj.mp isZero, moved⟩)
        refine ⟨piece.toNat, rfl, final_fits small tooLarge final nonzero, nonzero, ?_⟩
        rw [writeVarintLoop_of_lt final, Nat.toUInt8_eq, UInt8.ofNat_toNat]
        rfl
      · rw [if_neg final] at accepted
        obtain _ | fuel := fuel
        · exfalso
          have : piece.toNat < 2 ^ (bits - shift) := by omega
          have : 2 ^ (bits - shift) ≤ 2 ^ 7 := Nat.pow_le_pow_right (by decide) (by omega)
          omega
        have nextSmall := gathered_lt_next small piece.toNat
        obtain ⟨group, rfl, fits, nonzero, rfl⟩ := readVarintLoop_canonical bits later fuel
          (shift + 7) (temp + piece.toNat % 128 * 2 ^ shift) value rest nextSmall (by omega) accepted
        have whole : 0x80 ≤ piece.toNat % 128 + 128 * group := by omega
        refine ⟨piece.toNat % 128 + 128 * group, ?_, fits, Or.inl (by omega), ?_⟩
        · rw [Nat.pow_add, Nat.add_mul, show (2 : Nat) ^ 7 = 128 by rfl]
          rw [Nat.mul_comm (2 ^ shift) 128, ← Nat.mul_assoc, Nat.mul_comm group 128, Nat.add_assoc]
        · rw [writeVarintLoop_succ_of_ge whole, Nat.add_mul_mod_self_left, Nat.mod_mod,
            Nat.add_mul_div_left _ _ (by decide), Nat.div_eq_of_lt (Nat.mod_lt _ (by decide)),
            Nat.zero_add, show piece.toNat % 128 + 128 = piece.toNat by omega, Nat.toUInt8_eq,
            UInt8.ofNat_toNat, List.cons_append]

theorem readVarint_writeVarint {bits : Nat} (value : UInt64) (fits : value.toNat < 2 ^ bits) :
    ReadsBack (readVarint bits) (writeVarint value) value.toNat := by
  intro rest
  have read := readVarintLoop_writeVarintLoop bits 10 value.toNat 0 0 (by decide)
    (Nat.lt_of_lt_of_le value.toNat_lt (Nat.pow_le_pow_right (by decide) (by decide))) (Or.inr rfl)
    (by simpa using fits) rest
  simpa [readVarint, writeVarint] using read

theorem readVarint_canonical {bits : Nat} (wide : bits ≤ 64) {input rest : List UInt8} {value : Nat}
    (accepted : readVarint bits input = .ok (value, rest)) :
    value < 2 ^ bits ∧ input = writeVarint value.toUInt64 ++ rest := by
  obtain ⟨group, rfl, fits, -, rfl⟩ :=
    readVarintLoop_canonical bits input 10 0 0 value rest (by decide) (by omega) accepted
  have below : group < 2 ^ 64 := by
    have : 2 ^ bits ≤ 2 ^ 64 := Nat.pow_le_pow_right (by decide) wide
    simp at fits; omega
  have roundTrip : (0 + group * 2 ^ 0).toUInt64.toNat = group := by
    rw [Nat.pow_zero, Nat.mul_one, Nat.zero_add, Nat.toUInt64_eq]
    exact UInt64.toNat_ofNat_of_lt' below
  refine ⟨by simpa using fits, ?_⟩
  rw [writeVarint, roundTrip]

/-! ## Inputs that end inside a varint -/

theorem writeVarintLoop_continued :
    ∀ (fuel value : Nat), ∃ init last, writeVarintLoop fuel value = init ++ [last] ∧
      ∀ byte ∈ init, 128 ≤ byte.toNat
  | 0, value => ⟨[], value.toUInt8, rfl, by simp⟩
  | fuel + 1, value => by
      by_cases large : 0x80 ≤ value
      · obtain ⟨init, last, written, continued⟩ := writeVarintLoop_continued fuel (value / 128)
        refine ⟨(value % 128 + 128).toUInt8 :: init, last, ?_, ?_⟩
        · rw [writeVarintLoop_succ_of_ge large, written, List.cons_append]
        · intro byte member
          rcases List.mem_cons.mp member with rfl | later
          · rw [toUInt8_toNat_of_lt (by omega)]
            omega
          · exact continued byte later
      · exact ⟨[], value.toUInt8, writeVarintLoop_of_lt (by omega) (fuel + 1), by simp⟩

theorem readVarintLoop_of_continued {bits : Nat} :
    ∀ {input : List UInt8} {shift temp : Nat}, temp < 2 ^ shift →
      (∀ byte ∈ input, 128 ≤ byte.toNat) →
        ∃ message, readVarintLoop bits shift temp input = .error message
  | [], _, _, _, _ => ⟨_, rfl⟩
  | byte :: later, shift, temp, small, continued => by
      have continuation := continued byte List.mem_cons_self
      rw [readVarintLoop_cons small]
      by_cases tooLarge : shift ≥ bits - 7 ∧ byte.toNat ≥ 2 ^ (bits - shift)
      · exact ⟨_, if_pos tooLarge⟩
      rw [if_neg tooLarge, if_neg (by omega)]
      have nextSmall := gathered_lt_next small byte.toNat
      exact readVarintLoop_of_continued nextSmall fun other member =>
        continued other (List.mem_cons_of_mem _ member)

theorem readVarint_take_error (bits : Nat) (value : UInt64) {count : Nat}
    (short : count < (writeVarint value).length) :
    ∃ message, readVarint bits ((writeVarint value).take count) = .error message := by
  obtain ⟨init, last, written, continued⟩ := writeVarintLoop_continued 10 value.toNat
  have within : count ≤ init.length := by
    rw [writeVarint, written, List.length_append, List.length_singleton] at short
    omega
  have prefixOfInit : (writeVarint value).take count = init.take count := by
    rw [writeVarint, written, List.take_append_of_le_length within]
  rw [prefixOfInit]
  exact readVarintLoop_of_continued (by decide) fun byte member =>
    continued byte (List.mem_of_mem_take member)

/-- `Common::readVarint` and `Common::writeVarint` at each width of the four readers: the reader
reads back the writer's bytes of every value of the width, whatever follows; every input it
accepts begins with the writer's bytes of the value it returns; and it refuses every input that
ends inside an encoding. -/
theorem stream_varint_canonical_bijection (bits : Nat) (width : bits ∈ [8, 16, 32, 64]) :
    (∀ value : UInt64, value.toNat < 2 ^ bits → ∀ rest,
      readVarint bits (writeVarint value ++ rest) = .ok (value.toNat, rest)) ∧
    (∀ input rest value, readVarint bits input = .ok (value, rest) →
      value < 2 ^ bits ∧ input = writeVarint value.toUInt64 ++ rest) ∧
    (∀ (value : UInt64) (count : Nat), count < (writeVarint value).length →
      ∃ message, readVarint bits ((writeVarint value).take count) = .error message) := by
  have wide : bits ≤ 64 := by simp at width; omega
  exact ⟨fun value fits rest => readVarint_writeVarint value fits rest,
    fun _ _ _ accepted => readVarint_canonical wide accepted,
    fun value _ short => readVarint_take_error bits value short⟩

theorem stream_varint_width_32 :
    32 ∈ [8, 16, 32, 64] ∧
      (∀ value : UInt64, value.toNat < 2 ^ 32 → ∀ rest,
        readVarint 32 (writeVarint value ++ rest) = .ok (value.toNat, rest)) ∧
      (∀ input rest value, readVarint 32 input = .ok (value, rest) →
        value < 2 ^ 32 ∧ input = writeVarint value.toUInt64 ++ rest) ∧
      (∀ (value : UInt64) (count : Nat), count < (writeVarint value).length →
        ∃ message, readVarint 32 ((writeVarint value).take count) = .error message) :=
  ⟨by decide, stream_varint_canonical_bijection 32 (by decide)⟩

end Dynex.Common
