import Dynex.Common.StreamTools

/-!
# Iterator varints

`Tools::write_varint` and `Tools::read_varint` of `Common/Varint.h`. The writer's loop is the
loop of `Common::writeVarint`. The reader makes the stream reader's two checks, a group past the
type's `bits` and a zero group after the first, but it returns a count: the bytes it read, `-1`
or `-2` for the two checks, and, when the input ends, the bytes read so far. So besides the
writer's bytes it accepts an input that ends inside a varint (`read_varint_accepts`), which the
stream reader refuses.
-/

set_option autoImplicit false

namespace Dynex.Tools

def write_varint (i : Nat) : List UInt8 := Common.writeVarintLoop 10 i

/-- The loop of `read_varint<bits>`: group offset `shift`, `read` bytes read and the bits `i`
gathered so far. The result is the function's return value with the final `i`. -/
def readVarintLoop (bits : Nat) : Nat → Nat → Nat → List UInt8 → Int × Nat
  | _, read, i, [] => (read, i)
  | shift, read, i, byte :: rest =>
      if shift + 7 ≥ bits ∧ byte.toNat ≥ 1 <<< (bits - shift) then (-1, i)
      else if byte = 0 ∧ shift ≠ 0 then (-2, i)
      else
        let i := i ||| (byte.toNat &&& 0x7f) <<< shift
        if byte.toNat &&& 0x80 = 0 then ((read + 1 : Nat), i)
        else readVarintLoop bits (shift + 7) (read + 1) i rest

def read_varint (bits : Nat) (input : List UInt8) : Int × Nat := readVarintLoop bits 0 0 0 input

/-! ## The reader against the stream reader -/

theorem readVarintLoop_cons {bits shift read temp : Nat} (small : temp < 2 ^ shift)
    (byte : UInt8) (rest : List UInt8) :
    readVarintLoop bits shift read temp (byte :: rest) =
      if shift + 7 ≥ bits ∧ byte.toNat ≥ 2 ^ (bits - shift) then ((-1 : Int), temp)
      else if byte = 0 ∧ shift ≠ 0 then ((-2 : Int), temp)
      else if byte.toNat < 128 then (((read + 1 : Nat) : Int), temp + byte.toNat % 128 * 2 ^ shift)
      else readVarintLoop bits (shift + 7) (read + 1) (temp + byte.toNat % 128 * 2 ^ shift) rest := by
  simp only [readVarintLoop, Common.one_shiftLeft, Common.byte_and_0x7f,
    Common.low_or_shifted small, Common.byte_toNat_and_0x80]

theorem length_lt_of_stream {bits : Nat} :
    ∀ {input : List UInt8} {shift temp value : Nat} {rest : List UInt8}, temp < 2 ^ shift →
      Common.readVarintLoop bits shift temp input = .ok (value, rest) →
        rest.length < input.length
  | [], _, _, _, _, _, accepted => by cases accepted
  | byte :: later, shift, temp, value, rest, small, accepted => by
      rw [Common.readVarintLoop_cons small] at accepted
      by_cases tooLarge : shift ≥ bits - 7 ∧ byte.toNat ≥ 2 ^ (bits - shift)
      · rw [if_pos tooLarge] at accepted; cases accepted
      rw [if_neg tooLarge] at accepted
      by_cases final : byte.toNat < 128
      · rw [if_pos final] at accepted
        by_cases zero : byte = 0 ∧ shift ≠ 0
        · rw [if_pos zero] at accepted; cases accepted
        rw [if_neg zero] at accepted
        obtain ⟨-, rfl⟩ := Prod.mk.inj (Except.ok.inj accepted)
        simp
      · rw [if_neg final] at accepted
        have nextSmall := Common.gathered_lt_next small byte.toNat
        have shorter := length_lt_of_stream nextSmall accepted
        simp only [List.length_cons]
        omega

/-- Where the stream reader accepts, this reader returns the count of the bytes the stream
reader consumed, with the same value. -/
theorem readVarintLoop_of_stream {bits : Nat} :
    ∀ {input : List UInt8} {shift read temp value : Nat} {rest : List UInt8},
      temp < 2 ^ shift → Common.readVarintLoop bits shift temp input = .ok (value, rest) →
        readVarintLoop bits shift read temp input =
          (((read + (input.length - rest.length) : Nat) : Int), value)
  | [], _, _, _, _, _, _, accepted => by cases accepted
  | byte :: later, shift, read, temp, value, rest, small, accepted => by
      rw [Common.readVarintLoop_cons small] at accepted
      rw [readVarintLoop_cons small]
      have sameRange : (shift + 7 ≥ bits) = (shift ≥ bits - 7) := by
        apply propext; omega
      by_cases tooLarge : shift + 7 ≥ bits ∧ byte.toNat ≥ 2 ^ (bits - shift)
      · rw [sameRange] at tooLarge
        rw [if_pos tooLarge] at accepted
        cases accepted
      rw [if_neg tooLarge]
      rw [sameRange] at tooLarge
      rw [if_neg tooLarge] at accepted
      by_cases zero : byte = 0 ∧ shift ≠ 0
      · have final : byte.toNat < 128 := by rw [zero.1]; decide
        rw [if_pos final, if_pos zero] at accepted
        cases accepted
      rw [if_neg zero]
      by_cases final : byte.toNat < 128
      · rw [if_pos final, if_neg zero] at accepted
        obtain ⟨rfl, rfl⟩ := Prod.mk.inj (Except.ok.inj accepted)
        rw [if_pos final]
        simp
      · rw [if_neg final] at accepted
        rw [if_neg final]
        have nextSmall := Common.gathered_lt_next small byte.toNat
        have shorter := length_lt_of_stream nextSmall accepted
        rw [readVarintLoop_of_stream nextSmall accepted]
        congr 2
        simp only [List.length_cons]
        omega

/-- Where the stream reader fails, this reader fails too, or it has read the whole input and
every byte of it had the continuation bit. -/
theorem readVarintLoop_of_stream_error {bits : Nat} :
    ∀ {input : List UInt8} {shift read temp : Nat} {message : String},
      temp < 2 ^ shift → Common.readVarintLoop bits shift temp input = .error message →
        (readVarintLoop bits shift read temp input).1 < 0 ∨
          ((readVarintLoop bits shift read temp input).1 = ((read + input.length : Nat) : Int) ∧
            ∀ byte ∈ input, 128 ≤ byte.toNat)
  | [], _, read, temp, _, _, _ => by simp [readVarintLoop]
  | byte :: later, shift, read, temp, message, small, refused => by
      rw [Common.readVarintLoop_cons small] at refused
      rw [readVarintLoop_cons small]
      have sameRange : (shift + 7 ≥ bits) = (shift ≥ bits - 7) := by
        apply propext; omega
      by_cases tooLarge : shift + 7 ≥ bits ∧ byte.toNat ≥ 2 ^ (bits - shift)
      · rw [if_pos tooLarge]
        exact Or.inl (show (-1 : Int) < 0 by decide)
      rw [if_neg tooLarge]
      by_cases zero : byte = 0 ∧ shift ≠ 0
      · rw [if_pos zero]
        exact Or.inl (show (-2 : Int) < 0 by decide)
      rw [if_neg zero]
      rw [sameRange] at tooLarge
      rw [if_neg tooLarge] at refused
      by_cases final : byte.toNat < 128
      · rw [if_pos final, if_neg zero] at refused
        cases refused
      · rw [if_neg final] at refused
        rw [if_neg final]
        have nextSmall := Common.gathered_lt_next small byte.toNat
        rcases @readVarintLoop_of_stream_error bits later (shift + 7) (read + 1) _ message
            nextSmall refused with
          failed | ⟨counted, continued⟩
        · exact Or.inl failed
        · refine Or.inr ⟨by rw [counted]; simp only [List.length_cons]; omega, ?_⟩
          intro other member
          rcases List.mem_cons.mp member with rfl | later
          · omega
          · exact continued other later

/-! ## What the reader accepts -/

theorem write_varint_ne_nil (i : Nat) : write_varint i ≠ [] := by
  rw [write_varint, Common.writeVarintLoop]
  split <;> simp

theorem toUInt64_toNat {value : Nat} (below : value < 2 ^ 64) : value.toUInt64.toNat = value := by
  rw [Nat.toUInt64_eq]
  exact UInt64.toNat_ofNat_of_lt' below

theorem read_varint_write_varint {bits : Nat} (wide : bits ≤ 64) {value : Nat}
    (fits : value < 2 ^ bits) (rest : List UInt8) :
    read_varint bits (write_varint value ++ rest) = (((write_varint value).length : Int), value) := by
  have below : value < 2 ^ 64 := lt_of_lt_of_le fits (Nat.pow_le_pow_right (by decide) wide)
  have accepted : Common.readVarintLoop bits 0 0 (write_varint value ++ rest) = .ok (value, rest) := by
    have stream := @Common.readVarint_writeVarint bits value.toUInt64
      (by rwa [toUInt64_toNat below]) rest
    rwa [Common.readVarint, Common.writeVarint, toUInt64_toNat below] at stream
  rw [read_varint, readVarintLoop_of_stream (by decide) accepted]
  simp

theorem read_varint_accepts {bits : Nat} (wide : bits ≤ 64) {input : List UInt8} {read : Int}
    {i : Nat} (result : read_varint bits input = (read, i)) (positive : 0 < read) :
    (i < 2 ^ bits ∧ input.take read.toNat = write_varint i) ∨
      (read = input.length ∧ ∀ byte ∈ input, 128 ≤ byte.toNat) := by
  cases stream : Common.readVarintLoop bits 0 0 input with
  | ok accepted =>
      obtain ⟨value, rest⟩ := accepted
      rw [read_varint, @readVarintLoop_of_stream bits input 0 0 0 value rest (by decide) stream]
        at result
      obtain ⟨rfl, rfl⟩ := Prod.mk.inj result
      obtain ⟨fits, decomposed⟩ := Common.readVarint_canonical wide stream
      refine Or.inl ⟨fits, ?_⟩
      have below : value < 2 ^ 64 := lt_of_lt_of_le fits (Nat.pow_le_pow_right (by decide) wide)
      rw [Common.writeVarint, toUInt64_toNat below] at decomposed
      rw [decomposed]
      simp [write_varint]
  | error message =>
      rcases @readVarintLoop_of_stream_error bits input 0 0 0 message (by decide) stream with
        failed | ⟨counted, continued⟩
      · rw [← read_varint, result] at failed
        exact absurd positive (not_lt.mpr (le_of_lt failed))
      · rw [← read_varint, result] at counted
        exact Or.inr ⟨by simpa using counted, continued⟩

/-- `Tools::read_varint` on `Tools::write_varint`, for an unsigned type of any width: it reads
back every value with every suffix and returns the encoding's length; and whatever it accepts
with a positive count is either the writer's encoding of its value, or an input that ends inside
a varint, all of whose bytes carry the continuation bit. -/
theorem read_varint_reads_writer_or_cut_input (bits : Nat) (wide : bits ≤ 64) :
    (∀ value < 2 ^ bits, ∀ rest,
      read_varint bits (write_varint value ++ rest) = (((write_varint value).length : Int), value)) ∧
    (∀ input read i, read_varint bits input = (read, i) → 0 < read →
      (i < 2 ^ bits ∧ input.take read.toNat = write_varint i) ∨
        (read = input.length ∧ ∀ byte ∈ input, 128 ≤ byte.toNat)) :=
  ⟨fun _ fits rest => read_varint_write_varint wide fits rest,
    fun _ _ _ result positive => read_varint_accepts wide result positive⟩

theorem read_varint_for_uint64 :
    64 ≤ 64 ∧
      (∀ value < 2 ^ 64, ∀ rest,
        read_varint 64 (write_varint value ++ rest) = (((write_varint value).length : Int), value)) ∧
      (∀ input read i, read_varint 64 input = (read, i) → 0 < read →
        (i < 2 ^ 64 ∧ input.take read.toNat = write_varint i) ∨
          (read = input.length ∧ ∀ byte ∈ input, 128 ≤ byte.toNat)) :=
  ⟨le_refl 64, read_varint_reads_writer_or_cut_input 64 (le_refl 64)⟩

/-- A lone continuation byte is accepted as a one-byte varint of value zero, which the writer
encodes as the byte zero. -/
theorem lone_continuation_byte_accepted :
    read_varint 64 [0x80] = (1, 0) ∧ [(0x80 : UInt8)].take 1 ≠ write_varint 0 := by
  decide

end Dynex.Tools
