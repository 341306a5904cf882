import Dynex.Crypto.Types

/-!
# Hexadecimal text

`Common::toHex` and `Common::fromHex` of `Common/StringTools.cpp`, and `podToHex` and
`podFromHex` of `StringTools.h` over them. `toHex` writes each byte as two lower-case digits,
high half first. `fromHex` reads a text of even length two digits a byte, through the table
`characterValues`, which knows the digits of either case; `podFromHex` asks for exactly the size
of the POD. Texts are their bytes.

`fromHex` reads back what `toHex` wrote (`fromHex_toHex`). Conversely, a text `fromHex` accepts
is twice as long as what it reads, and `toHex` writes it again in lower case
(`toHex_of_fromHexPairs`): the texts `podFromHex` accepts are the hexadecimal texts of the POD's
size, and their case is all that `podToHex` does not give back (`podFromHex_podToHex`).
-/

set_option autoImplicit false

namespace Dynex

open Crypto

namespace Common

/-- `characterValues[c]`: the value of a hexadecimal digit of either case, `0xff` for every
other character. -/
def characterValue (c : UInt8) : UInt8 :=
  if 48 ≤ c ∧ c ≤ 57 then c - 48
  else if 65 ≤ c ∧ c ≤ 70 then c - 55
  else if 97 ≤ c ∧ c ≤ 102 then c - 87
  else 0xff

def fromHexCharacter (character : UInt8) : Option UInt8 :=
  if characterValue character > 0x0f then none else some (characterValue character)

/-- The loop of `fromHex(text, data, bufferSize, size)`: each two digits give the byte
`value1 << 4 | value2`, and the first character that is no digit ends it. The text reaching it
is of even length. -/
def fromHexPairs : List UInt8 → Option (List UInt8)
  | first :: second :: rest => do
      let value1 ← fromHexCharacter first
      let value2 ← fromHexCharacter second
      let bytes ← fromHexPairs rest
      pure ((value1 <<< 4 ||| value2) :: bytes)
  | _ => some []

/-- `fromHex(text, data, bufferSize, size)`: the bytes it writes to `data`, as many as it returns
in `size`; `none` where it returns `false`. -/
def fromHex (text : List UInt8) (bufferSize : Nat) : Option (List UInt8) :=
  if text.length % 2 ≠ 0 then none
  else if text.length / 2 > bufferSize then none
  else fromHexPairs text

/-- `podFromHex(text, val)`: the POD, where the text gives every one of its bytes. -/
def podFromHex (size : Nat) (text : List UInt8) : Option (Pod size) :=
  match fromHex text size with
  | none => none
  | some bytes => if fits : bytes.length = size then some ⟨bytes, fits⟩ else none

def hexDigit (value : UInt8) : UInt8 :=
  ("0123456789abcdef".toList.getD value.toNat '0').toNat.toUInt8

def toHex (data : List UInt8) : List UInt8 :=
  data.flatMap fun (byte : UInt8) => [hexDigit (byte >>> 4), hexDigit (byte &&& 15)]

def podToHex {size : Nat} (s : Pod size) : List UInt8 := toHex s.bytes

def toLowerHex (c : UInt8) : UInt8 := if 65 ≤ c ∧ c ≤ 70 then c + 32 else c

/-! ## Digits and bytes -/

theorem fromHexCharacter_hexDigit : ∀ value : UInt8, value < 16 →
    fromHexCharacter (hexDigit value) = some value := by
  decide +kernel

theorem hexDigit_of_fromHexCharacter : ∀ c value : UInt8, fromHexCharacter c = some value →
    value < 16 ∧ hexDigit value = toLowerHex c := by
  intro c
  have rows : ∀ c : UInt8, characterValue c ≤ 0x0f →
      characterValue c < 16 ∧ hexDigit (characterValue c) = toLowerHex c := by
    decide +kernel
  intro value read
  unfold fromHexCharacter at read
  split at read
  · cases read
  · rename_i digit
    cases read
    exact rows c (by simpa using digit)

theorem halves_lt : ∀ byte : UInt8, byte >>> 4 < 16 ∧ byte &&& 15 < 16 := by
  decide +kernel

theorem shiftLeft_or_halves : ∀ byte : UInt8, (byte >>> 4) <<< 4 ||| (byte &&& 15) = byte := by
  decide +kernel

theorem halves_shiftLeft_or {high low : UInt8} (highSmall : high < 16) (lowSmall : low < 16) :
    (high <<< 4 ||| low) >>> 4 = high ∧ (high <<< 4 ||| low) &&& 15 = low := by
  have table : ∀ high low : Fin 16,
      (high.val.toUInt8 <<< 4 ||| low.val.toUInt8) >>> 4 = high.val.toUInt8 ∧
        (high.val.toUInt8 <<< 4 ||| low.val.toUInt8) &&& 15 = low.val.toUInt8 := by
    decide
  have cases := table ⟨high.toNat, by simpa [UInt8.lt_iff_toNat_lt] using highSmall⟩
    ⟨low.toNat, by simpa [UInt8.lt_iff_toNat_lt] using lowSmall⟩
  simpa using cases

/-! ## Reading back what `toHex` writes -/

@[simp] theorem toHex_nil : toHex [] = [] := rfl

@[simp] theorem toHex_cons (byte : UInt8) (data : List UInt8) :
    toHex (byte :: data) = hexDigit (byte >>> 4) :: hexDigit (byte &&& 15) :: toHex data := rfl

@[simp] theorem length_toHex (data : List UInt8) : (toHex data).length = 2 * data.length := by
  induction data with
  | nil => rfl
  | cons byte data ih =>
      rw [toHex_cons, List.length_cons, List.length_cons, ih, List.length_cons]
      omega

theorem fromHexPairs_toHex (data : List UInt8) : fromHexPairs (toHex data) = some data := by
  induction data with
  | nil => rfl
  | cons byte data ih =>
      obtain ⟨highSmall, lowSmall⟩ := halves_lt byte
      simp only [toHex_cons, fromHexPairs, fromHexCharacter_hexDigit _ highSmall,
        fromHexCharacter_hexDigit _ lowSmall, ih, shiftLeft_or_halves, Option.bind_eq_bind,
        Option.bind_some, Option.pure_def]

theorem fromHex_toHex (data : List UInt8) {bufferSize : Nat} (fits : data.length ≤ bufferSize) :
    fromHex (toHex data) bufferSize = some data := by
  have even : (toHex data).length % 2 = 0 := by
    rw [length_toHex]
    omega
  have small : ¬(toHex data).length / 2 > bufferSize := by
    rw [length_toHex]
    omega
  rw [fromHex, if_neg (not_not.mpr even), if_neg small, fromHexPairs_toHex]

/-! ## What `fromHex` accepts -/

theorem toHex_of_fromHexPairs :
    ∀ {text bytes : List UInt8}, text.length % 2 = 0 → fromHexPairs text = some bytes →
      text.length = 2 * bytes.length ∧ toHex bytes = text.map toLowerHex
  | [], bytes, _, read => by
      cases read
      exact ⟨rfl, rfl⟩
  | [_], _, odd, _ => by simp at odd
  | first :: second :: rest, bytes, even, read => by
      simp only [fromHexPairs, Option.bind_eq_bind, Option.pure_def, Option.bind_eq_some_iff,
        Option.some.injEq] at read
      obtain ⟨value1, firstRead, value2, secondRead, later, laterRead, rfl⟩ := read
      obtain ⟨highSmall, highDigit⟩ := hexDigit_of_fromHexCharacter first value1 firstRead
      obtain ⟨lowSmall, lowDigit⟩ := hexDigit_of_fromHexCharacter second value2 secondRead
      obtain ⟨high, low⟩ := halves_shiftLeft_or highSmall lowSmall
      have restEven : rest.length % 2 = 0 := by
        simp only [List.length_cons] at even
        omega
      obtain ⟨restLength, restText⟩ := toHex_of_fromHexPairs restEven laterRead
      refine ⟨by simp [restLength]; omega, ?_⟩
      rw [toHex_cons, high, low, highDigit, lowDigit, restText, List.map_cons, List.map_cons]

theorem toHex_of_fromHex {text bytes : List UInt8} {bufferSize : Nat}
    (read : fromHex text bufferSize = some bytes) :
    text.length = 2 * bytes.length ∧ toHex bytes = text.map toLowerHex := by
  unfold fromHex at read
  split at read
  · cases read
  · rename_i even
    split at read
    · cases read
    · exact toHex_of_fromHexPairs (by simpa using even) read

theorem podFromHex_podToHex_self {size : Nat} (pod : Pod size) :
    podFromHex size (podToHex pod) = some pod := by
  unfold podFromHex podToHex
  rw [fromHex_toHex pod.bytes pod.length_eq.le]
  simp [pod.length_eq]

theorem podToHex_of_podFromHex {size : Nat} {text : List UInt8} {pod : Pod size}
    (accepted : podFromHex size text = some pod) :
    text.length = 2 * size ∧ podToHex pod = text.map toLowerHex := by
  unfold podFromHex at accepted
  split at accepted
  · cases accepted
  · rename_i bytes read
    split at accepted
    · rename_i fits
      cases accepted
      obtain ⟨length, written⟩ := toHex_of_fromHex read
      exact ⟨fits ▸ length, written⟩
    · cases accepted

/-- `podFromHex` reads back what `podToHex` writes, and a text it accepts is the text `podToHex`
writes for the POD it reads, up to the case of its digits. -/
theorem podFromHex_podToHex {size : Nat} :
    (∀ pod : Pod size, podFromHex size (podToHex pod) = some pod) ∧
      ∀ (text : List UInt8) (pod : Pod size), podFromHex size text = some pod →
        text.length = 2 * size ∧ podToHex pod = text.map toLowerHex :=
  ⟨podFromHex_podToHex_self, fun _ _ accepted => podToHex_of_podFromHex accepted⟩

end Common

end Dynex
