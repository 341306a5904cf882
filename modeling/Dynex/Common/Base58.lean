import Dynex.Lib.FixedWidthDigits
import Dynex.Common.IntUtil
import Dynex.Common.Varint
import Dynex.Crypto.Types

/-!
# Base58

`Tools::Base58` of `Common/Base58.cpp`. The encoder cuts data into blocks of eight bytes, reads
each as a big-endian number and writes it as eleven base-58 digits, most significant first. A
last, shorter block of `n` bytes gets `encoded_block_sizes[n]` digits. The decoder maps the
letters back and accumulates the block's value through `mul128`, refusing a product or a sum
past 64 bits. It then refuses a value that does not fit the block's bytes, and writes the value
big-endian. An address is a varint tag, the data and the first four bytes of `cn_fast_hash` of
both, encoded.

Strings are their bytes. The tables that the constructors of `reverse_alphabet` and
`decoded_block_sizes` fill at start-up are computed here the same way.
-/

set_option autoImplicit false

namespace Dynex.Tools.Base58

open FixedWidthDigits

/-- `alphabet`: the ASCII codes of
`123456789ABCDEFGHJKLMNPQRSTUVWXYZabcdefghijkmnopqrstuvwxyz`. -/
def alphabet : List UInt8 :=
  [49, 50, 51, 52, 53, 54, 55, 56, 57,
    65, 66, 67, 68, 69, 70, 71, 72, 74, 75, 76, 77, 78, 80, 81, 82, 83, 84, 85, 86, 87, 88, 89, 90,
    97, 98, 99, 100, 101, 102, 103, 104, 105, 106, 107, 109, 110, 111, 112, 113, 114, 115, 116,
    117, 118, 119, 120, 121, 122]

def alphabet_size : Nat := 58

def encoded_block_sizes : List Nat := [0, 2, 3, 5, 6, 7, 9, 10, 11]

def full_block_size : Nat := 8

def full_encoded_block_size : Nat := 11

def addr_checksum_size : Nat := 4

/-- The table of `reverse_alphabet`: `-1` for every code from `alphabet[0]` to the last letter,
then the index `i` at `alphabet[i] - alphabet[0]`. -/
def reverseAlphabetData : List Int :=
  (List.range alphabet_size).foldl
    (fun data i => data.set ((alphabet.getD i 0).toNat - (alphabet.getD 0 0).toNat) i)
    (List.replicate ((alphabet.getD (alphabet_size - 1) 0).toNat - (alphabet.getD 0 0).toNat + 1)
      (-1))

/-- `reverse_alphabet::operator()(letter)`. The letter is a `char`, negative past 127; a letter
below `alphabet[0]` makes the index negative, and `size_t` turns it past the table. -/
def reverse_alphabet (letter : UInt8) : Int :=
  let idx : Int :=
    (if letter.toNat < 128 then (letter.toNat : Int) else (letter.toNat : Int) - 256) -
      (alphabet.getD 0 0).toNat
  if 0 ≤ idx ∧ idx.toNat < reverseAlphabetData.length then reverseAlphabetData.getD idx.toNat (-1)
  else -1

/-- The table of `decoded_block_sizes`: `-1`, then `i` at `encoded_block_sizes[i]`. -/
def decodedBlockSizesData : List Int :=
  (List.range (full_block_size + 1)).foldl
    (fun data i => data.set (encoded_block_sizes.getD i 0) i)
    (List.replicate (full_encoded_block_size + 1) (-1))

def decoded_block_sizes (encoded_block_size : Nat) : Int :=
  decodedBlockSizesData.getD encoded_block_size (-1)

def uint_8be_to_64 (data : List UInt8) : Nat :=
  data.foldl (fun res byte => res <<< 8 ||| byte.toNat) 0

def uint_64_to_8be (num size : Nat) : List UInt8 :=
  ((List.range 8).map fun j => (num >>> (8 * (7 - j))).toUInt8).drop (8 - size)

/-- The loop of `encode_block`: while `num` is positive, its last base-58 digit goes to `res[i]`
and `i` moves one place left. The places of a block hold every digit of its number, so the
`fuel` of one round a place never runs out first. -/
def encodeBlockLoop : Nat → Nat → Int → List UInt8 → List UInt8
  | 0, _, _, res => res
  | fuel + 1, num, i, res =>
      if 0 < num then
        encodeBlockLoop fuel (num / alphabet_size) (i - 1)
          (res.set i.toNat (alphabet.getD (num % alphabet_size) 0))
      else res

/-- `encode_block(block, size, res)`, on the `encoded_block_sizes[size]` places of `res` that
`encode` fills with `alphabet[0]`. -/
def encode_block (block : List UInt8) : List UInt8 :=
  let size := encoded_block_sizes.getD block.length 0
  encodeBlockLoop size (uint_8be_to_64 block) ((size : Int) - 1)
    (List.replicate size (alphabet.getD 0 0))

/-- The loop of `decode_block`, over the letters from the last to the first: the digit times
`order`, formed by `mul128`, is added to `res_num`; an invalid letter, a product past 64 bits or
a carry out of the sum refuses the block. -/
def decodeBlockLoop : List UInt8 → UInt64 → UInt64 → Option UInt64
  | [], res_num, _ => some res_num
  | letter :: earlier, res_num, order =>
      let digit := reverse_alphabet letter
      if digit < 0 then none
      else
        let product := IntUtil.mul128 order digit.toNat.toUInt64
        let tmp := res_num + product.1
        if tmp < res_num ∨ product.2 ≠ 0 then none
        else decodeBlockLoop earlier tmp (order * alphabet_size.toUInt64)

/-- `decode_block(block, size, res)`: the block's bytes when it returns true. -/
def decode_block (block : List UInt8) : Option (List UInt8) :=
  let res_size := decoded_block_sizes block.length
  if res_size ≤ 0 then none
  else
    match decodeBlockLoop block.reverse 0 1 with
    | none => none
    | some res_num =>
        if res_size.toNat < full_block_size ∧ 2 ^ (8 * res_size.toNat) ≤ res_num.toNat then none
        else some (uint_64_to_8be res_num.toNat res_size.toNat)

/-- `Tools::Base58::encode(data)`: each block's digits in its own places of the result. -/
def encode (data : List UInt8) : List UInt8 :=
  if data = [] then []
  else
    let full_block_count := data.length / full_block_size
    let last_block_size := data.length % full_block_size
    (blocks full_block_size full_block_count data).flatMap encode_block ++
      if 0 < last_block_size then encode_block (data.drop (full_block_count * full_block_size))
      else []

/-- `Tools::Base58::decode(enc, data)`: the data when it returns true. -/
def decode (enc : List UInt8) : Option (List UInt8) :=
  if enc = [] then some []
  else
    let full_block_count := enc.length / full_encoded_block_size
    let last_block_size := enc.length % full_encoded_block_size
    let last_block_decoded_size := decoded_block_sizes last_block_size
    if last_block_decoded_size < 0 then none
    else do
      let full ← (blocks full_encoded_block_size full_block_count enc).mapM decode_block
      let last ← (if 0 < last_block_size then
          decode_block (enc.drop (full_block_count * full_encoded_block_size))
        else some [] : Option (List UInt8))
      pure (full.flatten ++ last)

/-- `Tools::Base58::encode_addr(tag, data)`, with `cn_fast_hash` as `hash`. -/
def encode_addr (hash : List UInt8 → Crypto.Hash) (tag : UInt64) (data : List UInt8) :
    List UInt8 :=
  let buf := write_varint tag.toNat ++ data
  encode (buf ++ (hash buf).pod.bytes.take addr_checksum_size)

/-- `Tools::Base58::decode_addr(addr, tag, data)`: the tag and the data when it returns true. -/
def decode_addr (hash : List UInt8 → Crypto.Hash) (addr : List UInt8) :
    Option (UInt64 × List UInt8) := do
  let addr_data ← decode addr
  if addr_data.length ≤ addr_checksum_size then none
  else
    let checksum := addr_data.drop (addr_data.length - addr_checksum_size)
    let payload := addr_data.take (addr_data.length - addr_checksum_size)
    let expected_checksum := (hash payload).pod.bytes.take addr_checksum_size
    if expected_checksum ≠ checksum then none
    else
      let read := read_varint 64 payload
      if read.1 ≤ 0 then none
      else some (read.2.toUInt64, payload.drop read.1.toNat)

end Dynex.Tools.Base58
