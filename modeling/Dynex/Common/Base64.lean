import Mathlib

/-!
# Base64

`Tools::Base64::encode` of `Common/Base64.cpp` and `Common::base64Decode` of
`Common/StringTools.cpp`. The encoder takes the data three bytes at a time and writes four
letters of six bits each, fewer for a last group of one or two bytes, then pads with `=` to four
letters per started group. The decoder collects letters up to the first `=` or non-letter and
turns each four into three bytes; a last group of `i` letters gives `i - 1` bytes.

Strings are their bytes. The encoder widens each `char` with `static_cast<size_t>`, and `char`
is signed on the hosts the node is built for, so a byte past 127 becomes a number just below
`2 ^ 64`; its shifts then index far past the 64 letters of `encodingTable`. The model reads the
table through `tableAt`, which is `none` past the letters, and `encode` is `none` when a read
falls outside. The indices are computed in `Nat`: no operation of the encoder overflows 64 bits,
so `size_t` arithmetic is exact there.
-/

set_option autoImplicit false

namespace Dynex

def base64Letters : List UInt8 :=
  ((List.range 26).map (65 + ·) ++ (List.range 26).map (97 + ·) ++ (List.range 10).map (48 + ·) ++
    [43, 47]).map Nat.toUInt8

def paddingLetter : UInt8 := 61

namespace Tools.Base64

def sizeOfChar (c : UInt8) : Nat :=
  if c.toNat < 128 then c.toNat else 2 ^ 64 - 256 + c.toNat

def tableAt (index : Nat) : Option UInt8 := base64Letters[index]?

/-- One round of the loop of `encode`, for the group of `data[i]`, `data[i + 1]` and
`data[i + 2]`; the last two are `none` past the end of the data, and then read as 0. -/
def encodeGroup (first : UInt8) (second third : Option UInt8) : Option (List UInt8) := do
  let a := sizeOfChar first
  let b := (second.map sizeOfChar).getD 0
  let c := (third.map sizeOfChar).getD 0
  let letter0 ← tableAt (a >>> 2)
  let letter1 ← tableAt (((a &&& 0x3) <<< 4) ||| (b >>> 4))
  let later ← if second.isSome then do
      let letter2 ← tableAt (((b &&& 0xF) <<< 2) ||| (c >>> 6))
      if third.isSome then do
        let letter3 ← tableAt (c &&& 0x3F)
        pure [letter2, letter3]
      else pure [letter2]
    else pure []
  pure (letter0 :: letter1 :: later)

/-- The loop `for (size_t i = 0; i < data.size(); i += 3)` of `encode`. -/
def encodeLoop : List UInt8 → Option (List UInt8)
  | [] => some []
  | [first] => encodeGroup first none none
  | [first, second] => encodeGroup first (some second) none
  | first :: second :: third :: rest => do
      let group ← encodeGroup first (some second) (some third)
      let later ← encodeLoop rest
      pure (group ++ later)

/-- `Tools::Base64::encode(data)`: the letters, padded with `=` up to
`resultSize = 4 * ((data.size() + 2) / 3)`. -/
def encode (data : List UInt8) : Option (List UInt8) := do
  let resultSize := 4 * ((data.length + 2) / 3)
  let result ← encodeLoop data
  pure (result ++ List.replicate (resultSize - result.length) paddingLetter)

end Tools.Base64

namespace Common

def isalnum (c : UInt8) : Bool :=
  (48 ≤ c && c ≤ 57) || (65 ≤ c && c ≤ 90) || (97 ≤ c && c ≤ 122)

def is_base64 (c : UInt8) : Bool := isalnum c || c == 43 || c == 47

/-- `(unsigned char)base64chars.find(c)`: the letter's index, or `npos` cut to 255. -/
def findLetter (c : UInt8) : UInt8 :=
  match base64Letters.idxOf? c with
  | some index => index.toUInt8
  | none => 255

/-- `char_array_3` from `char_array_4`: three bytes from four six-bit indices, in
`unsigned char` arithmetic. -/
def decodeQuad (indices : List UInt8) : List UInt8 :=
  let index0 := indices.getD 0 0
  let index1 := indices.getD 1 0
  let index2 := indices.getD 2 0
  let index3 := indices.getD 3 0
  [(index0 <<< 2) + ((index1 &&& 0x30) >>> 4), ((index1 &&& 0xf) <<< 4) + ((index2 &&& 0x3c) >>> 2),
    ((index2 &&& 0x3) <<< 6) + index3]

/-- The `while` loop of `base64Decode`: `pending` holds the letters of the group so far
(`char_array_4` up to `i`) and `ret` the bytes; the loop stops at the first `=` or non-letter.
Returns the pending letters and the bytes. -/
def decodeLoop (pending ret : List UInt8) : List UInt8 → List UInt8 × List UInt8
  | [] => (pending, ret)
  | c :: rest =>
      if c = paddingLetter ∨ is_base64 c = false then (pending, ret)
      else if pending.length + 1 = 4 then
        decodeLoop [] (ret ++ decodeQuad ((pending ++ [c]).map findLetter)) rest
      else decodeLoop (pending ++ [c]) ret rest

/-- `Common::base64Decode(encoded_string)`. A last group of `i` letters is completed with zero
bytes, which `find` does not know, and gives its first `i - 1` bytes. -/
def base64Decode (encoded_string : List UInt8) : List UInt8 :=
  let state := decodeLoop [] [] encoded_string
  let pending := state.1
  let ret := state.2
  if pending.length = 0 then ret
  else
    let padded := pending ++ List.replicate (4 - pending.length) 0
    ret ++ (decodeQuad (padded.map findLetter)).take (pending.length - 1)

end Common

end Dynex
