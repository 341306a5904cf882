import Dynex.Lib.MeteredReader
import Dynex.Common.StreamTools
import Dynex.Common.JsonValue
import Dynex.Serialization.KVBinaryCommon
import Dynex.Serialization.JsonInputValueSerializer

/-!
# Parsing the key-value binary format

`parseBinary` of `KVBinaryInputStreamSerializer.cpp` and the readers and loaders it is built
from. The stream is a `Tape`: `str.resize(size)` in `readString` and `name.resize(len)` in
`readName` reserve storage on it before the bytes are read, so what a parse reserves is
observable even when it then throws.

`loadSection`, `loadEntry`, `loadValue` and `loadArray` call each other without a limit in the
source. The model gives each call one unit of a nesting budget and throws `nestingExhausted`
once it is spent, so the budget is the depth of the recursion; `parseBinary` starts with a
budget that no input of its length exhausts (`parseBinary_never_exhausted`).
-/

set_option autoImplicit false

namespace Dynex.KVBinaryInputStreamSerializer

open Codec Common

def readByte : Loader UInt8 := Loader.ofReader Common.readByte

def readPod (size : Nat) : Loader (List UInt8) := Loader.ofReader (Common.read size)

/-- The `switch (size_mask)` of `readVarint`: how many bytes follow the first. -/
def bytesLeftOf (size_mask : UInt8) : Nat :=
  if size_mask = PORTABLE_RAW_SIZE_MARK_BYTE then 0
  else if size_mask = PORTABLE_RAW_SIZE_MARK_WORD then 1
  else if size_mask = PORTABLE_RAW_SIZE_MARK_DWORD then 3
  else if size_mask = PORTABLE_RAW_SIZE_MARK_INT64 then 7
  else 0

/-- The `for` loop of `readVarint`: byte `i` goes to bits `8 i` and up. -/
def readVarintLoop : Nat → Nat → Nat → Loader Nat
  | _, 0, value => pure value
  | i, bytesLeft + 1, value => do
      let n ← readByte
      readVarintLoop (i + 1) bytesLeft (value ||| n.toNat <<< (i * 8))

/-- `readVarint`: the low two bits of the first byte say how many bytes make up the
little-endian word, and the value is that word shifted right by two. -/
def readVarint : Loader Nat := do
  let b ← readByte
  let size_mask := b &&& PORTABLE_RAW_SIZE_MARK_MASK
  let value ← readVarintLoop 1 (bytesLeftOf size_mask) b.toNat
  pure (value >>> 2)

/-- `readString`: the length, storage for that many bytes, then the bytes. -/
def readString : Loader (List UInt8) := do
  let size ← readVarint
  Loader.reserve size
  if size ≠ 0 then readPod size else pure []

/-- `readName`: a length byte, then the name; a length of zero leaves `name` as it was. -/
def readName (name : List UInt8) : Loader (List UInt8) := do
  let len ← readByte
  if len ≠ 0 then do
    Loader.reserve len.toNat
    readPod len.toNat
  else pure name

def readIntegerJson (width : Nat) (toInteger : Nat → Int64) : Loader JsonValue := do
  let bytes ← readPod width
  pure (.integer (toInteger (leValue bytes)))

/-- One round of the loop of `loadSection`: `readName(stream, name)`, then
`sec.insert(name, loadEntry(stream))`. -/
def sectionRound (loadEntry : Loader JsonValue) (state : List UInt8 × JsonValue) :
    Loader (List UInt8 × JsonValue) := do
  let name ← readName state.1
  let entry ← loadEntry
  let sec ← Loader.ofExcept (state.2.insert name entry)
  pure (name, sec)

def arrayRound (loadValue : Loader JsonValue) (arr : JsonValue) : Loader JsonValue := do
  let value ← loadValue
  Loader.ofExcept (arr.pushBack value)

def nestingExhausted : String := "nesting budget exhausted"

mutual

/-- `loadSection`: the entry count, then each entry's name and value. The name is kept from one
entry to the next, and `insert` keeps the first value under a name. -/
def loadSection : Nat → Loader JsonValue
  | 0 => throw nestingExhausted
  | fuel + 1 => do
      let count ← readVarint
      let (_, sec) ← Loader.loop (sectionRound (loadEntry fuel)) count ([], .object [])
      pure sec

/-- `loadValue(stream, type)`: the `switch` over the value types. -/
def loadValue : Nat → UInt8 → Loader JsonValue
  | 0, _ => throw nestingExhausted
  | fuel + 1, type =>
      if type = BIN_KV_SERIALIZE_TYPE_INT64 then
        readIntegerJson 8 fun n => (UInt64.ofNat n).toInt64
      else if type = BIN_KV_SERIALIZE_TYPE_INT32 then
        readIntegerJson 4 fun n => (UInt32.ofNat n).toInt32.toInt64
      else if type = BIN_KV_SERIALIZE_TYPE_INT16 then
        readIntegerJson 2 fun n => (UInt16.ofNat n).toInt16.toInt64
      else if type = BIN_KV_SERIALIZE_TYPE_INT8 then
        readIntegerJson 1 fun n => (UInt8.ofNat n).toInt8.toInt64
      else if type = BIN_KV_SERIALIZE_TYPE_UINT64 then
        readIntegerJson 8 fun n => (UInt64.ofNat n).toInt64
      else if type = BIN_KV_SERIALIZE_TYPE_UINT32 then
        readIntegerJson 4 fun n => (UInt32.ofNat n).toUInt64.toInt64
      else if type = BIN_KV_SERIALIZE_TYPE_UINT16 then
        readIntegerJson 2 fun n => (UInt16.ofNat n).toUInt64.toInt64
      else if type = BIN_KV_SERIALIZE_TYPE_UINT8 then
        readIntegerJson 1 fun n => (UInt8.ofNat n).toUInt64.toInt64
      else if type = BIN_KV_SERIALIZE_TYPE_DOUBLE then do
        let bytes ← readPod 8
        pure (.real (UInt64.ofNat (leValue bytes)))
      else if type = BIN_KV_SERIALIZE_TYPE_BOOL then do
        let byte ← readByte
        pure (.bool (byte ≠ 0))
      else if type = BIN_KV_SERIALIZE_TYPE_STRING then do
        let str ← readString
        pure (.string str)
      else if type = BIN_KV_SERIALIZE_TYPE_OBJECT then loadSection fuel
      else if type = BIN_KV_SERIALIZE_TYPE_ARRAY then loadArray fuel type
      else throw "Unknown data type"

/-- `loadEntry`: the type byte; with the array flag set, an array of the remaining type. -/
def loadEntry : Nat → Loader JsonValue
  | 0 => throw nestingExhausted
  | fuel + 1 => do
      let type ← readByte
      if type &&& BIN_KV_SERIALIZE_FLAG_ARRAY ≠ 0 then
        loadArray fuel (type &&& ~~~BIN_KV_SERIALIZE_FLAG_ARRAY)
      else loadValue fuel type

/-- `loadArray(stream, itemType)`: the element count, then each element. -/
def loadArray : Nat → UInt8 → Loader JsonValue
  | 0, _ => throw nestingExhausted
  | fuel + 1, itemType => do
      let count ← readVarint
      Loader.loop (arrayRound (loadValue fuel itemType)) count (.array [])

end

def readHeader : Loader KVBinaryStorageBlockHeader := do
  let bytes ← readPod 9
  pure (KVBinaryStorageBlockHeader.ofBytes bytes)

/-- `parseBinary` with a nesting budget of `fuel`. -/
def parseBinaryWith (fuel : Nat) : Loader JsonValue := do
  let hdr ← readHeader
  if hdr.m_signature_a ≠ PORTABLE_STORAGE_SIGNATUREA ∨
      hdr.m_signature_b ≠ PORTABLE_STORAGE_SIGNATUREB then
    throw "Invalid binary storage signature"
  if hdr.m_ver ≠ PORTABLE_STORAGE_FORMAT_VER then
    throw "Unknown binary storage format version"
  loadSection fuel

def nestingBudget (length : Nat) : Nat := 2 * length + 1

def parseBinary : Loader JsonValue := do
  let tape ← get
  parseBinaryWith (nestingBudget tape.input.length)

/-! ## The serializer

`KVBinaryInputStreamSerializer` reads the tree `parseBinary` builds with the members of
`JsonInputValueSerializer`, except `binary`. -/

/-- The constructor: `JsonInputValueSerializer(parseBinary(strm))` over a stream of `input`. -/
def create (input : List UInt8) : Except String JsonInputValueSerializer :=
  match parseBinary ⟨input, 0⟩ with
  | .ok value _ => JsonInputValueSerializer.create value
  | .error message _ => throw message

/-- `binary(value, size, name)`: the block is read as a string, which must have the block's
size. -/
def binary (value : List UInt8) (name : List UInt8) :
    JsonInputValueSerializer.ValueReader (List UInt8 × Bool) := do
  let (str, found) ← JsonInputValueSerializer.operatorString [] name
  if !found then return (value, false)
  if str.length ≠ value.length then throw "Binary block size mismatch"
  return (str, true)

open JsonInputValueSerializer in
@[simps] def serializer : ISerializer ValueReader where
  type := .INPUT
  beginObject := beginObject
  endObject := endObject
  beginArray := beginArray
  endArray := endArray
  uint8 := operatorUInt8
  int16 := operatorInt16
  uint16 := operatorUInt16
  int32 := operatorInt32
  uint32 := operatorUInt32
  int64 := operatorInt64
  uint64 := operatorUInt64
  double := operatorDouble
  bool := operatorBool
  string := operatorString
  binary := binary

end Dynex.KVBinaryInputStreamSerializer
