import Dynex.Lib.ByteCodec

/-!
# The key-value binary format

The constants of `KVBinaryCommon.h` and the packed storage header that both key-value
serializers share. Integers are stored as the little-endian machines the node runs on lay them
out in memory.
-/

set_option autoImplicit false

namespace Dynex

open Codec

def PORTABLE_STORAGE_SIGNATUREA : UInt32 := 0x01011101
def PORTABLE_STORAGE_SIGNATUREB : UInt32 := 0x01020101
def PORTABLE_STORAGE_FORMAT_VER : UInt8 := 1

def PORTABLE_RAW_SIZE_MARK_MASK : UInt8 := 0x03
def PORTABLE_RAW_SIZE_MARK_BYTE : UInt8 := 0
def PORTABLE_RAW_SIZE_MARK_WORD : UInt8 := 1
def PORTABLE_RAW_SIZE_MARK_DWORD : UInt8 := 2
def PORTABLE_RAW_SIZE_MARK_INT64 : UInt8 := 3

def BIN_KV_SERIALIZE_TYPE_INT64 : UInt8 := 1
def BIN_KV_SERIALIZE_TYPE_INT32 : UInt8 := 2
def BIN_KV_SERIALIZE_TYPE_INT16 : UInt8 := 3
def BIN_KV_SERIALIZE_TYPE_INT8 : UInt8 := 4
def BIN_KV_SERIALIZE_TYPE_UINT64 : UInt8 := 5
def BIN_KV_SERIALIZE_TYPE_UINT32 : UInt8 := 6
def BIN_KV_SERIALIZE_TYPE_UINT16 : UInt8 := 7
def BIN_KV_SERIALIZE_TYPE_UINT8 : UInt8 := 8
def BIN_KV_SERIALIZE_TYPE_DOUBLE : UInt8 := 9
def BIN_KV_SERIALIZE_TYPE_STRING : UInt8 := 10
def BIN_KV_SERIALIZE_TYPE_BOOL : UInt8 := 11
def BIN_KV_SERIALIZE_TYPE_OBJECT : UInt8 := 12
def BIN_KV_SERIALIZE_TYPE_ARRAY : UInt8 := 13
def BIN_KV_SERIALIZE_FLAG_ARRAY : UInt8 := 0x80

/-- `KVBinaryStorageBlockHeader`, packed to nine bytes. -/
structure KVBinaryStorageBlockHeader where
  m_signature_a : UInt32
  m_signature_b : UInt32
  m_ver : UInt8
  deriving DecidableEq, Repr

namespace KVBinaryStorageBlockHeader

def toBytes (hdr : KVBinaryStorageBlockHeader) : List UInt8 :=
  leBytes 4 hdr.m_signature_a.toNat ++ leBytes 4 hdr.m_signature_b.toNat ++ [hdr.m_ver]

/-- The header whose memory holds `bytes`, nine of them. -/
def ofBytes (bytes : List UInt8) : KVBinaryStorageBlockHeader where
  m_signature_a := UInt32.ofNat (leValue (bytes.take 4))
  m_signature_b := UInt32.ofNat (leValue ((bytes.drop 4).take 4))
  m_ver := (bytes.drop 8).headD 0

def portable : KVBinaryStorageBlockHeader :=
  ⟨PORTABLE_STORAGE_SIGNATUREA, PORTABLE_STORAGE_SIGNATUREB, PORTABLE_STORAGE_FORMAT_VER⟩

theorem ofBytes_toBytes (hdr : KVBinaryStorageBlockHeader) : ofBytes hdr.toBytes = hdr := by
  obtain ⟨a, b, ver⟩ := hdr
  have first : (leBytes 4 a.toNat ++ leBytes 4 b.toNat ++ [ver]).take 4 = leBytes 4 a.toNat := by
    simp
  have second : ((leBytes 4 a.toNat ++ leBytes 4 b.toNat ++ [ver]).drop 4).take 4 =
      leBytes 4 b.toNat := by
    simp
  have last : (leBytes 4 a.toNat ++ leBytes 4 b.toNat ++ [ver]).drop 8 = [ver] :=
    List.drop_left' (by simp)
  simp only [ofBytes, toBytes, first, second, last, leValue_leBytes, List.headD_cons]
  have fitsA : a.toNat % 256 ^ 4 = a.toNat := Nat.mod_eq_of_lt a.toNat_lt
  have fitsB : b.toNat % 256 ^ 4 = b.toNat := Nat.mod_eq_of_lt b.toNat_lt
  rw [fitsA, fitsB, UInt32.ofNat_toNat, UInt32.ofNat_toNat]

@[simp] theorem length_toBytes (hdr : KVBinaryStorageBlockHeader) : hdr.toBytes.length = 9 := by
  simp [toBytes]

end KVBinaryStorageBlockHeader

end Dynex
