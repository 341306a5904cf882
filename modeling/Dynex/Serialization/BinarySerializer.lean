import Dynex.Common.StreamTools
import Dynex.Crypto.Types

/-!
# The binary stream serializers

`BinaryInputStreamSerializer` and `BinaryOutputStreamSerializer`, one field kind at a time:
unsigned integers as varints of their own width, PODs as raw bytes (`serializePod`), strings
and blobs behind a varint length, containers behind a varint count (`serializeContainer`).
Each reader reads back what its writer wrote, and every input it accepts is that writing.
-/

set_option autoImplicit false

namespace Dynex

open Codec Common Crypto

/-- An unsigned field type of the serializers: its width and its conversions to `Nat`. -/
structure Unsigned (T : Type) where
  bits : Nat
  toNat : T → Nat
  ofNat : Nat → T
  toNat_lt : ∀ value, toNat value < 2 ^ bits
  ofNat_toNat : ∀ value, ofNat (toNat value) = value
  toNat_ofNat : ∀ {n}, n < 2 ^ bits → toNat (ofNat n) = n
  bits_le : bits ≤ 64

namespace Unsigned

variable {T : Type} (width : Unsigned T)

def read : Reader T := width.ofNat <$> readVarint width.bits

def write (value : T) : List UInt8 := writeVarint (width.toNat value).toUInt64

theorem toNat_toUInt64 (value : T) : (width.toNat value).toUInt64.toNat = width.toNat value :=
  UInt64.toNat_ofNat_of_lt'
    (Nat.lt_of_lt_of_le (width.toNat_lt value) (Nat.pow_le_pow_right (by decide) width.bits_le))

theorem readsBack (value : T) : ReadsBack width.read (width.write value) value := by
  have fits : (width.toNat value).toUInt64.toNat < 2 ^ width.bits := by
    rw [width.toNat_toUInt64]
    exact width.toNat_lt value
  have read := ReadsBack.map width.ofNat (readVarint_writeVarint _ fits)
  rwa [width.toNat_toUInt64, width.ofNat_toNat] at read

theorem canonical {input rest : List UInt8} {value : T}
    (accepted : width.read input = .ok (value, rest)) : input = width.write value ++ rest := by
  obtain ⟨n, read, rfl⟩ := Reader.map_apply_ok.mp accepted
  obtain ⟨fits, rfl⟩ := readVarint_canonical width.bits_le read
  rw [write, width.toNat_ofNat fits]

end Unsigned

def uint8 : Unsigned UInt8 where
  bits := 8
  toNat := UInt8.toNat
  ofNat := Nat.toUInt8
  toNat_lt := UInt8.toNat_lt
  ofNat_toNat _ := UInt8.ofNat_toNat
  toNat_ofNat := UInt8.toNat_ofNat_of_lt'
  bits_le := by decide

def uint16 : Unsigned UInt16 where
  bits := 16
  toNat := UInt16.toNat
  ofNat := Nat.toUInt16
  toNat_lt := UInt16.toNat_lt
  ofNat_toNat _ := UInt16.ofNat_toNat
  toNat_ofNat := UInt16.toNat_ofNat_of_lt'
  bits_le := by decide

def uint32 : Unsigned UInt32 where
  bits := 32
  toNat := UInt32.toNat
  ofNat := Nat.toUInt32
  toNat_lt := UInt32.toNat_lt
  ofNat_toNat _ := UInt32.ofNat_toNat
  toNat_ofNat := UInt32.toNat_ofNat_of_lt'
  bits_le := by decide

def uint64 : Unsigned UInt64 where
  bits := 64
  toNat := UInt64.toNat
  ofNat := Nat.toUInt64
  toNat_lt := UInt64.toNat_lt
  ofNat_toNat _ := UInt64.ofNat_toNat
  toNat_ofNat := UInt64.toNat_ofNat_of_lt'
  bits_le := Nat.le_refl 64

/-! ## PODs -/

def readPod (size : Nat) : Reader (Pod size) := fun input =>
  if enough : size ≤ input.length then .ok (⟨input.take size, by simp [enough]⟩, input.drop size)
  else .error "Failed to read from IInputStream"

theorem readPod_readsBack {size : Nat} (pod : Pod size) : ReadsBack (readPod size) pod.bytes pod := by
  intro rest
  obtain ⟨bytes, rfl⟩ := pod
  simp [readPod]

theorem readPod_canonical {size : Nat} {input rest : List UInt8} {pod : Pod size}
    (accepted : readPod size input = .ok (pod, rest)) : input = pod.bytes ++ rest := by
  simp only [readPod] at accepted
  split at accepted
  · simp only [Except.ok.injEq, Prod.mk.injEq] at accepted
    obtain ⟨rfl, rfl⟩ := accepted
    exact (List.take_append_drop size input).symm
  · cases accepted

def readHash : Reader Hash := Hash.mk <$> readPod 32
def readPublicKey : Reader PublicKey := PublicKey.mk <$> readPod 32
def readKeyImage : Reader KeyImage := KeyImage.mk <$> readPod 32
def readSignature : Reader Signature := Signature.mk <$> readPod 64

theorem readHash_readsBack (hash : Hash) : ReadsBack readHash hash.pod.bytes hash :=
  ReadsBack.map Hash.mk (readPod_readsBack hash.pod)

theorem readPublicKey_readsBack (key : PublicKey) : ReadsBack readPublicKey key.pod.bytes key :=
  ReadsBack.map PublicKey.mk (readPod_readsBack key.pod)

theorem readKeyImage_readsBack (image : KeyImage) : ReadsBack readKeyImage image.pod.bytes image :=
  ReadsBack.map KeyImage.mk (readPod_readsBack image.pod)

theorem readSignature_readsBack (signature : Signature) :
    ReadsBack readSignature signature.pod.bytes signature :=
  ReadsBack.map Signature.mk (readPod_readsBack signature.pod)

theorem readPod_map_canonical {size : Nat} {K : Type} {mk : Pod size → K} {pod : K → Pod size}
    (injective : ∀ raw, pod (mk raw) = raw) {input rest : List UInt8} {key : K}
    (accepted : (mk <$> readPod size) input = .ok (key, rest)) : input = (pod key).bytes ++ rest := by
  obtain ⟨raw, read, rfl⟩ := Reader.map_apply_ok.mp accepted
  rw [injective]
  exact readPod_canonical read

theorem readHash_canonical {input rest : List UInt8} {hash : Hash}
    (accepted : readHash input = .ok (hash, rest)) : input = hash.pod.bytes ++ rest :=
  readPod_map_canonical (fun _ => rfl) accepted

theorem readPublicKey_canonical {input rest : List UInt8} {key : PublicKey}
    (accepted : readPublicKey input = .ok (key, rest)) : input = key.pod.bytes ++ rest :=
  readPod_map_canonical (fun _ => rfl) accepted

theorem readKeyImage_canonical {input rest : List UInt8} {image : KeyImage}
    (accepted : readKeyImage input = .ok (image, rest)) : input = image.pod.bytes ++ rest :=
  readPod_map_canonical (fun _ => rfl) accepted

theorem readSignature_canonical {input rest : List UInt8} {signature : Signature}
    (accepted : readSignature input = .ok (signature, rest)) : input = signature.pod.bytes ++ rest :=
  readPod_map_canonical (fun _ => rfl) accepted

/-! ## Strings and containers -/

def readString : Reader (List UInt8) := do
  let size ← readVarint 64
  read size

def writeString (value : List UInt8) : List UInt8 := writeVarint value.length.toUInt64 ++ value

theorem readString_readsBack {value : List UInt8} (fits : value.length < 2 ^ 64) :
    ReadsBack readString (writeString value) value := by
  have size := readVarint_writeVarint value.length.toUInt64
    (by rw [UInt64.toNat_ofNat_of_lt' fits]; exact fits)
  rw [UInt64.toNat_ofNat_of_lt' fits] at size
  exact ReadsBack.bind size (ReadsBack.takeBytes _ value)

theorem readString_canonical {input rest value : List UInt8}
    (accepted : readString input = .ok (value, rest)) : input = writeString value ++ rest := by
  simp only [readString, Reader.bind_apply_ok] at accepted
  obtain ⟨size, middle, sizeRead, bytesRead⟩ := accepted
  obtain ⟨fits, rfl⟩ := readVarint_canonical (Nat.le_refl 64) sizeRead
  obtain ⟨counted, rfl⟩ := takeBytes_ok bytesRead
  rw [writeString, counted, List.append_assoc]

def readArraySize : Reader Nat := readVarint 64

def writeArraySize (size : Nat) : List UInt8 := writeVarint size.toUInt64

def readContainer {α : Type} (reader : Reader α) : Reader (List α) := do
  let size ← readArraySize
  readMany reader size

def writeContainer {α : Type} (write : α → Written) (values : List α) : Written := do
  let elements ← writeMany write values
  pure (writeArraySize values.length ++ elements)

theorem readContainer_readsBack {α : Type} {reader : Reader α} {write : α → Written}
    {values : List α} {encoding : List UInt8}
    (each : ∀ value ∈ values, ∀ encoding, write value = .ok encoding → ReadsBack reader encoding value)
    (fits : values.length < 2 ^ 64) (written : writeContainer write values = .ok encoding) :
    ReadsBack (readContainer reader) encoding values := by
  simp only [writeContainer, written_bind_ok] at written
  obtain ⟨elements, elementsWritten, joined⟩ := written
  cases joined
  have size := readVarint_writeVarint values.length.toUInt64
    (by rw [UInt64.toNat_ofNat_of_lt' fits]; exact fits)
  rw [UInt64.toNat_ofNat_of_lt' fits] at size
  exact ReadsBack.bind size (ReadsBack.readMany values each elements elementsWritten)

theorem readContainer_canonical {α : Type} {reader : Reader α} {write : α → Written}
    (each : Canonical reader write) {input rest : List UInt8} {values : List α}
    (accepted : readContainer reader input = .ok (values, rest)) :
    ∃ encoding, writeContainer write values = .ok encoding ∧ input = encoding ++ rest := by
  simp only [readContainer, Reader.bind_apply_ok] at accepted
  obtain ⟨size, middle, sizeRead, elementsRead⟩ := accepted
  obtain ⟨fits, rfl⟩ := readVarint_canonical (Nat.le_refl 64) sizeRead
  obtain ⟨counted, elements, elementsWritten, rfl⟩ := Canonical.readMany each size elementsRead
  refine ⟨writeArraySize values.length ++ elements, ?_, ?_⟩
  · simp [writeContainer, elementsWritten]
  · rw [writeArraySize, counted, List.append_assoc]

end Dynex
