import Mathlib

/-!
# Crypto PODs

The fixed-size byte records of `CryptoTypes.h`. A value carries its own length, so a
hash of the wrong size cannot be built and the serializer never checks it.
-/

set_option autoImplicit false

namespace Dynex.Crypto

/-- `size` raw bytes, as the `uint8_t data[size]` arrays of `CryptoTypes.h`. -/
structure Pod (size : Nat) where
  bytes : List UInt8
  length_eq : bytes.length = size
  deriving DecidableEq, Repr

namespace Pod

def zero (size : Nat) : Pod size := ⟨List.replicate size 0, List.length_replicate⟩

def ofByte {size : Nat} (first : UInt8) : Pod (size + 1) :=
  ⟨first :: List.replicate size 0, by simp⟩

theorem ext_bytes {size : Nat} {left right : Pod size} (same : left.bytes = right.bytes) :
    left = right := by
  cases left; cases right; cases same; rfl

end Pod

structure Hash where
  pod : Pod 32
  deriving DecidableEq, Repr

structure PublicKey where
  pod : Pod 32
  deriving DecidableEq, Repr

structure SecretKey where
  pod : Pod 32
  deriving DecidableEq, Repr

structure KeyImage where
  pod : Pod 32
  deriving DecidableEq, Repr

structure Signature where
  pod : Pod 64
  deriving DecidableEq, Repr

def NULL_HASH : Hash := ⟨Pod.zero 32⟩

end Dynex.Crypto
