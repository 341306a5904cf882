import Dynex.Serialization.KVBinaryInputStreamSerializer
import Dynex.Serialization.KVBinaryOutputStreamSerializer

/-!
# Storing and loading a structure in the key-value form

`storeToBinaryKeyValue` and `loadFromBinaryKeyValue` of `SerializationTools.h`, on a structure
given as its fields. Both call the structure's `serialize` method directly, without
`beginObject`: the root's fields are the entries of the root section.
-/

set_option autoImplicit false

namespace Dynex

/-- `storeToBinaryKeyValue(v)`: an exception of the serializer propagates. -/
def storeToBinaryKeyValue (v : List (List UInt8 × KVValue)) : Except String (List UInt8) := do
  let s ← KVBinaryOutputStreamSerializer.init
  let (_, s) ← (KVBinaryOutputStreamSerializer.serializer.serializeFields v).run s
  s.dump

/-- The `try` block of `loadFromBinaryKeyValue(v, buf)`: what it leaves in `v`, or the
exception it throws. -/
def readBinaryKeyValue (v : List (List UInt8 × KVValue)) (buf : List UInt8) :
    Except String (List (List UInt8 × KVValue)) := do
  let s ← KVBinaryInputStreamSerializer.create buf
  (KVBinaryInputStreamSerializer.serializer.serializeFields v).run' s

def loadFromBinaryKeyValue (v : List (List UInt8 × KVValue)) (buf : List UInt8) :
    Option (List (List UInt8 × KVValue)) :=
  (readBinaryKeyValue v buf).toOption

end Dynex
