import Mathlib

/-!
# The serializer interface and the values it carries

`ISerializer` of `ISerializer.h` and the overloads of `SerializationOverloads.h` that a
serialisable structure reaches through `serializer(value, name)`. The interface is a record of
its virtual members over the monad of a serializer's state. A member takes the value it is
passed by reference and returns the value it leaves there, with its `bool` result: an output
serializer reads the value and leaves it, an input serializer overwrites it when it finds the
name.

A `KVValue` is a value of a serialisable type. An integer, `bool`, `double`, string or
`std::array<uint8_t, N>` field calls the virtual member of its type; a structure goes through
`ISerializer::operator()(T&)`, which brackets its `serialize` method with `beginObject` and
`endObject`; a `std::vector<T>` goes through `serializeContainer`, and carries `T()`, the value
`resize` appends. The same `serializeValue` runs in both directions, as the one template does
in the source.
-/

set_option autoImplicit false

namespace Dynex

inductive SerializerType where
  | INPUT
  | OUTPUT
  deriving DecidableEq, Repr

/-- The virtual members of `ISerializer`. `beginArray` takes and returns the `size_t& size` of
the array; `binary` is `binary(void* value, size_t size, name)` on a block of `size` bytes. -/
structure ISerializer (m : Type → Type) where
  type : SerializerType
  beginObject : List UInt8 → m Bool
  endObject : m Unit
  beginArray : Nat → List UInt8 → m (Nat × Bool)
  endArray : m Unit
  uint8 : UInt8 → List UInt8 → m (UInt8 × Bool)
  int16 : Int16 → List UInt8 → m (Int16 × Bool)
  uint16 : UInt16 → List UInt8 → m (UInt16 × Bool)
  int32 : Int32 → List UInt8 → m (Int32 × Bool)
  uint32 : UInt32 → List UInt8 → m (UInt32 × Bool)
  int64 : Int64 → List UInt8 → m (Int64 × Bool)
  uint64 : UInt64 → List UInt8 → m (UInt64 × Bool)
  double : UInt64 → List UInt8 → m (UInt64 × Bool)
  bool : Bool → List UInt8 → m (Bool × Bool)
  string : List UInt8 → List UInt8 → m (List UInt8 × Bool)
  binary : List UInt8 → List UInt8 → m (List UInt8 × Bool)

/-- A value of a serialisable type. A `double` is kept as the bits of its memory; `binary` is a
`std::array<uint8_t, N>` with `N` its length; an `object` is a structure whose `serialize` method
serializes its fields in order under their names; `array item elements` is a `std::vector<T>`
with `item = T()`. -/
inductive KVValue where
  | uint8 (value : UInt8)
  | int16 (value : Int16)
  | uint16 (value : UInt16)
  | int32 (value : Int32)
  | uint32 (value : UInt32)
  | int64 (value : Int64)
  | uint64 (value : UInt64)
  | double (bits : UInt64)
  | bool (value : Bool)
  | string (value : List UInt8)
  | binary (bytes : List UInt8)
  | object (fields : List (List UInt8 × KVValue))
  | array (item : KVValue) (elements : List KVValue)
  deriving Repr, Inhabited

namespace ISerializer

variable {m : Type → Type} [Monad m] (s : ISerializer m)

mutual

/-- `serializer(value, name)` on a value of each serialisable type. -/
def serializeValue (name : List UInt8) : KVValue → m (KVValue × Bool)
  | .uint8 value => do
      let (value, found) ← s.uint8 value name
      pure (.uint8 value, found)
  | .int16 value => do
      let (value, found) ← s.int16 value name
      pure (.int16 value, found)
  | .uint16 value => do
      let (value, found) ← s.uint16 value name
      pure (.uint16 value, found)
  | .int32 value => do
      let (value, found) ← s.int32 value name
      pure (.int32 value, found)
  | .uint32 value => do
      let (value, found) ← s.uint32 value name
      pure (.uint32 value, found)
  | .int64 value => do
      let (value, found) ← s.int64 value name
      pure (.int64 value, found)
  | .uint64 value => do
      let (value, found) ← s.uint64 value name
      pure (.uint64 value, found)
  | .double value => do
      let (value, found) ← s.double value name
      pure (.double value, found)
  | .bool value => do
      let (value, found) ← s.bool value name
      pure (.bool value, found)
  | .string value => do
      let (value, found) ← s.string value name
      pure (.string value, found)
  | .binary bytes => do
      let (bytes, found) ← s.binary bytes name
      pure (.binary bytes, found)
  -- `serialize(T& value, name, serializer)`: a structure not found is left as it was.
  | .object fields => do
      if !(← s.beginObject name) then return (.object fields, false)
      let fields ← serializeFields fields
      s.endObject
      pure (.object fields, true)
  -- `serializeContainer`: `value.resize(size)` keeps the first `size` elements and appends
  -- copies of `T()`, and every element is then serialized in order under the empty name.
  | .array item elements => do
      let (size, found) ← s.beginArray elements.length name
      if !found then
        return (.array item (if s.type = .INPUT then [] else elements), false)
      let kept ← serializeElements size elements
      let padding ← (List.replicate (size - elements.length) ()).mapM fun _ => do
        let (value, _) ← serializeValue [] item
        pure value
      s.endArray
      pure (.array item (kept ++ padding), true)

/-- The `serialize` method of a structure: `KV_MEMBER` of each field in order. -/
def serializeFields : List (List UInt8 × KVValue) → m (List (List UInt8 × KVValue))
  | [] => pure []
  | (name, value) :: rest => do
      let (value, _) ← serializeValue name value
      let rest ← serializeFields rest
      pure ((name, value) :: rest)

/-- The first `size` elements of a container, each serialized under the empty name. -/
def serializeElements : Nat → List KVValue → m (List KVValue)
  | _, [] => pure []
  | 0, _ :: _ => pure []
  | size + 1, value :: rest => do
      let (value, _) ← serializeValue [] value
      let rest ← serializeElements size rest
      pure (value :: rest)

end

end ISerializer

end Dynex
