import Dynex.Common.JsonValue
import Dynex.Serialization.ISerializer
import Dynex.Serialization.KVBinaryCommon

/-!
# What a value of a serialisable type is, and its key-value form

The abstract side of the key-value codec, stated without the serializers. A value has a type
(`typeOf`): the kind of each field, the size of a fixed block, the names and types of a
structure's fields, and for a vector its `T()`. A well-formed value is one the writer puts in the
key-value form and the reader gives back: every vector's elements are of its element type, which
is a number, `bool`, string or structure; names are non-empty, at most 255 bytes and distinct in
each structure; strings, blocks, vectors and structures have fewer than `2 ^ 62` entries, the most
a varint can count.

`entries` gives the bytes of a structure's entries in the key-value form, and `toJson` the tree
the reader builds from them. An empty vector and an empty block have no entry.
-/

set_option autoImplicit false

namespace Dynex

open Codec Common

/-- The type of a value, with `T()` as the type of a vector. -/
inductive KVType where
  | uint8
  | int16
  | uint16
  | int32
  | uint32
  | int64
  | uint64
  | double
  | bool
  | string
  | binary (size : Nat)
  | object (fields : List (List UInt8 × KVType))
  | array (item : KVValue)

namespace KVValue

mutual

def typeOf : KVValue → KVType
  | .uint8 _ => .uint8
  | .int16 _ => .int16
  | .uint16 _ => .uint16
  | .int32 _ => .int32
  | .uint32 _ => .uint32
  | .int64 _ => .int64
  | .uint64 _ => .uint64
  | .double _ => .double
  | .bool _ => .bool
  | .string _ => .string
  | .binary bytes => .binary bytes.length
  | .object fields => .object (fieldTypes fields)
  | .array item _ => .array item

def fieldTypes : List (List UInt8 × KVValue) → List (List UInt8 × KVType)
  | [] => []
  | (name, value) :: rest => (name, typeOf value) :: fieldTypes rest

end

/-- The values written by `writePod`: the numbers and `bool`. -/
def IsScalar : KVValue → Prop
  | .string _ => False
  | .binary _ => False
  | .object _ => False
  | .array _ _ => False
  | _ => True

/-- The element types whose first element writes the vector's preamble: numbers, `bool`, strings
and structures. An empty block writes nothing, and a vector opens a level of its own. -/
def IsElement : KVValue → Prop
  | .binary _ => False
  | .array _ _ => False
  | _ => True

mutual

/-- A value built as its type allows. -/
def Typed : KVValue → Prop
  | .object fields => FieldsTyped fields
  | .array item elements => Typed item ∧ ElementsTyped item elements
  | _ => True

def FieldsTyped : List (List UInt8 × KVValue) → Prop
  | [] => True
  | (_, value) :: rest => Typed value ∧ FieldsTyped rest

def ElementsTyped (item : KVValue) : List KVValue → Prop
  | [] => True
  | value :: rest => value.typeOf = item.typeOf ∧ Typed value ∧ ElementsTyped item rest

end

def ValidName (name : List UInt8) : Prop := name ≠ [] ∧ name.length ≤ 255

mutual

/-- A value the writer writes and the reader reads back: lengths a varint counts, distinct valid
names, and vectors of element types. -/
def WellFormed : KVValue → Prop
  | .string value => value.length < 2 ^ 62
  | .binary bytes => bytes.length < 2 ^ 62
  | .object fields =>
      fields.length < 2 ^ 62 ∧ (fields.map (·.1)).Nodup ∧ FieldsWellFormed fields
  | .array item elements =>
      item.IsElement ∧ elements.length < 2 ^ 62 ∧ ElementsWellFormed item elements
  | _ => True

def FieldsWellFormed : List (List UInt8 × KVValue) → Prop
  | [] => True
  | (name, value) :: rest => ValidName name ∧ WellFormed value ∧ FieldsWellFormed rest

def ElementsWellFormed (item : KVValue) : List KVValue → Prop
  | [] => True
  | value :: rest => value.typeOf = item.typeOf ∧ WellFormed value ∧ ElementsWellFormed item rest

end

mutual

/-- Whether a `double` is stored anywhere in the value. -/
def hasDouble : KVValue → Bool
  | .double _ => true
  | .object fields => fieldsHaveDouble fields
  | .array _ elements => elementsHaveDouble elements
  | _ => false

def fieldsHaveDouble : List (List UInt8 × KVValue) → Bool
  | [] => false
  | (_, value) :: rest => hasDouble value || fieldsHaveDouble rest

def elementsHaveDouble : List KVValue → Bool
  | [] => false
  | value :: rest => hasDouble value || elementsHaveDouble rest

end

/-! ## The key-value form -/

/-- The type byte of a value; for a vector, of its elements, under the array flag. -/
def typeCode : KVValue → UInt8
  | .uint8 _ => BIN_KV_SERIALIZE_TYPE_UINT8
  | .int16 _ => BIN_KV_SERIALIZE_TYPE_INT16
  | .uint16 _ => BIN_KV_SERIALIZE_TYPE_UINT16
  | .int32 _ => BIN_KV_SERIALIZE_TYPE_INT32
  | .uint32 _ => BIN_KV_SERIALIZE_TYPE_UINT32
  | .int64 _ => BIN_KV_SERIALIZE_TYPE_INT64
  | .uint64 _ => BIN_KV_SERIALIZE_TYPE_UINT64
  | .double _ => BIN_KV_SERIALIZE_TYPE_DOUBLE
  | .bool _ => BIN_KV_SERIALIZE_TYPE_BOOL
  | .string _ => BIN_KV_SERIALIZE_TYPE_STRING
  | .binary _ => BIN_KV_SERIALIZE_TYPE_STRING
  | .object _ => BIN_KV_SERIALIZE_TYPE_OBJECT
  | .array item _ => BIN_KV_SERIALIZE_FLAG_ARRAY ||| item.typeCode

theorem typeCode_eq_of_typeOf {value other : KVValue} (same : value.typeOf = other.typeOf) :
    value.typeCode = other.typeCode := by
  cases value <;> cases other <;> simp_all [typeOf, typeCode]

theorem IsElement.of_typeOf {value other : KVValue} (same : value.typeOf = other.typeOf)
    (element : other.IsElement) : value.IsElement := by
  cases value <;> cases other <;> simp_all [typeOf, IsElement]

/-- Whether a value has an entry: an empty vector or an empty block has none. -/
def present : KVValue → Bool
  | .binary bytes => !bytes.isEmpty
  | .array _ elements => !elements.isEmpty
  | _ => true

/-- The varint of a size below `2 ^ 62`: the narrowest width that holds four times the size,
with the width's mark in the low two bits. -/
def sizeBytes (size : Nat) : List UInt8 :=
  if size ≤ 63 then leBytes 1 (4 * size)
  else if size ≤ 16383 then leBytes 2 (4 * size + 1)
  else if size ≤ 1073741823 then leBytes 4 (4 * size + 2)
  else leBytes 8 (4 * size + 3)

def nameBytes (name : List UInt8) : List UInt8 := UInt8.ofNat name.length :: name

def entryCount (fields : List (List UInt8 × KVValue)) : Nat := fields.countP (·.2.present)

mutual

/-- The bytes of a value after its type byte. -/
def payload : KVValue → List UInt8
  | .uint8 value => leBytes 1 value.toNat
  | .int16 value => leBytes 2 value.toUInt16.toNat
  | .uint16 value => leBytes 2 value.toNat
  | .int32 value => leBytes 4 value.toUInt32.toNat
  | .uint32 value => leBytes 4 value.toNat
  | .int64 value => leBytes 8 value.toUInt64.toNat
  | .uint64 value => leBytes 8 value.toNat
  | .double bits => leBytes 8 bits.toNat
  | .bool value => leBytes 1 (if value then 1 else 0)
  | .string value => sizeBytes value.length ++ value
  | .binary bytes => sizeBytes bytes.length ++ bytes
  | .object fields => sizeBytes (entryCount fields) ++ entries fields
  | .array _ elements => sizeBytes elements.length ++ payloads elements

/-- The entries of a structure's fields: name, type byte and payload of each present one. -/
def entries : List (List UInt8 × KVValue) → List UInt8
  | [] => []
  | (name, value) :: rest =>
      (if value.present then nameBytes name ++ value.typeCode :: payload value else []) ++
        entries rest

def payloads : List KVValue → List UInt8
  | [] => []
  | value :: rest => payload value ++ payloads rest

end

def entry (name : List UInt8) (value : KVValue) : List UInt8 :=
  if value.present then nameBytes name ++ value.typeCode :: payload value else []

@[simp] theorem entries_nil : entries [] = [] := rfl

@[simp] theorem entries_cons (name : List UInt8) (value : KVValue)
    (rest : List (List UInt8 × KVValue)) :
    entries ((name, value) :: rest) = entry name value ++ entries rest := rfl

/-! ## The tree the reader builds -/

mutual

/-- The `JsonValue` that `parseBinary` builds from a value's entry. -/
def toJson : KVValue → JsonValue
  | .uint8 value => .integer value.toUInt64.toInt64
  | .int16 value => .integer value.toInt64
  | .uint16 value => .integer value.toUInt64.toInt64
  | .int32 value => .integer value.toInt64
  | .uint32 value => .integer value.toUInt64.toInt64
  | .int64 value => .integer value
  | .uint64 value => .integer value.toInt64
  | .double bits => .real bits
  | .bool value => .bool value
  | .string value => .string value
  | .binary bytes => .string bytes
  | .object fields => .object (jsonMembers fields)
  | .array _ elements => .array (jsonElements elements)

def jsonMembers : List (List UInt8 × KVValue) → List (List UInt8 × JsonValue)
  | [] => []
  | (name, value) :: rest =>
      if value.present then (name, toJson value) :: jsonMembers rest else jsonMembers rest

def jsonElements : List KVValue → List JsonValue
  | [] => []
  | value :: rest => toJson value :: jsonElements rest

end

end KVValue

end Dynex
