import Dynex.Serialization.ISerializer
import Dynex.Serialization.KVBinaryCommon

/-!
# Writing the key-value binary format

`KVBinaryOutputStreamSerializer.cpp`. The serializer keeps a stack of levels, one for each
object or array being written, and a stack of memory streams, one for each object: an object's
entries go to its own stream, and `endObject` writes the entry count and then the stream into
its parent's. An array's elements go to the enclosing object's stream, after a preamble (its
name, its type with the array flag, its size) that the first element writes; an array with no
elements writes nothing. Both stacks are lists with the top first. An `assert` of the source
fails with its condition as the message.
-/

set_option autoImplicit false

namespace Dynex

open Codec

namespace KVBinaryOutputStreamSerializer

def packVarint (width : Nat) (type_or : UInt8) (pv : Nat) : List UInt8 :=
  leBytes width ((pv <<< 2) % 2 ^ (8 * width) ||| type_or.toNat)

/-- `writeArraySize(s, val)`: the shortest of the four varint widths that holds `val`. -/
def writeArraySize (val : Nat) : Except String (List UInt8) :=
  if val ≤ 63 then pure (packVarint 1 PORTABLE_RAW_SIZE_MARK_BYTE val)
  else if val ≤ 16383 then pure (packVarint 2 PORTABLE_RAW_SIZE_MARK_WORD val)
  else if val ≤ 1073741823 then pure (packVarint 4 PORTABLE_RAW_SIZE_MARK_DWORD val)
  else if val > 4611686018427387903 then throw "failed to pack varint - too big amount"
  else pure (packVarint 8 PORTABLE_RAW_SIZE_MARK_INT64 val)

def writeElementName (name : List UInt8) : Except String (List UInt8) :=
  if name.length > 255 then throw "Element name is too long"
  else pure (UInt8.ofNat name.length :: name)

inductive State where
  | Root
  | Object
  | ArrayPrefix
  | Array
  deriving DecidableEq, Repr

structure Level where
  state : State
  name : List UInt8
  count : Nat
  deriving DecidableEq, Repr

def Level.object (name : List UInt8) : Level := ⟨.Object, name, 0⟩

def Level.array (name : List UInt8) (arraySize : Nat) : Level := ⟨.ArrayPrefix, name, arraySize⟩

end KVBinaryOutputStreamSerializer

open KVBinaryOutputStreamSerializer in
structure KVBinaryOutputStreamSerializer where
  m_objectsStack : List (List UInt8)
  m_stack : List Level
  deriving DecidableEq, Repr

namespace KVBinaryOutputStreamSerializer

abbrev Writer := StateT KVBinaryOutputStreamSerializer (Except String)

def liftExcept {α : Type} : Except String α → Writer α
  | .ok value => pure value
  | .error message => throw message

/-- `stream()`: the top memory stream. -/
def stream : Writer (List UInt8) := do
  match (← get).m_objectsStack with
  | [] => throw "m_objectsStack.size()"
  | top :: _ => pure top

/-- `write(stream(), data, size)`. -/
def write (bytes : List UInt8) : Writer Unit := do
  let s ← get
  match s.m_objectsStack with
  | [] => throw "m_objectsStack.size()"
  | top :: rest => set { s with m_objectsStack := (top ++ bytes) :: rest }

/-- `m_stack.back()`. -/
def topLevel : Writer Level := do
  match (← get).m_stack with
  | [] => throw "m_stack.size()"
  | level :: _ => pure level

def setTopLevel (level : Level) : Writer Unit :=
  modify fun s => { s with m_stack := level :: s.m_stack.tail }

/-- `m_stack.back()` moved out, then `m_stack.pop_back()`. -/
def popLevel : Writer Level := do
  let s ← get
  match s.m_stack with
  | [] => throw "m_stack.size()"
  | level :: rest =>
      set { s with m_stack := rest }
      pure level

/-- `m_objectsStack.back()` moved out, then `m_objectsStack.pop_back()`. -/
def popStream : Writer (List UInt8) := do
  let s ← get
  match s.m_objectsStack with
  | [] => throw "m_objectsStack.size()"
  | top :: rest =>
      set { s with m_objectsStack := rest }
      pure top

/-- `checkArrayPreamble(type)`: the first element of an array writes the array's preamble. -/
def checkArrayPreamble (type : UInt8) : Writer Unit := do
  match (← get).m_stack with
  | [] => pure ()
  | level :: _ =>
      if level.state = .ArrayPrefix then
        write (← liftExcept (writeElementName level.name))
        write [BIN_KV_SERIALIZE_FLAG_ARRAY ||| type]
        write (← liftExcept (writeArraySize level.count))
        setTopLevel { level with state := .Array }

/-- `writeElementPrefix(type, name)`: in an object, the name and the type of an entry, and one
more entry; an array element has no prefix. An empty name is not written but still counted. -/
def writeElementPrefix (type : UInt8) (name : List UInt8) : Writer Unit := do
  let _ ← topLevel
  checkArrayPreamble type
  let level ← topLevel
  if level.state ≠ .Array then
    if name ≠ [] then
      write (← liftExcept (writeElementName name))
      write [type]
    setTopLevel { level with count := level.count + 1 }

def beginObject (name : List UInt8) : Writer Bool := do
  checkArrayPreamble BIN_KV_SERIALIZE_TYPE_OBJECT
  modify fun s => ⟨[] :: s.m_objectsStack, Level.object name :: s.m_stack⟩
  pure true

def endObject : Writer Unit := do
  let _ ← stream
  let level ← popLevel
  let objStream ← popStream
  let _ ← stream
  writeElementPrefix BIN_KV_SERIALIZE_TYPE_OBJECT level.name
  write (← liftExcept (writeArraySize level.count))
  write objStream

def beginArray (size : Nat) (name : List UInt8) : Writer (Nat × Bool) := do
  modify fun s => { s with m_stack := Level.array name size :: s.m_stack }
  pure (size, true)

/-- `endArray()`: an array whose preamble was written counts as one entry of its object. -/
def endArray : Writer Unit := do
  let level ← popLevel
  let validArray := level.state = .Array
  let parent ← topLevel
  if parent.state = .Object ∧ validArray then
    setTopLevel { parent with count := parent.count + 1 }

/-- The `operator()` of a number or a `bool`: its prefix, then `writePod` of its `width` bytes. -/
def writeNumber {α : Type} (type : UInt8) (width : Nat) (toBits : α → Nat) (value : α)
    (name : List UInt8) : Writer (α × Bool) := do
  writeElementPrefix type name
  write (leBytes width (toBits value))
  pure (value, true)

def operatorUInt8 := writeNumber BIN_KV_SERIALIZE_TYPE_UINT8 1 UInt8.toNat
def operatorUInt16 := writeNumber BIN_KV_SERIALIZE_TYPE_UINT16 2 UInt16.toNat
def operatorInt16 := writeNumber BIN_KV_SERIALIZE_TYPE_INT16 2 fun (value : Int16) => value.toUInt16.toNat
def operatorUInt32 := writeNumber BIN_KV_SERIALIZE_TYPE_UINT32 4 UInt32.toNat
def operatorInt32 := writeNumber BIN_KV_SERIALIZE_TYPE_INT32 4 fun (value : Int32) => value.toUInt32.toNat
def operatorInt64 := writeNumber BIN_KV_SERIALIZE_TYPE_INT64 8 fun (value : Int64) => value.toUInt64.toNat
def operatorUInt64 := writeNumber BIN_KV_SERIALIZE_TYPE_UINT64 8 UInt64.toNat
def operatorBool := writeNumber BIN_KV_SERIALIZE_TYPE_BOOL 1 fun (value : Bool) => if value then 1 else 0
def operatorDouble := writeNumber BIN_KV_SERIALIZE_TYPE_DOUBLE 8 UInt64.toNat

def operatorString (value : List UInt8) (name : List UInt8) : Writer (List UInt8 × Bool) := do
  writeElementPrefix BIN_KV_SERIALIZE_TYPE_STRING name
  write (← liftExcept (writeArraySize value.length))
  write value
  pure (value, true)

/-- `binary(value, size, name)`: a block of `size` bytes is written as a string, and an empty
block not at all. -/
def binary (value : List UInt8) (name : List UInt8) : Writer (List UInt8 × Bool) := do
  if value.length > 0 then
    writeElementPrefix BIN_KV_SERIALIZE_TYPE_STRING name
    write (← liftExcept (writeArraySize value.length))
    write value
  pure (value, true)

@[simps] def serializer : ISerializer Writer where
  type := .OUTPUT
  beginObject := beginObject
  endObject := endObject
  beginArray := beginArray
  endArray := endArray
  uint8 := operatorUInt8
  int16 := operatorInt16
  uint16 := operatorUInt16
  int32 := operatorInt32
  uint32 := operatorUInt32
  int64 := operatorInt64
  uint64 := operatorUInt64
  double := operatorDouble
  bool := operatorBool
  string := operatorString
  binary := binary

def init : Except String KVBinaryOutputStreamSerializer :=
  Prod.snd <$> (beginObject []).run ⟨[], []⟩

/-- `dump(target)`: the header, the root's entry count, then the root's stream. -/
def dump (s : KVBinaryOutputStreamSerializer) : Except String (List UInt8) :=
  match s.m_objectsStack, s.m_stack with
  | [rootStream], [root] => do
      let count ← writeArraySize root.count
      pure (KVBinaryStorageBlockHeader.portable.toBytes ++ count ++ rootStream)
  | [_], _ => throw "m_stack.size() == 1"
  | _, _ => throw "m_objectsStack.size() == 1"

end KVBinaryOutputStreamSerializer

end Dynex
